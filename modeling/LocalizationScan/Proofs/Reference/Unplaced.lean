import LocalizationScan.Proofs.Reference.Following
import LocalizationScan.Proofs.Scan.Outline

namespace LocalizationScan

/-!
# References without their places

What is found in a block depends on its identifiers and on what separates them.
Where they stand decides where the references stand, and nothing else.  So two
blocks with the same marks in the same order have the same references, up to
their places.
-/

/-- A reference without its place. -/
def Reference.unplaced (reference : Reference) : Reference :=
  { reference with span := ⟨.start, .start⟩ }

def Segment.unplaced (segment : Segment) : Segment :=
  { segment with start := .start, stop := .start }

def Link.unplaced (link : Link) : Link :=
  { link with segment := link.segment.unplaced }

def Chain.unplaced (chain : Chain) : Chain :=
  { chain with start := .start }

/-- Where marks stand has no part in how they make up links. -/
theorem unplaced_linksOf (marks : List Mark) :
    (linksOf (marks.map Mark.unplaced)).map Link.unplaced = (linksOf marks).map Link.unplaced := by
  induction marks with
  | nil =>
      rfl
  | cons mark marks inductionHypothesis =>
      cases here : linksOf marks <;> cases there : linksOf (marks.map Mark.unplaced)
      all_goals
        simp only [here, there, List.map_nil, List.map_cons, List.cons.injEq, reduceCtorEq,
          Link.unplaced, Link.mk.injEq, Segment.unplaced, Segment.mk.injEq, and_true]
          at inductionHypothesis
      · cases mark <;> simp [linksOf, Mark.unplaced, here, there]
        rfl
      · rename_i first links other others
        obtain ⟨⟨gap, text⟩, later⟩ := inductionHypothesis
        obtain ⟨otherGap, other⟩ := other
        obtain ⟨firstGap, first⟩ := first
        dsimp only at gap text
        subst gap
        cases mark with
        | separator between =>
            simp [linksOf, Mark.unplaced, here, there, later, Link.unplaced, Segment.unplaced, text]
        | identifier char position isIdentifier =>
            cases otherGap <;>
              simp [linksOf, Mark.unplaced, here, there, later, Link.unplaced, Segment.unplaced,
                text, Segment.push, Segment.single]

namespace Chain

variable {context : ResolveContext} {flags : ItemFlags}

@[simp]
theorem unplaced_idle : idle.unplaced = idle := rfl

theorem unplaced_pass (trie : Trie) (chain : Chain) (separator : Separator) :
    (chain.pass trie separator).unplaced = chain.unplaced.pass trie separator := by
  obtain ⟨state, _⟩ := chain
  cases separator <;> cases state <;> rfl

theorem unplaced_identifier (trie : Trie) (chain : Chain) (char : Char) (position : Position) :
    (chain.identifier trie char position).unplaced =
      chain.unplaced.identifier trie char .start := by
  obtain ⟨state, _⟩ := chain
  cases state <;> rfl

theorem unplaced_read (trie : Trie) (chain : Chain) (segment : Segment) :
    (chain.read trie segment).unplaced = chain.unplaced.read trie segment.unplaced := by
  have reads (text : Text) :
      (text.foldl (fun chain char => chain.identifier trie char segment.start) chain).unplaced =
        text.foldl (fun chain char => chain.identifier trie char .start) chain.unplaced := by
    induction text generalizing chain with
    | nil =>
        rfl
    | cons char rest inductionHypothesis =>
        rw [List.foldl_cons, List.foldl_cons, inductionHypothesis, unplaced_identifier]
  exact reads segment.text

theorem unplaced_foldl_pass (trie : Trie) (chain : Chain) (gap : List Separator) :
    (gap.foldl (pass trie) chain).unplaced = gap.foldl (pass trie) chain.unplaced := by
  induction gap generalizing chain with
  | nil =>
      rfl
  | cons separator gap inductionHypothesis =>
      rw [List.foldl_cons, List.foldl_cons, inductionHypothesis, unplaced_pass]

/-- What a chain stands for does not depend on where it begins and ends. -/
theorem resolved_unplaced (chain : Chain) (stop : Position) :
    chain.unplaced.resolved context flags .start =
      (chain.resolved context flags stop).map (Option.map Reference.unplaced) := by
  have alive : chain.unplaced.isAlive = chain.isAlive := rfl
  have fields :
      chain.unplaced.text = chain.text ∧ chain.unplaced.node = chain.node ∧
        chain.unplaced.consumed = chain.consumed ∧ chain.unplaced.start = .start :=
    ⟨rfl, rfl, rfl, rfl⟩
  simp only [resolved, alive, fields]
  split
  · rfl
  · split
    · rfl
    · rename_i dotted _
      cases context.resolve dotted (context.trie.entriesAt chain.node) with
      | error error =>
          rfl
      | ok found =>
          cases found <;> rfl

/-- Links stand for the same references wherever they stand. -/
theorem followLinks_unplaced (chain : Chain) (links : List Link) :
    chain.unplaced.followLinks context flags (links.map Link.unplaced) =
      (chain.followLinks context flags links).map (List.map Reference.unplaced) := by
  induction links generalizing chain with
  | nil =>
      rfl
  | cons link links inductionHypothesis =>
      rw [List.map_cons, followLinks_cons, followLinks_cons]
      have same :
          (link.unplaced.gap.foldl (pass context.trie) chain.unplaced).read context.trie
              link.unplaced.segment =
            ((link.gap.foldl (pass context.trie) chain).read context.trie
              link.segment).unplaced := by
        rw [unplaced_read, unplaced_foldl_pass]
        rfl
      have resolved := @resolved_unplaced context flags
        ((link.gap.foldl (pass context.trie) chain).read context.trie link.segment)
        link.segment.stop
      simp only [same]
      generalize (link.gap.foldl (pass context.trie) chain).read context.trie link.segment =
        behind at resolved
      rw [show link.unplaced.segment.stop = .start from rfl, resolved]
      cases behind.resolved context flags link.segment.stop with
      | error error =>
          rfl
      | ok found =>
          have later := inductionHypothesis
            { behind with consumed := behind.consumed || found.isSome }
          have sameFound : (found.map Reference.unplaced).isSome = found.isSome :=
            Option.isSome_map
          simp only [Except.map, sameFound]
          refine (congrArg (Except.map _) later).trans ?_
          cases followLinks context flags
              { behind with consumed := behind.consumed || found.isSome } links with
          | error error =>
              rfl
          | ok items =>
              cases found <;> rfl

end Chain

section Blocks

variable {dialect : Dialect} {anchor : Position} {block other : Text}

/-- Without their places the references of a block are those of its marks. -/
theorem Dialect.references_unplaced
    (dialect : Dialect)
    (context : ResolveContext)
    (flags : ItemFlags)
    (anchor : Position)
    (block : Text) :
    (dialect.references context flags anchor block).map (List.map Reference.unplaced) =
      Chain.idle.followLinks context flags
        ((linksOf ((Scan.ofBlock anchor block).marks dialect)).map Link.unplaced) := by
  have foretold := (dialect.run_events anchor block).foretells
  rw [references, Chain.referencesOfEvents_eq_followLinks _ _ foretold,
    ← Chain.followLinks_unplaced, Chain.unplaced_idle, Scan.marks, marksOf, unplaced_linksOf]
  rfl

/-- Two blocks with the same marks have the same references, up to their places. -/
theorem findReferences_unplaced
    (same : (Scan.ofBlock anchor block).marks dialect = (Scan.ofBlock anchor other).marks dialect)
    (context : ResolveContext)
    (flags : ItemFlags) :
    (findReferences dialect context flags anchor block).map (List.map Reference.unplaced) =
      (findReferences dialect context flags anchor other).map (List.map Reference.unplaced) := by
  cases valid : anchor.asAnchor with
  | error error =>
      simp only [findReferences, valid]
  | ok position =>
      obtain ⟨rfl, -⟩ := Position.asAnchor_advanceOver valid []
      have found := dialect.references_unplaced context flags position block
      rw [same, ← dialect.references_unplaced] at found
      simp only [findReferences, valid]
      revert found
      cases dialect.references context flags position block <;>
        cases dialect.references context flags position other <;>
        simp [Except.map, Except.mapError]

end Blocks

end LocalizationScan
