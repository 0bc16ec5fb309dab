import LocalizationScan.Proofs.Reference.Placement
import LocalizationScan.Proofs.SourceItems

namespace LocalizationScan

/-!
# Items one after the other

The literals of a file come one after the other, and so do its references.  A
reference overlaps no literal: it begins in code, and where it stands between
the delimiters of a string it stands in a hole of that string.
-/

/-- Spans that are not empty, each of which ends before the next one starts. -/
structure Span.AreOrdered (spans : List Span) : Prop where
  nonempty : ∀ span ∈ spans, span.start.offset < span.stop.offset
  apart : spans.Pairwise fun span other => span.stop.offset ≤ other.start.offset

/-- A reference that begins at a character of code of a block and stays outside of strings,
save for those in whose holes it stands. -/
def Reference.StandsInCode
    (dialect : Dialect)
    (anchor : Position)
    (block : Text)
    (reference : Reference) :
    Prop :=
  ∃ beginning ∈ dialect.visited anchor block,
    reference.BeginsAt dialect (dialect.visited anchor block) beginning ∧
      ∀ token, .stringClosed token ∈ dialect.events anchor block →
        token.span.start.offset ≤ reference.span.start.offset →
        reference.span.stop.offset ≤ token.span.stop.offset →
          ∃ hole ∈ beginning.control.holes, hole.token.start = token.span.start

section Blocks

variable {dialect : Dialect} {flags : ItemFlags} {anchor : Position} {block : Text}
  {context : ResolveContext} {items : List Reference}

theorem Span.Covers.bounds
    {span : Span}
    {slice : Text}
    (covers : span.Covers anchor block slice) :
    anchor.offset ≤ span.start.offset ∧
      span.stop.offset ≤ anchor.offset + block.length := by
  obtain ⟨before, after, rfl, rfl⟩ := covers
  simp only [Position.offset_advanceOver, List.length_append]
  omega

/-- Every string that is closed in a block is opened in it and held from there. -/
theorem Dialect.standsIn_of_closed
    {token : StringToken}
    (closed : .stringClosed token ∈ dialect.events anchor block) :
    token.StandsIn dialect (dialect.visited anchor block) := by
  rcases (dialect.trail_visited anchor block).holds_or_standsIn
      (Control.initial_fitsDialect dialect) closed with ⟨held, -⟩ | stands
  · cases held with
    | current mode => cases mode
    | waiting member => cases member
  · exact stands

/-- Every reference of a block begins at a character of code. -/
theorem Dialect.exists_beginsAt
    (searched : dialect.references context flags anchor block = .ok items)
    {reference : Reference}
    (member : reference ∈ items) :
    ∃ beginning ∈ dialect.visited anchor block,
      reference.BeginsAt dialect (dialect.visited anchor block) beginning := by
  rcases (dialect.trail_visited anchor block).beginsOn
      (fun _ _ mode => (nomatch mode)) searched reference member with
      ⟨ongoing, -, -⟩ | begins
  · exact absurd ongoing (Chain.not_isOngoing_of_idle rfl)
  · exact begins

/-- No string opens inside a reference. -/
theorem Reference.BeginsAt.lt_start_of_standsIn
    {visited : List Scan}
    {reference : Reference}
    {beginning : Scan}
    {token : StringToken}
    (begins : reference.BeginsAt dialect visited beginning)
    (stands : token.StandsIn dialect visited)
    (before : token.span.start.offset < reference.span.stop.offset) :
    token.span.start.offset < reference.span.start.offset := by
  obtain ⟨scan, member, position, kind, length, opens⟩ := stands.opened
  rw [← Nat.not_le]
  intro behind
  rw [← position] at before behind
  have keeps := (begins.outside scan member behind before).keepsChain
  rw [opens] at keeps
  cases keeps

/-- A reference between the delimiters of a string stands in a hole of it, so the string is
not reported. -/
theorem Reference.BeginsAt.exists_hole_of_standsIn
    {visited : List Scan}
    {reference : Reference}
    {beginning : Scan}
    {token : StringToken}
    (begins : reference.BeginsAt dialect visited beginning)
    (member : beginning ∈ visited)
    (stands : token.StandsIn dialect visited)
    (startInside : token.span.start.offset < reference.span.stop.offset)
    (stopInside : reference.span.start.offset < token.span.stop.offset) :
    (∃ hole ∈ beginning.control.holes, hole.token.start = token.span.start) ∧
      token.emit = false := by
  have behind := begins.lt_start_of_standsIn stands startInside
  rw [← begins.position] at behind stopInside
  cases stands.held beginning member behind stopInside with
  | current mode =>
      cases begins.inCode.symm.trans mode
  | waiting memberHole start silent =>
      exact ⟨⟨_, memberHole, start⟩, silent⟩

theorem Dialect.standsInCode_of_mem_references
    (searched : dialect.references context flags anchor block = .ok items)
    {reference : Reference}
    (member : reference ∈ items) :
    reference.StandsInCode dialect anchor block := by
  obtain ⟨beginning, memberBeginning, begins⟩ := exists_beginsAt searched member
  refine ⟨beginning, memberBeginning, begins, ?_⟩
  intro token closed startInside stopInside
  have nonempty := begins.nonempty
  exact (begins.exists_hole_of_standsIn memberBeginning (standsIn_of_closed closed)
    (Nat.lt_of_le_of_lt startInside nonempty) (Nat.lt_of_lt_of_le nonempty stopInside)).1

/-- The spans of the literals of a block are those of the tokens that are reported. -/
theorem Dialect.map_span_literals
    (dialect : Dialect)
    (flags : ItemFlags)
    (anchor : Position)
    (block : Text) :
    (dialect.literals flags anchor block).map Literal.span =
      (emittedTokens (dialect.events anchor block)).map StringToken.span := by
  have same :=
    congrArg (List.map Literal.span)
      (unmarked_literalsOfEvents dialect flags .initial (dialect.events anchor block))
  simp only [List.map_map] at same
  exact same

/-- A token that is reported and a reference of a block do not overlap. -/
theorem Dialect.apart_of_mem
    {token : StringToken}
    {reference : Reference}
    (searched : dialect.references context flags anchor block = .ok items)
    (memberToken : token ∈ emittedTokens (dialect.events anchor block))
    (memberReference : reference ∈ items) :
    token.span.stop.offset ≤ reference.span.start.offset ∨
      reference.span.stop.offset ≤ token.span.start.offset := by
  obtain ⟨closed, reported⟩ := mem_emittedTokens_iff.mp memberToken
  obtain ⟨beginning, memberBeginning, begins⟩ := exists_beginsAt searched memberReference
  by_contra overlap
  obtain ⟨stopInside, startInside⟩ := not_or.mp overlap
  have silent :=
    (begins.exists_hole_of_standsIn memberBeginning (standsIn_of_closed closed)
      (Nat.lt_of_not_le startInside) (Nat.lt_of_not_le stopInside)).2
  cases reported.symm.trans silent

theorem Dialect.areOrdered_literals
    (dialect : Dialect)
    (flags : ItemFlags)
    (anchor : Position)
    (block : Text) :
    Span.AreOrdered ((dialect.literals flags anchor block).map Literal.span) where
  nonempty := by
    intro span member
    obtain ⟨literal, memberLiteral, rfl⟩ := List.mem_map.mp member
    obtain ⟨covers, long⟩ := covers_of_mem_literals memberLiteral
    have length := covers.length_eq
    unfold Span.length at length
    omega
  apart := by
    rw [map_span_literals, List.pairwise_map]
    exact (dialect.trail_visited anchor block).pairwise_emittedTokens
      (Control.initial_fitsDialect dialect)

theorem Dialect.areOrdered_references
    (searched : dialect.references context flags anchor block = .ok items) :
    Span.AreOrdered (items.map Reference.span) where
  nonempty := by
    intro span member
    obtain ⟨reference, memberReference, rfl⟩ := List.mem_map.mp member
    obtain ⟨beginning, -, begins⟩ := exists_beginsAt searched memberReference
    exact begins.nonempty
  apart := by
    rw [List.pairwise_map]
    exact (dialect.trail_visited anchor block).pairwise_references
      (fun _ _ mode => (nomatch mode)) searched

end Blocks

section Regions

variable {regions : List CodeRegion} {spans : CodeRegion → List Span}

/-- Whether the code of a region ends before that of another one starts. -/
def CodeRegion.EndsBefore (region other : CodeRegion) : Prop :=
  region.anchor.offset + region.code.length ≤ other.anchor.offset

/-- Whether a span lies in the code of a region. -/
structure CodeRegion.Encloses (region : CodeRegion) (span : Span) : Prop where
  start : region.anchor.offset ≤ span.start.offset
  stop : span.stop.offset ≤ region.anchor.offset + region.code.length

theorem CodeRegion.EndsBefore.apart
    {region other : CodeRegion}
    {span later : Span}
    (before : region.EndsBefore other)
    (encloses : region.Encloses span)
    (enclosesLater : other.Encloses later) :
    span.stop.offset ≤ later.start.offset :=
  Nat.le_trans encloses.stop (Nat.le_trans before enclosesLater.start)

/-- Two regions of a file are the same, or one ends before the other starts. -/
theorem CodeRegion.eq_or_endsBefore
    (ordered : regions.Pairwise EndsBefore)
    {region other : CodeRegion}
    (member : region ∈ regions)
    (memberOther : other ∈ regions) :
    region = other ∨ region.EndsBefore other ∨ other.EndsBefore region := by
  induction ordered with
  | nil =>
      cases member
  | cons before _ inductionHypothesis =>
      rcases List.mem_cons.mp member with rfl | later
      · rcases List.mem_cons.mp memberOther with rfl | laterOther
        · exact .inl rfl
        · exact .inr (.inl (before other laterOther))
      · rcases List.mem_cons.mp memberOther with rfl | laterOther
        · exact .inr (.inr (before region later))
        · exact inductionHypothesis later laterOther

/-- Spans that are ordered in each region are ordered in the file. -/
theorem Span.areOrdered_flatMap
    (ordered : regions.Pairwise CodeRegion.EndsBefore)
    (orderedHere : ∀ region ∈ regions, AreOrdered (spans region))
    (encloses : ∀ region ∈ regions, ∀ span ∈ spans region, region.Encloses span) :
    AreOrdered (regions.flatMap spans) where
  nonempty := by
    intro span member
    obtain ⟨region, memberRegion, memberSpan⟩ := List.mem_flatMap.mp member
    exact (orderedHere region memberRegion).nonempty span memberSpan
  apart := by
    rw [List.pairwise_flatMap]
    refine ⟨fun region member => (orderedHere region member).apart, ?_⟩
    apply List.Pairwise.imp_of_mem _ ordered
    intro region other member memberOther before span memberSpan later memberLater
    exact before.apart (encloses region member span memberSpan)
      (encloses other memberOther later memberLater)

theorem Language.events_dialect
    (language : Language)
    (marker other : Text)
    (anchor : Position)
    (block : Text) :
    (language.dialect marker).events anchor block =
      (language.dialect other).events anchor block := by
  cases language with
  | csharp => exact Scan.events_csharp marker other _
  | visualBasic => rfl

end Regions

namespace SourceFile

variable {path content : Text} {generated : Bool} {source : SourceFile}

theorem pairwise_regions
    (opened : ofContent? path content generated = some source) :
    source.regions.Pairwise CodeRegion.EndsBefore := by
  simp only [ofContent?, Option.map_eq_some_iff] at opened
  obtain ⟨kind, kindShape, rfl⟩ := opened
  unfold kindOf? at kindShape
  split at kindShape
  · cases kindShape
    exact List.pairwise_singleton _ _
  · split at kindShape
    · cases kindShape
      have ordered := (Markup.walk_itemsFrom [] content).pairwise_blocks.2
      exact List.pairwise_map.mpr (ordered.imp Nat.le_of_lt)
    · cases kindShape

/-- The references of a file are those of its regions. -/
theorem references_eq_flatMap
    (opened : ofContent? path content generated = some source)
    {trie : Trie}
    {rootNamespace : Text}
    {preferred? : Option Origin}
    {items : List Reference}
    (searched : source.references trie rootNamespace preferred? = .ok items) :
    ∃ found : CodeRegion → List Reference,
      items = source.regions.flatMap found ∧
        ∀ region ∈ source.regions,
          (region.language.dialect defaultMarker).references
              ⟨trie, source.scope rootNamespace, preferred?⟩ source.flags region.anchor
              region.code =
            .ok (found region) := by
  obtain ⟨lists, searchedRegions, same⟩ := Except.exists_of_bind_eq_ok searched
  cases same
  obtain ⟨succeeds, rfl⟩ := exists_map_of_mapM_eq_ok searchedRegions
  refine ⟨_, rfl, ?_⟩
  intro region member
  have found := succeeds region member
  simp only [findReferences, asAnchor_of_mem_regions opened member] at found ⊢
  exact Except.eq_ok_of_mapError_eq_ok found

/-- The literals of a file are ordered and so are its references.  None overlaps another, and
every reference stands in the code of its region. -/
theorem items_are_apart
    (path content : Text)
    (generated : Bool)
    (source : SourceFile)
    (marker : Text)
    (trie : Trie)
    (rootNamespace : Text)
    (preferred? : Option Origin)
    (opened : ofContent? path content generated = some source) :
    ∃ literals,
      source.literals marker = .ok literals ∧
        Span.AreOrdered (literals.map Literal.span) ∧
        ∀ references,
          source.references trie rootNamespace preferred? = .ok references →
            Span.AreOrdered (references.map Reference.span) ∧
              (∀ literal ∈ literals, ∀ reference ∈ references,
                literal.span.stop.offset ≤ reference.span.start.offset ∨
                  reference.span.stop.offset ≤ literal.span.start.offset) ∧
              ∀ reference ∈ references, ∃ region ∈ source.regions,
                reference.StandsInCode (region.language.dialect defaultMarker) region.anchor
                  region.code := by
  have ordered := pairwise_regions opened
  have enclosesLiteral :
      ∀ region ∈ source.regions,
        ∀ literal ∈
            (region.language.dialect marker).literals source.flags region.anchor region.code,
          region.Encloses literal.span := by
    intro region _ literal member
    obtain ⟨first, last⟩ := (Dialect.covers_of_mem_literals member).1.bounds
    exact ⟨first, last⟩
  refine ⟨_, literals_eq_ok opened marker, ?_, ?_⟩
  · rw [List.map_flatMap]
    apply Span.areOrdered_flatMap ordered
    · intro region _
      exact Dialect.areOrdered_literals _ _ _ _
    · intro region memberRegion span member
      obtain ⟨literal, memberLiteral, rfl⟩ := List.mem_map.mp member
      exact enclosesLiteral region memberRegion literal memberLiteral
  · intro references searched
    obtain ⟨found, rfl, searchedRegions⟩ := references_eq_flatMap opened searched
    have enclosesReference :
        ∀ region ∈ source.regions, ∀ reference ∈ found region,
          region.Encloses reference.span := by
      intro region memberRegion reference member
      obtain ⟨slice, covers, -⟩ :=
        Dialect.isSpelled_of_mem_references (searchedRegions region memberRegion) member
      obtain ⟨first, last⟩ := covers.bounds
      exact ⟨first, last⟩
    refine ⟨?_, ?_, ?_⟩
    · rw [List.map_flatMap]
      apply Span.areOrdered_flatMap ordered
      · intro region memberRegion
        exact Dialect.areOrdered_references (searchedRegions region memberRegion)
      · intro region memberRegion span member
        obtain ⟨reference, memberReference, rfl⟩ := List.mem_map.mp member
        exact enclosesReference region memberRegion reference memberReference
    · intro literal memberLiteral reference memberReference
      obtain ⟨region, memberRegion, literalHere⟩ := List.mem_flatMap.mp memberLiteral
      obtain ⟨other, memberOther, referenceThere⟩ := List.mem_flatMap.mp memberReference
      have inside := enclosesLiteral region memberRegion literal literalHere
      have insideOther := enclosesReference other memberOther reference referenceThere
      rcases CodeRegion.eq_or_endsBefore ordered memberRegion memberOther with
          rfl | before | behind
      -- In one region both are found by the same scan, which the marker has no part in.
      · have span := List.mem_map_of_mem (f := Literal.span) literalHere
        rw [Dialect.map_span_literals] at span
        obtain ⟨token, memberToken, same⟩ := List.mem_map.mp span
        rw [Language.events_dialect region.language marker defaultMarker] at memberToken
        rw [← same]
        exact Dialect.apart_of_mem (searchedRegions region memberRegion) memberToken
          referenceThere
      · exact .inl (before.apart inside insideOther)
      · exact .inr (behind.apart insideOther inside)
    · intro reference member
      obtain ⟨region, memberRegion, memberFound⟩ := List.mem_flatMap.mp member
      exact ⟨region, memberRegion,
        Dialect.standsInCode_of_mem_references (searchedRegions region memberRegion)
          memberFound⟩

/-- A reference in the hole of a string stands in code, before the literal behind the
string. -/
theorem items_are_apart_hole :
    let content := "$\"\x7bR.K\x7d\"+\"x\"".toList
    let source : SourceFile := ⟨"a.cs".toList, content, false, .code .csharp⟩
    let trie : Trie :=
      .ofList [⟨"K".toList, "V".toList, ⟨[], "R".toList, none, "R.resx".toList⟩⟩]
    ∃ literals references,
      source.literals defaultMarker = .ok literals ∧
        source.references trie [] none = .ok references ∧
        literals.map Literal.span = [⟨⟨1, 10, 9⟩, ⟨1, 13, 12⟩⟩] ∧
        references.map Reference.span = [⟨⟨1, 4, 3⟩, ⟨1, 7, 6⟩⟩] ∧
        ∀ reference ∈ references,
          reference.StandsInCode (.csharp defaultMarker) .start content := by
  intro content source trie
  have opened : ofContent? "a.cs".toList content false = some source := by
    simp only [content, source]
    cbv
  obtain ⟨literals, foundLiterals, -, apart⟩ :=
    items_are_apart "a.cs".toList content false source defaultMarker trie [] none opened
  have scannedLiterals :
      source.literals defaultMarker =
        .ok [⟨"\"x\"".toList, ['x'], ⟨⟨1, 10, 9⟩, ⟨1, 13, 12⟩⟩, false, .none⟩] := by
    simp only [content, source]
    cbv
  have scannedReferences :
      source.references trie [] none =
        .ok
          [⟨"R.K".toList, "R.K".toList, ['K'], ['V'],
            ⟨[], "R".toList, none, "R.resx".toList⟩, ⟨⟨1, 4, 3⟩, ⟨1, 7, 6⟩⟩, .none⟩] := by
    simp only [content, source, trie]
    cbv
  obtain rfl := Except.ok.inj (foundLiterals.symm.trans scannedLiterals)
  obtain ⟨-, -, standing⟩ := apart _ scannedReferences
  refine ⟨_, _, scannedLiterals, scannedReferences, rfl, rfl, ?_⟩
  intro reference member
  obtain ⟨region, memberRegion, stands⟩ := standing reference member
  cases List.mem_singleton.mp memberRegion
  exact stands

end SourceFile

end LocalizationScan
