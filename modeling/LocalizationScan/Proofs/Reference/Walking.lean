import LocalizationScan.Proofs.Reference.Dotted
import LocalizationScan.Proofs.Reference.Following
import LocalizationScan.Proofs.Results

namespace LocalizationScan

/-!
# Walking along chains

Behind each segment the chain that is followed is known from the segments read
so far, and a gap either joins the next segment to it or lets the next segment
begin anew.  The references of links are therefore those of their chains.
-/

namespace Chain

section Gaps

variable {trie : Trie}

/-- Whether the next segment begins a new chain. -/
def IsFresh (chain : Chain) : Prop :=
  chain.state = .idle ∨ chain.state = .afterSegment

theorem foldl_pass_idle (gap : List Separator) :
    gap.foldl (pass trie) idle = idle := by
  induction gap with
  | nil =>
      rfl
  | cons separator gap inductionHypothesis =>
      cases separator <;> exact inductionHypothesis

theorem foldl_pass_afterDot
    {chain : Chain}
    (afterDot : chain.state = .afterDot)
    (gap : List Separator)
    (blanks : gap.filter (· ≠ .blank) = []) :
    gap.foldl (pass trie) chain = chain := by
  induction gap with
  | nil =>
      rfl
  | cons separator gap inductionHypothesis =>
      cases separator with
      | blank =>
          have unchanged : chain.pass trie .blank = chain := by
            simp [pass, blank, afterDot]
          rw [List.foldl_cons, unchanged]
          exact inductionHypothesis (by simpa using blanks)
      | dot | cut =>
          simp at blanks

theorem foldl_pass_afterDot_of_ne
    {chain : Chain}
    (afterDot : chain.state = .afterDot)
    (gap : List Separator)
    (more : gap.filter (· ≠ .blank) ≠ []) :
    gap.foldl (pass trie) chain = idle := by
  induction gap with
  | nil =>
      exact absurd rfl more
  | cons separator gap inductionHypothesis =>
      cases separator with
      | blank =>
          have unchanged : chain.pass trie .blank = chain := by
            simp [pass, blank, afterDot]
          rw [List.foldl_cons, unchanged]
          exact inductionHypothesis (by simpa using more)
      | dot =>
          have ended : chain.pass trie .dot = idle := by
            simp [pass, dot, afterDot]
          rw [List.foldl_cons, ended, foldl_pass_idle]
      | cut =>
          exact foldl_pass_idle gap

/-- A gap with one dot and blanks takes up the dot. -/
theorem foldl_pass_of_joins
    {chain : Chain}
    (inChain : chain.state = .segment ∨ chain.state = .afterSegment)
    (gap : List Separator)
    (joins : gap.filter (· ≠ .blank) = [.dot]) :
    gap.foldl (pass trie) chain = chain.dot trie := by
  induction gap generalizing chain with
  | nil =>
      cases joins
  | cons separator gap inductionHypothesis =>
      cases separator with
      | blank =>
          have passed :
              (chain.pass trie .blank).state = .afterSegment ∧
                (chain.pass trie .blank).dot trie = chain.dot trie := by
            rcases inChain with state | state <;> simp [pass, blank, dot, follow, isAlive, state]
          rw [List.foldl_cons, inductionHypothesis (.inr passed.1) (by simpa using joins),
            passed.2]
      | dot =>
          have afterDot : (chain.dot trie).state = .afterDot := by
            rcases inChain with state | state <;> simp [dot, state]
          exact foldl_pass_afterDot afterDot gap (by simpa using joins)
      | cut =>
          simp at joins

/-- A gap that does not join lets the next segment begin anew. -/
theorem isFresh_foldl_pass
    {chain : Chain}
    (gap : List Separator)
    (inChain : chain.state = .segment ∧ gap ≠ [] ∨ chain.state = .afterSegment)
    (separate : gap.filter (· ≠ .blank) ≠ [.dot]) :
    (gap.foldl (pass trie) chain).IsFresh := by
  induction gap generalizing chain with
  | nil =>
      rcases inChain with ⟨_, nonempty⟩ | state
      · exact absurd rfl nonempty
      · exact .inr state
  | cons separator gap inductionHypothesis =>
      cases separator with
      | blank =>
          have passed : (chain.pass trie .blank).state = .afterSegment := by
            rcases inChain with ⟨state, _⟩ | state <;> simp [pass, blank, state]
          exact inductionHypothesis (.inr passed) (by simpa using separate)
      | dot =>
          have afterDot : (chain.dot trie).state = .afterDot := by
            rcases inChain with ⟨state, _⟩ | state <;> simp [dot, state]
          rw [List.foldl_cons, pass,
            foldl_pass_afterDot_of_ne afterDot gap (by simpa using separate)]
          exact .inl rfl
      | cut =>
          rw [List.foldl_cons, pass, foldl_pass_idle]
          exact .inl rfl

end Gaps

end Chain

section Paths

variable {paths : List Text} {text : Text}

theorem BeginsPath.of_append
    (more : Text)
    (begins : BeginsPath paths (text ++ more)) :
    BeginsPath paths text := by
  obtain ⟨path, member, start⟩ := begins
  exact ⟨path, member, (List.prefix_append text more).trans start⟩

/-- A character is followed when it leads on to a path of the entries. -/
theorem Trie.step_ofList (entries : List Entry) (node : Trie.Node) (char : Char) :
    (Trie.ofList entries).step node char =
      if BeginsPath (entries.flatMap Entry.paths) (node ++ [char]) then node ++ [char]
      else Trie.root := by
  have reaches := Trie.reaches_ofList entries (node ++ [char])
  have begins :
      (Trie.ofList entries).Reaches (node ++ [char]) ↔
        BeginsPath (entries.flatMap Entry.paths) (node ++ [char]) := by
    rw [reaches]
    simp only [BeginsPath, List.mem_flatMap, ne_eq, List.append_eq_nil_iff, List.cons_ne_self,
      and_false, not_false_eq_true, true_and]
    constructor
    · rintro ⟨entry, memberEntry, path, memberPath, start⟩
      exact ⟨path, ⟨entry, memberEntry, memberPath⟩, start⟩
    · rintro ⟨path, ⟨entry, memberEntry, memberPath⟩, start⟩
      exact ⟨entry, memberEntry, path, memberPath, start⟩
  unfold Trie.Reaches at begins
  unfold Trie.step
  by_cases here : BeginsPath (entries.flatMap Entry.paths) (node ++ [char])
  · rw [if_pos (begins.mpr here), if_pos here]
  · rw [if_neg (mt begins.mp here), if_neg here]

theorem beginsPath_of_advanceWalk
    {walked? : Option Text}
    {segment path : Text}
    (nonempty : segment ≠ [])
    (walks : advanceWalk paths walked? segment = some path) :
    BeginsPath paths path ∧ path ≠ [] := by
  simp only [advanceWalk, Option.ite_none_right_eq_some, Option.some.injEq] at walks
  obtain ⟨begins, rfl⟩ := walks
  refine ⟨begins, ?_⟩
  split
  · exact nonempty
  · split
    · simp
    · exact nonempty

theorem walkOf_concat (segments : List Segment) (segment : Segment) :
    walkOf paths (segments ++ [segment]) =
      advanceWalk paths (walkOf paths segments) segment.text := by
  simp [walkOf]

theorem beginsPath_of_walkOf
    {segments : List Segment}
    {path : Text}
    (walks : walkOf paths segments = some path) :
    BeginsPath paths path ∧ path ≠ [] := by
  rcases List.eq_nil_or_concat segments with rfl | ⟨before, segment, rfl⟩
  · cases walks
  · rw [List.concat_eq_append, walkOf_concat] at walks
    exact beginsPath_of_advanceWalk segment.nonempty walks

end Paths

theorem Segment.dot_not_mem (segment : Segment) :
    '.' ∉ segment.text := by
  intro member
  have isIdentifier := segment.isIdentifier '.' member
  simp [Text.isIdentifierChar_dot] at isIdentifier

theorem Segment.joined_concat
    {segments : List Segment}
    (segment : Segment)
    (nonempty : segments ≠ []) :
    joined (segments ++ [segment]) = joined segments ++ '.' :: segment.text := by
  simp only [joined, List.map_append, List.map_cons, List.map_nil]
  rw [Text.joinWith_append ['.'] (by simpa using nonempty) (by simp)]
  simp [Text.joinWith]

/-- Follow a character, unless the node is the root. -/
def Trie.keep (trie : Trie) (node : Trie.Node) (char : Char) : Trie.Node :=
  if node = Trie.root then Trie.root else trie.step node char

/-- A walk that is on a path stays on it over a text or is back at the root. -/
theorem Trie.foldl_keep
    (entries : List Entry)
    (node : Trie.Node)
    (text : Text)
    (onPath : node = Trie.root ∨ BeginsPath (entries.flatMap Entry.paths) node) :
    text.foldl (Trie.ofList entries).keep node =
      if node ≠ Trie.root ∧ BeginsPath (entries.flatMap Entry.paths) (node ++ text) then
        node ++ text
      else Trie.root := by
  induction text generalizing node with
  | nil =>
      rcases onPath with rfl | begins
      · simp
      · by_cases atRoot : node = Trie.root <;> simp [atRoot, begins]
  | cons char rest inductionHypothesis =>
      rw [List.foldl_cons, Trie.keep, Trie.step_ofList]
      by_cases atRoot : node = Trie.root
      · simp [atRoot, inductionHypothesis Trie.root (.inl rfl)]
      · by_cases begins : BeginsPath (entries.flatMap Entry.paths) (node ++ [char])
        · simp only [atRoot, begins, ↓reduceIte, ne_eq, not_false_eq_true, true_and]
          rw [inductionHypothesis _ (.inr begins)]
          simp [Trie.root]
        -- Off the paths a walk stays at the root, and no longer text begins a path either.
        · have longer :
              ¬BeginsPath (entries.flatMap Entry.paths) (node ++ char :: rest) := by
            intro longer
            refine begins (BeginsPath.of_append rest ?_)
            simpa using longer
          simp [atRoot, begins, longer, inductionHypothesis Trie.root (.inl rfl)]

namespace Chain

section Reading

/-- Inside a segment, characters are added to the text and followed by the walk. -/
theorem foldl_identifier
    {chain : Chain}
    (trie : Trie)
    (position : Position)
    (text : Text)
    (inSegment : chain.state = .segment) :
    text.foldl (fun chain char => chain.identifier trie char position) chain =
      { chain with
        text := chain.text ++ text
        node := text.foldl trie.keep chain.node } := by
  induction text generalizing chain with
  | nil =>
      simp
  | cons char rest inductionHypothesis =>
      have stepped :
          chain.identifier trie char position =
            { chain with
              text := chain.text ++ [char]
              node := trie.keep chain.node char } := by
        by_cases atRoot : chain.node = Trie.root <;>
          simp [identifier, inSegment, follow, isAlive, Trie.keep, atRoot]
      rw [List.foldl_cons, stepped, inductionHypothesis (by exact inSegment)]
      simp

/-- The chain behind some segments of it. -/
def behind (entries : List Entry) (segments : List Segment) (consumed : Bool) : Chain where
  state := .segment
  start := (Segment.spanOf segments).start
  text := Segment.joined segments
  node := (walkOf (entries.flatMap Entry.paths) segments).getD Trie.root
  consumed := consumed

/-- A walk that begins at the root with a segment. -/
theorem foldl_keep_root
    (entries : List Entry)
    (char : Char)
    (rest : Text) :
    rest.foldl (Trie.ofList entries).keep ((Trie.ofList entries).step Trie.root char) =
      (advanceWalk (entries.flatMap Entry.paths) none (char :: rest)).getD Trie.root := by
  have onPath :
      (Trie.ofList entries).step Trie.root char = Trie.root ∨
        BeginsPath (entries.flatMap Entry.paths)
          ((Trie.ofList entries).step Trie.root char) := by
    rw [Trie.step_ofList]
    split
    · rename_i begins
      exact .inr begins
    · exact .inl rfl
  rw [Trie.foldl_keep entries _ rest onPath, Trie.step_ofList]
  simp only [advanceWalk, Trie.root, List.nil_append]
  by_cases begins : BeginsPath (entries.flatMap Entry.paths) [char]
  · by_cases longer : BeginsPath (entries.flatMap Entry.paths) (char :: rest) <;>
      simp [begins, longer]
  · have longer : ¬BeginsPath (entries.flatMap Entry.paths) (char :: rest) := fun longer =>
      begins (BeginsPath.of_append rest longer)
    simp [begins, longer]

theorem follow_eq_keep (chain : Chain) (trie : Trie) (char : Char) :
    chain.follow trie char = trie.keep chain.node char := by
  by_cases atRoot : chain.node = Trie.root <;> simp [follow, isAlive, Trie.keep, atRoot]

theorem keep_keep_dot
    (entries : List Entry)
    {walked : Text}
    (char : Char)
    (begins : BeginsPath (entries.flatMap Entry.paths) walked)
    (nonempty : walked ≠ []) :
    (Trie.ofList entries).keep ((Trie.ofList entries).keep walked '.') char =
      if BeginsPath (entries.flatMap Entry.paths) (walked ++ ['.', char]) then
        walked ++ ['.', char]
      else Trie.root := by
  have dotted :
      (Trie.ofList entries).keep ((Trie.ofList entries).keep walked '.') char =
        ['.', char].foldl (Trie.ofList entries).keep walked := rfl
  rw [dotted, Trie.foldl_keep entries walked _ (.inr begins)]
  simp [Trie.root, nonempty]

/-- A walk behind a dot goes on with a segment or begins anew with it. -/
theorem foldl_keep_dot
    (entries : List Entry)
    (walked? : Option Text)
    (char : Char)
    (rest : Text)
    (onPath :
      ∀ walked, walked? = some walked →
        BeginsPath (entries.flatMap Entry.paths) walked ∧ walked ≠ []) :
    rest.foldl (Trie.ofList entries).keep
        (let node :=
          (Trie.ofList entries).keep
            ((Trie.ofList entries).keep (walked?.getD Trie.root) '.') char
        if node = Trie.root then (Trie.ofList entries).step Trie.root char else node) =
      (advanceWalk (entries.flatMap Entry.paths) walked? (char :: rest)).getD Trie.root := by
  cases walked? with
  | none =>
      exact foldl_keep_root entries char rest
  | some walked =>
      obtain ⟨begins, nonempty⟩ := onPath walked rfl
      rw [Option.getD_some, keep_keep_dot entries char begins nonempty]
      -- The first character of the segment decides whether the walk goes on or begins anew.
      by_cases goesOn : BeginsPath (entries.flatMap Entry.paths) (walked ++ ['.', char])
      · have notRoot : walked ++ ['.', char] ≠ Trie.root := by
          simp [Trie.root]
        simp only [goesOn, notRoot, ↓reduceIte]
        rw [Trie.foldl_keep entries _ rest (.inr goesOn)]
        by_cases longer :
            BeginsPath (entries.flatMap Entry.paths) (walked ++ '.' :: char :: rest) <;>
          simp [advanceWalk, Trie.root, goesOn, longer]
      · simp only [goesOn, ↓reduceIte]
        rw [foldl_keep_root]
        simp [advanceWalk, goesOn]

/-- A segment that begins a chain is read from the root. -/
theorem read_of_isFresh
    (entries : List Entry)
    {chain : Chain}
    (segment : Segment)
    (fresh : chain.IsFresh) :
    chain.read (.ofList entries) segment = behind entries [segment] false := by
  obtain ⟨char, rest, shape⟩ := List.exists_cons_of_ne_nil segment.nonempty
  have first :
      chain.identifier (.ofList entries) char segment.start =
        ⟨.segment, segment.start, [char], (Trie.ofList entries).step Trie.root char, false⟩ := by
    rcases fresh with state | state <;> simp [identifier, state]
  rw [read, shape, List.foldl_cons, first, foldl_identifier _ _ _ rfl, foldl_keep_root]
  simp [behind, walkOf, Segment.joined, Segment.spanOf, Text.joinWith, shape]

/-- A segment that is joined by a dot takes the walk on. -/
theorem read_dot
    (entries : List Entry)
    {segments : List Segment}
    (segment : Segment)
    (consumed : Bool)
    (nonempty : segments ≠ []) :
    ((behind entries segments consumed).dot (.ofList entries)).read (.ofList entries) segment =
      behind entries (segments ++ [segment]) consumed := by
  obtain ⟨char, rest, shape⟩ := List.exists_cons_of_ne_nil segment.nonempty
  obtain ⟨walked?, walks⟩ :
      ∃ walked?, walkOf (entries.flatMap Entry.paths) segments = walked? := ⟨_, rfl⟩
  have onPath :
      ∀ walked, walked? = some walked →
        BeginsPath (entries.flatMap Entry.paths) walked ∧ walked ≠ [] :=
    fun walked same => beginsPath_of_walkOf (walks.trans same)
  rw [read, shape, List.foldl_cons, foldl_identifier _ _ _ (identifier_state ..)]
  have node :=
    foldl_keep_dot entries walked? char rest onPath
  have start :
      (Segment.spanOf (segments ++ [segment])).start = (Segment.spanOf segments).start := by
    cases segments with
    | nil =>
        exact absurd rfl nonempty
    | cons first others =>
        rfl
  have text := Segment.joined_concat segment nonempty
  simp only [behind, dot, identifier, followOrRestart, follow_eq_keep, walks, walkOf_concat,
    start, text, shape]
  simp only [node]
  simp

end Reading

end Chain

section Specification

variable {entries : List Entry} {scope : Scope} {preferred? : Option Origin} {flags : ItemFlags}

theorem isTerminal_ofList (entries : List Entry) (node : Trie.Node) :
    (Trie.ofList entries).isTerminal node = true ↔ node ∈ entries.flatMap Entry.paths := by
  rw [Trie.isTerminal, Trie.entriesAt_ofList]
  simp [List.mem_flatMap]

/-- Behind segments, the followed chain resolves as the segments do. -/
theorem Chain.resolved_behind (segments : List Segment) :
    (Chain.behind entries segments false).resolved ⟨.ofList entries, scope, preferred?⟩ flags
        (Segment.spanOf segments).stop =
      segmentReference? entries scope preferred? flags segments := by
  unfold Chain.resolved segmentReference?
  cases walks : walkOf (entries.flatMap Entry.paths) segments with
  | none =>
      simp [Chain.behind, Chain.isAlive, walks]
  | some path =>
      obtain ⟨_, nonempty⟩ := beginsPath_of_walkOf walks
      have node : (Chain.behind entries segments false).node = path := by
        simp [Chain.behind, walks]
      have alive : (Chain.behind entries segments false).isAlive = true := by
        simp [Chain.isAlive, node, Trie.root, nonempty]
      by_cases ends : path ∈ entries.flatMap Entry.paths
      · have terminal := (isTerminal_ofList entries path).mpr ends
        simp only [node, alive, terminal, ends, ↓reduceIte, Trie.entriesAt_ofList,
          List.contains_eq_mem, decide_true]
        rfl
      · have notTerminal := mt (isTerminal_ofList entries path).mp ends
        simp [node, ends, notTerminal]

theorem segmentReference?_single (segment : Segment) :
    segmentReference? entries scope preferred? flags [segment] = .ok none := by
  have absent : '.' ∉ Segment.joined [segment] := segment.dot_not_mem
  unfold segmentReference?
  rw [DottedReference.ofText?_of_not_mem absent]
  split
  · rfl
  · split <;> rfl

/-- A segment that does not join begins as it does behind nothing. -/
theorem Chain.followLinks_of_not_joins
    {link : Link}
    {links : List Link}
    (segments : List Segment)
    (consumed : Bool)
    (separate : link.joins = false)
    (apart : link.gap ≠ []) :
    (behind entries segments consumed).followLinks ⟨.ofList entries, scope, preferred?⟩ flags
        (link :: links) =
      idle.followLinks ⟨.ofList entries, scope, preferred?⟩ flags (link :: links) := by
  have fresh : (link.gap.foldl (pass (.ofList entries)) (behind entries segments consumed)).IsFresh :=
    isFresh_foldl_pass link.gap (.inl ⟨rfl, apart⟩) (by simpa [Link.joins] using separate)
  have freshIdle : idle.IsFresh := .inl rfl
  simp only [followLinks_cons, foldl_pass_idle, read_of_isFresh entries link.segment fresh,
    read_of_isFresh entries link.segment freshIdle]

/-- A segment that joins is read behind those before it. -/
theorem Chain.read_of_joins
    {link : Link}
    {segments : List Segment}
    (consumed : Bool)
    (joins : link.joins = true)
    (nonempty : segments ≠ []) :
    (link.gap.foldl (pass (.ofList entries)) (behind entries segments consumed)).read
        (.ofList entries) link.segment =
      behind entries (segments ++ [link.segment]) consumed := by
  rw [foldl_pass_of_joins (.inl rfl) link.gap (by simpa [Link.joins] using joins),
    read_dot entries link.segment consumed nonempty]

/-- The rest of a chain that has been reported yields nothing more. -/
theorem Chain.followLinks_consumed
    (segments : List Segment)
    (links : List Link)
    (nonempty : segments ≠ [])
    (apart : ∀ link ∈ links, link.gap ≠ []) :
    (behind entries segments true).followLinks ⟨.ofList entries, scope, preferred?⟩ flags links =
      idle.followLinks ⟨.ofList entries, scope, preferred?⟩ flags
        (links.dropWhile Link.joins) := by
  induction links generalizing segments with
  | nil =>
      rfl
  | cons link links inductionHypothesis =>
      obtain ⟨apartHere, apartLater⟩ := List.forall_mem_cons.mp apart
      cases joins : link.joins with
      | false =>
          simp only [List.dropWhile_cons, joins, Bool.false_eq_true, ↓reduceIte]
          exact followLinks_of_not_joins segments true joins apartHere
      | true =>
          simp only [List.dropWhile_cons, joins, ↓reduceIte]
          rw [followLinks_cons, read_of_joins true joins nonempty]
          have behindAll :=
            inductionHypothesis (segments ++ [link.segment]) (by simp) apartLater
          have quiet :
              (behind entries (segments ++ [link.segment]) true).resolved
                  ⟨.ofList entries, scope, preferred?⟩ flags link.segment.stop =
                .ok none := by
            simp [resolved, behind]
          simp only [quiet]
          rw [← behindAll]
          exact Except.map_toList_none _

/-- The references of links are those of the chain that goes on and of the chains behind it. -/
theorem Chain.followLinks_behind
    (segments : List Segment)
    (links : List Link)
    (nonempty : segments ≠ [])
    (apart : ∀ link ∈ links, link.gap ≠ []) :
    (behind entries segments false).followLinks ⟨.ofList entries, scope, preferred?⟩ flags links =
      let joined := (links.takeWhile Link.joins).map Link.segment
      let found :=
        (List.range' (segments.length + 1) joined.length).findSomeM? fun count =>
          segmentReference? entries scope preferred? flags ((segments ++ joined).take count)
      match found with
      | .error error => .error error
      | .ok found =>
          (idle.followLinks ⟨.ofList entries, scope, preferred?⟩ flags
            (links.dropWhile Link.joins)).map (found.toList ++ ·) := by
  induction links generalizing segments with
  | nil =>
      rfl
  | cons link links inductionHypothesis =>
      obtain ⟨apartHere, apartLater⟩ := List.forall_mem_cons.mp apart
      cases joins : link.joins with
      | false =>
          rw [followLinks_of_not_joins segments false joins apartHere]
          simp only [List.takeWhile_cons, List.dropWhile_cons, joins, Bool.false_eq_true,
            ↓reduceIte, List.map_nil, List.length_nil, List.range'_zero, List.findSomeM?_nil]
          exact (Except.map_toList_none _).symm
      | true =>
          obtain ⟨longer, longerShape⟩ :
              ∃ longer, segments ++ [link.segment] = longer := ⟨_, rfl⟩
          obtain ⟨joined, joinedShape⟩ :
              ∃ joined, (links.takeWhile Link.joins).map Link.segment = joined := ⟨_, rfl⟩
          have stop : link.segment.stop = (Segment.spanOf longer).stop := by
            simp [← longerShape, Segment.spanOf]
          have whole : segments ++ link.segment :: joined = longer ++ joined := by
            simp [← longerShape]
          have count : segments.length + 1 = longer.length := by
            simp [← longerShape]
          have longerNonempty : longer ≠ [] := by
            simp [← longerShape]
          have behindAll := inductionHypothesis longer longerNonempty apartLater
          rw [followLinks_cons, read_of_joins false joins nonempty]
          simp only [List.takeWhile_cons, List.dropWhile_cons, joins, ↓reduceIte, List.map_cons,
            List.length_cons, List.range'_succ, List.findSomeM?_cons, joinedShape, whole,
            longerShape, stop, resolved_behind, count, List.take_left] at behindAll ⊢
          -- A chain is read on until it stands for a reference, and is consumed from then on.
          cases segmentReference? entries scope preferred? flags longer with
          | error error =>
              rfl
          | ok found =>
              cases found with
              | none =>
                  exact (Except.map_toList_none _).trans behindAll
              | some reference =>
                  exact congrArg (Except.map (reference :: ·))
                    (followLinks_consumed longer links longerNonempty apartLater)

/-- The first chain of links, and the chains behind it. -/
theorem chainReferences_cons
    (chain : List Segment)
    (chains : List (List Segment)) :
    chainReferences entries scope preferred? flags (chain :: chains) =
      match chainReference? entries scope preferred? flags chain with
      | .error error => .error error
      | .ok found =>
          (chainReferences entries scope preferred? flags chains).map (found.toList ++ ·) := by
  unfold chainReferences
  rw [List.mapM_cons]
  cases chainReference? entries scope preferred? flags chain with
  | error error =>
      rfl
  | ok found =>
      show Except.map _ (chains.mapM _ >>= _) = _
      cases chains.mapM (chainReference? entries scope preferred? flags) <;>
        cases found <;> rfl

/-- The references of links are those of their chains. -/
theorem Chain.followLinks_eq_chainReferences
    (links : List Link)
    (apart : ∀ link ∈ links.tail, link.gap ≠ []) :
    idle.followLinks ⟨.ofList entries, scope, preferred?⟩ flags links =
      chainReferences entries scope preferred? flags (chainsOf links) := by
  fun_induction chainsOf links with
  | case1 =>
      rfl
  | case2 link links inductionHypothesis =>
      have freshIdle : idle.IsFresh := .inl rfl
      have apartBehind : ∀ other ∈ (links.dropWhile Link.joins).tail, other.gap ≠ [] :=
        fun other member =>
          apart other ((List.dropWhile_suffix _).subset (List.mem_of_mem_tail member))
      have single := @Chain.resolved_behind entries scope preferred? flags [link.segment]
      rw [segmentReference?_single] at single
      have stop : (Segment.spanOf [link.segment]).stop = link.segment.stop := rfl
      rw [followLinks_cons, foldl_pass_idle, read_of_isFresh entries link.segment freshIdle,
        ← stop, chainReferences_cons, ← inductionHypothesis apartBehind]
      simp only [single]
      refine (Except.map_toList_none _).trans ?_
      exact followLinks_behind [link.segment] links (by simp) apart

end Specification

/-- Following the trie character by character finds the references of the chains. -/
theorem Dialect.references_eq_chainReferences
    (dialect : Dialect)
    (entries : List Entry)
    (scope : Scope)
    (preferred? : Option Origin)
    (flags : ItemFlags)
    (anchor : Position)
    (block : Text) :
    dialect.references ⟨.ofList entries, scope, preferred?⟩ flags anchor block =
      chainReferences entries scope preferred? flags (dialect.chains anchor block) := by
  have foretold : Foretells (dialect.events anchor block) :=
    (dialect.run_events anchor block).foretells
  rw [references, Chain.referencesOfEvents_eq_followLinks .idle _ foretold]
  exact Chain.followLinks_eq_chainReferences _ fun link => gap_ne_nil_of_mem_tail _

/-- The references that are found in a block are those of its chains, in which a walk goes
from segment to segment. -/
theorem findReferences_eq_chainReferences
    (dialect : Dialect)
    (entries : List Entry)
    (scope : Scope)
    (preferred? : Option Origin)
    (flags : ItemFlags)
    (anchor : Position)
    (block : Text) :
    findReferences dialect ⟨.ofList entries, scope, preferred?⟩ flags anchor block =
      match anchor.asAnchor with
      | .error error => .error (.anchor error)
      | .ok start =>
          (chainReferences entries scope preferred? flags (dialect.chains start block)).mapError
            .scope := by
  unfold findReferences
  cases anchor.asAnchor with
  | error error =>
      rfl
  | ok start =>
      simp only [Dialect.references_eq_chainReferences]

end LocalizationScan
