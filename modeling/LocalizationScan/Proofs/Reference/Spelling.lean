import LocalizationScan.Proofs.Reference.Dotted
import LocalizationScan.Proofs.Reference.Following
import LocalizationScan.Proofs.Results
import LocalizationScan.Proofs.Scan.Comments
import LocalizationScan.Proofs.Scan.Coverage

namespace LocalizationScan

/-!
# How chains are spelled

The text of a chain leaves out what stands around its dots.  The source between
the start and the end of a chain is made up of the text of the chain and of
white space, closed comments and line continuations, and of nothing else.
-/

/-- A piece of source inside a chain, and what of it belongs to the text of the chain. -/
inductive IsSpelling (dialect : Dialect) : (piece kept : Text) → Prop where
  | identifier
      {char : Char}
      (isIdentifier : Text.isIdentifierChar char = true) :
      IsSpelling dialect [char] [char]
  | dot :
      IsSpelling dialect ['.'] ['.']
  | blank
      {char : Char}
      (isBlank : Text.isBlank char = true) :
      IsSpelling dialect [char] []
  | comment
      {marker body : Text}
      (csharp : dialect = .csharp marker)
      (isBody : CSharp.IsCommentBody body) :
      IsSpelling dialect ('/' :: '*' :: body ++ ['*', '/']) []
  | continuation
      {piece : Text}
      (visualBasic : dialect = .visualBasic)
      (continued : VisualBasic.IsContinuation piece) :
      IsSpelling dialect piece []

/-- A slice of source that spells the text of a chain. -/
inductive Spells (dialect : Dialect) : (slice text : Text) → Prop where
  | nil :
      Spells dialect [] []
  | concat
      {slice text piece kept : Text}
      (front : Spells dialect slice text)
      (spelling : IsSpelling dialect piece kept) :
      Spells dialect (slice ++ piece) (text ++ kept)

/-- Whether a reference spans a slice that spells its text. -/
def Reference.IsSpelled
    (dialect : Dialect)
    (anchor : Position)
    (content : Text)
    (reference : Reference) :
    Prop :=
  ∃ slice,
    reference.span.Covers anchor content slice ∧ Spells dialect slice reference.originalText

namespace Chain

variable {dialect : Dialect} {anchor : Position} {context : ResolveContext} {flags : ItemFlags}
  {chain : Chain} {done : Text}

/-- A chain, if there is one, that reaches from its start to the end of what is done. -/
def IsTracedTo (dialect : Dialect) (anchor : Position) (done : Text) (chain : Chain) : Prop :=
  chain.state = .idle ∨
    ∃ before slice,
      done = before ++ slice ∧ chain.start = anchor.advanceOver before ∧
        Spells dialect slice chain.text

/-- A chain grows by what is spelled behind it. -/
theorem IsTracedTo.concat
    {longer : Chain}
    {piece kept : Text}
    (traced : chain.IsTracedTo dialect anchor done)
    (inChain : chain.state ≠ .idle)
    (start : longer.start = chain.start)
    (text : longer.text = chain.text ++ kept)
    (spelling : IsSpelling dialect piece kept) :
    longer.IsTracedTo dialect anchor (done ++ piece) := by
  obtain ⟨before, slice, rfl, chainStart, spells⟩ := traced.resolve_left inChain
  refine .inr ⟨before, slice ++ piece, by simp, start.trans chainStart, ?_⟩
  rw [text]
  exact spells.concat spelling

theorem IsTracedTo.identifier
    {char : Char}
    (traced : chain.IsTracedTo dialect anchor done)
    (trie : Trie)
    (isIdentifier : Text.isIdentifierChar char = true) :
    (chain.identifier trie char (anchor.advanceOver done)).IsTracedTo dialect anchor
      (done ++ [char]) := by
  have begins : Spells dialect [char] [char] := Spells.nil.concat (.identifier isIdentifier)
  cases state : chain.state with
  | idle | afterSegment =>
      simp only [Chain.identifier, state]
      exact .inr ⟨done, [char], rfl, rfl, begins⟩
  | segment | afterDot =>
      simp only [Chain.identifier, state]
      exact traced.concat (by simp [state]) rfl rfl (.identifier isIdentifier)

theorem IsTracedTo.dot
    (traced : chain.IsTracedTo dialect anchor done)
    (trie : Trie) :
    (chain.dot trie).IsTracedTo dialect anchor (done ++ ['.']) := by
  cases state : chain.state with
  | idle | afterDot =>
      simp only [Chain.dot, state]
      exact .inl rfl
  | segment | afterSegment =>
      simp only [Chain.dot, state]
      exact traced.concat (by simp [state]) rfl rfl .dot

theorem IsTracedTo.blank
    {piece : Text}
    (traced : chain.IsTracedTo dialect anchor done)
    (spelling : IsSpelling dialect piece []) :
    chain.blank.IsTracedTo dialect anchor (done ++ piece) := by
  cases state : chain.state with
  | idle =>
      simp only [Chain.blank, state]
      exact .inl state
  | segment | afterSegment | afterDot =>
      simp only [Chain.blank, state]
      exact traced.concat (by simp [state]) rfl (by simp) spelling

/-- A resolved chain is reported with its text and its start. -/
theorem eq_of_resolved
    {stop : Position}
    {reference : Reference}
    (resolved : chain.resolved context flags stop = .ok (some reference)) :
    reference.originalText = chain.text ∧ reference.span = ⟨chain.start, stop⟩ := by
  unfold Chain.resolved at resolved
  split at resolved
  · cases resolved
  · split at resolved
    · cases resolved
    · rename_i dotted cut
      obtain ⟨entry, _, rfl⟩ := exists_of_map_eq_ok_some resolved
      exact ⟨DottedReference.toText_of_ofText? cut, rfl⟩

/-- The chain behind a character of code, and the reference that it completes, reach to the
end of that character. -/
theorem IsTracedTo.code
    {char : Char}
    {following : Option Char}
    {after : Chain}
    {found : Option Reference}
    (traced : chain.IsTracedTo dialect anchor done)
    (taken :
      chain.code context flags char (anchor.advanceOver done) following = .ok (after, found)) :
    after.IsTracedTo dialect anchor (done ++ [char]) ∧
      ∀ reference ∈ found, reference.IsSpelled dialect anchor (done ++ [char]) := by
  unfold Chain.code at taken
  by_cases isIdentifier : Text.isIdentifierChar char = true
  · simp only [isIdentifier, ↓reduceIte] at taken
    have longer := traced.identifier context.trie isIdentifier
    split at taken
    · cases taken
      exact ⟨longer, fun reference member => by cases member⟩
    · obtain ⟨reported, resolved, same⟩ := Except.exists_of_bind_eq_ok taken
      cases same
      refine ⟨longer, fun reference member => ?_⟩
      cases member
      obtain ⟨text, span⟩ := eq_of_resolved resolved
      have inChain :
          (chain.identifier context.trie char (anchor.advanceOver done)).state ≠ .idle := by
        rw [identifier_state]
        simp
      obtain ⟨before, slice, shape, start, spells⟩ := longer.resolve_left inChain
      refine ⟨slice, ⟨before, [], by simp [shape], ?_⟩, ?_⟩
      · rw [span, start, ← shape, Position.advanceOver_append]
        rfl
      · rw [text]
        exact spells
  · simp only [isIdentifier, Bool.false_eq_true, ↓reduceIte] at taken
    split at taken
    · rename_i isDot
      cases taken
      subst isDot
      exact ⟨traced.dot context.trie, fun reference member => by cases member⟩
    · split at taken
      · rename_i isBlank
        cases taken
        exact ⟨traced.blank (.blank isBlank), fun reference member => by cases member⟩
      · cases taken
        exact ⟨.inl rfl, fun reference member => by cases member⟩

/-- How far a chain reaches while a scan stands between two parts of a block: to the end of
what is done in code, to the start of an open comment, and nowhere in a string. -/
def IsTraced
    (dialect : Dialect)
    (anchor : Position)
    (control : Control)
    (done rest : Text)
    (chain : Chain) :
    Prop :=
  match control.mode with
  | .resting => chain.IsTracedTo dialect anchor done
  | .inString _ _ => chain.state = .idle
  | .inComment _ =>
      ∃ marker front body,
        dialect = .csharp marker ∧ done = front ++ '/' :: '*' :: body ∧
          CSharp.IsCommentBody (body ++ rest.take 1) ∧ chain.IsTracedTo dialect anchor front

/-- Events that a chain takes up, with the references that they complete. -/
inductive Takes (context : ResolveContext) (flags : ItemFlags) :
    Chain → List Event → List Reference → Chain → Prop where
  | nil
      {chain : Chain} :
      Takes context flags chain [] [] chain
  | cons
      {chain between after : Chain}
      {event : Event}
      {events : List Event}
      {found : Option Reference}
      {later : List Reference}
      (taken : chain.next context flags event = .ok (between, found))
      (behind : Takes context flags between events later after) :
      Takes context flags chain (event :: events) (found.toList ++ later) after

/-- A search that succeeds takes up the events in front and goes on behind them. -/
theorem exists_takes
    {events later : List Event}
    {items : List Reference}
    (searched : referencesOfEvents context flags chain (events ++ later) = .ok items) :
    ∃ after reported others,
      Takes context flags chain events reported after ∧
        referencesOfEvents context flags after later = .ok others ∧
        items = reported ++ others := by
  induction events generalizing chain items with
  | nil =>
      exact ⟨chain, [], items, .nil, searched, rfl⟩
  | cons event events inductionHypothesis =>
      rw [List.cons_append, referencesOfEvents] at searched
      obtain ⟨⟨between, found⟩, taken, searched⟩ := Except.exists_of_bind_eq_ok searched
      obtain ⟨others, searchedRest, same⟩ := Except.exists_of_bind_eq_ok searched
      cases same
      obtain ⟨after, reported, last, takes, searchedLater, rfl⟩ :=
        inductionHypothesis searchedRest
      exact ⟨after, found.toList ++ reported, last, .cons taken takes, searchedLater,
        by simp⟩

/-- A move takes a chain along, and what it reports reaches to the end of its piece. -/
theorem IsTraced.move
    {control next : Control}
    {piece later : Text}
    {events : List Event}
    {reported : List Reference}
    {after : Chain}
    (traced : chain.IsTraced dialect anchor control done (piece ++ later))
    (move :
      Move dialect done.getLast? (anchor.advanceOver done) piece later control events next)
    (takes : Takes context flags chain events reported after) :
    after.IsTraced dialect anchor next (done ++ piece) later ∧
      ∀ reference ∈ reported, reference.IsSpelled dialect anchor (done ++ piece) := by
  cases move with
  | code | openBrace | closeBrace =>
      cases takes with
      | cons taken behind =>
          cases behind
          obtain ⟨tracedAfter, spelled⟩ := IsTracedTo.code traced taken
          exact ⟨tracedAfter, fun reference member => spelled reference (by simpa using member)⟩
  | lineComment =>
      cases takes with
      | cons taken behind =>
          cases behind
          cases taken
          exact ⟨.inl rfl, fun reference member => by cases member⟩
  | openString | closeHole =>
      cases takes with
      | cons taken behind =>
          cases behind
          cases taken
          exact ⟨rfl, fun reference member => by cases member⟩
  | openComment csharp =>
      cases takes with
      | cons taken behind =>
          cases behind
          cases taken
          have noEnd : CSharp.IsCommentBody ([] ++ later.take 1) := by
            intro holdsEnd
            have short : 2 ≤ ([] ++ later.take 1).length := holdsEnd.length_le
            rw [List.nil_append, List.length_take] at short
            omega
          exact ⟨⟨_, done, [], csharp, rfl, noEnd, traced⟩,
            fun reference member => by cases member⟩
  | continuation visualBasic continued =>
      cases takes with
      | cons taken behind =>
          cases behind
          cases taken
          exact ⟨IsTracedTo.blank traced (.continuation visualBasic continued),
            fun reference member => by cases member⟩
  | stringText =>
      cases takes
      exact ⟨traced, fun reference member => by cases member⟩
  | openHole =>
      cases takes
      exact ⟨.inl traced, fun reference member => by cases member⟩
  | closeString =>
      cases takes with
      | cons taken behind =>
          cases behind
          cases taken
          exact ⟨.inl traced, fun reference member => by cases member⟩
  | abandon =>
      cases takes with
      | cons dropped behind =>
          cases dropped
          cases behind with
          | cons taken behind =>
              cases behind
              -- The opening of the string has ended the chain, so the character can only begin one.
              have tracedTo : chain.IsTracedTo dialect anchor done := .inl traced
              obtain ⟨tracedAfter, spelled⟩ := tracedTo.code taken
              exact ⟨tracedAfter,
                fun reference member => spelled reference (by simpa using member)⟩
  | commentText stays =>
      cases takes
      obtain ⟨marker, front, body, rfl, rfl, isBody, tracedFront⟩ := traced
      exact ⟨⟨marker, front, body ++ [_], rfl, by simp, CSharp.isCommentBody_concat isBody stays,
          tracedFront⟩,
        fun reference member => by cases member⟩
  | closeComment csharp =>
      cases takes with
      | cons taken behind =>
          cases behind
          cases taken
          obtain ⟨marker, front, body, _, rfl, isBody, tracedFront⟩ := traced
          have complete : CSharp.IsCommentBody body := fun holdsEnd =>
            isBody (holdsEnd.trans (List.prefix_append _ _).isInfix)
          have shape :
              front ++ '/' :: '*' :: body ++ ['*', '/'] =
                front ++ ('/' :: '*' :: body ++ ['*', '/']) := by
            simp
          rw [shape]
          exact ⟨tracedFront.blank (.comment csharp complete),
            fun reference member => by cases member⟩

/-- Every reference among the events of a run spans a slice that spells it. -/
theorem isSpelled_of_run
    {control : Control}
    {rest : Text}
    {events : List Event}
    {items : List Reference}
    (run : Run dialect anchor control done rest events)
    (traced : chain.IsTraced dialect anchor control done rest)
    (searched : referencesOfEvents context flags chain events = .ok items)
    (reference : Reference)
    (member : reference ∈ items) :
    reference.IsSpelled dialect anchor (done ++ rest) := by
  induction run generalizing chain items with
  | finished =>
      cases searched
      cases member
  | @move _ _ done piece later _ _ nonempty here behind inductionHypothesis =>
      obtain ⟨after, reported, others, takes, searchedLater, rfl⟩ := exists_takes searched
      obtain ⟨tracedAfter, spelled⟩ := traced.move here takes
      rcases List.mem_append.mp member with memberHere | memberLater
      · obtain ⟨slice, covers, spells⟩ := spelled reference memberHere
        refine ⟨slice, ?_, spells⟩
        have whole := Span.Covers.within [] later covers
        simpa using whole
      · rw [← List.append_assoc]
        exact inductionHypothesis tracedAfter searchedLater memberLater

end Chain

end LocalizationScan
