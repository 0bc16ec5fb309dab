import LocalizationScan.Proofs.Literal.Marks
import LocalizationScan.Proofs.Reference.Following
import LocalizationScan.Proofs.Scan.StatementBreaks

namespace LocalizationScan

/-!
# Searches over a statement break

The searches for literals and references remember what they have met: a marker
comment in front of a string, the chain that may go on, and the walk of that
chain.  A statement break makes them forget it.  So the items of a block that
ends in code, a statement break and more code are those of the block and those
of the code behind the break, each found on its own.
-/

section Literals

variable {dialect : Dialect} {flags : ItemFlags}

/-- Behind a statement break no marker is pending. -/
theorem BreaksOff.exists_literalsOfEvents_eq
    {later events whole : List Event}
    (broken : BreaksOff later events whole)
    (state : MarkerState) :
    ∃ captured,
      literalsOfEvents dialect flags state whole =
        literalsOfEvents dialect flags state events ++
          literalsOfEvents dialect flags ⟨false, captured⟩ later := by
  induction broken generalizing state with
  | blank | statement | comment =>
      exact ⟨state.captured, rfl⟩
  | cons _ inductionHypothesis =>
      obtain ⟨captured, same⟩ := inductionHypothesis (state.next dialect.marker? _)
      refine ⟨captured, ?_⟩
      rw [literalsOfEvents, same, literalsOfEvents, List.append_assoc]

/-- A control in which no string is open and none waits. -/
def Control.HasNoString (control : Control) : Prop :=
  (∀ kind token, control.mode ≠ .inString kind token) ∧ control.holes = []

/-- A move in which no string is open opens one, or it leaves alone what is remembered of
earlier strings. -/
theorem Move.opensString_or_keeps
    {before : Option Char}
    {position : Position}
    {piece rest : Text}
    {control next : Control}
    {events : List Event}
    (move : Move dialect before position piece rest control events next)
    (noString : control.HasNoString)
    (pending : Bool) :
    (∃ kind, events = [.stringOpened kind position]) ∨
      next.HasNoString ∧
        ∃ pendingNext, ∀ captured later,
          literalsOfEvents dialect flags ⟨pending, captured⟩ (events ++ later) =
            literalsOfEvents dialect flags ⟨pendingNext, captured⟩ later := by
  obtain ⟨notOpen, noHoles⟩ := noString
  cases move with
  | openString =>
      exact .inl ⟨_, rfl⟩
  | @code char =>
      refine .inr ⟨⟨notOpen, noHoles⟩, pending && Text.isBlank char, ?_⟩
      intro captured later
      cases isBlank : Text.isBlank char <;>
        simp [literalsOfEvents, Event.literal?, MarkerState.next, isBlank]
  | lineComment =>
      exact .inr ⟨⟨notOpen, noHoles⟩, false, fun _ _ => rfl⟩
  | continuation | commentText =>
      exact .inr ⟨⟨notOpen, noHoles⟩, pending, fun _ _ => rfl⟩
  | openComment =>
      exact .inr ⟨⟨by simp, noHoles⟩, pending, fun _ _ => rfl⟩
  | closeComment =>
      exact .inr ⟨⟨by simp, noHoles⟩, _, fun _ _ => rfl⟩
  | openBrace | closeBrace | closeHole =>
      cases noHoles
  | stringText | closeString | abandon | openHole =>
      exact absurd rfl (notOpen _ _)

/-- Whether an earlier string was marked matters no more: the next one begins anew. -/
theorem Run.literalsOfEvents_eq
    {anchor : Position}
    {control : Control}
    {done rest : Text}
    {events : List Event}
    (run : Run dialect anchor control done rest events)
    (noString : control.HasNoString)
    (pending captured other : Bool) :
    literalsOfEvents dialect flags ⟨pending, captured⟩ events =
      literalsOfEvents dialect flags ⟨pending, other⟩ events := by
  induction run generalizing pending with
  | finished =>
      rfl
  | move _ here _ inductionHypothesis =>
      rcases @Move.opensString_or_keeps dialect flags _ _ _ _ _ _ _ here noString pending with
          ⟨kind, rfl⟩ | ⟨nextNoString, pendingNext, same⟩
      · rfl
      · rw [same, same, inductionHypothesis nextNoString]

/-- The literals of a block that ends in code, a statement break and more code. -/
theorem Dialect.literals_statementBreak
    {anchor : Position}
    {block : Text}
    (ends : dialect.finalState? anchor block = some .code)
    (later : Text) :
    dialect.literals flags anchor (block ++ statementBreak ++ later) =
      dialect.literals flags anchor block ++
        dialect.literals flags (anchor.advanceOver (block ++ statementBreak)) later := by
  obtain ⟨captured, same⟩ :=
    @BreaksOff.exists_literalsOfEvents_eq dialect flags _ _ _ (breaksOff ends later) .initial
  have noString : Control.initial.HasNoString := ⟨nofun, rfl⟩
  have anew :=
    @Run.literalsOfEvents_eq dialect flags _ _ _ _ _
      (dialect.run_events (anchor.advanceOver (block ++ statementBreak)) later)
      noString false captured false
  simp only [literalsOfEvents_normalized] at same
  rw [literals, same, anew]
  rfl

end Literals

section References

variable {dialect : Dialect} {context : ResolveContext} {flags : ItemFlags}

/-- A chain asks about the next character only to learn whether an identifier goes on. -/
theorem Chain.next_normalized
    (chain : Chain)
    (context : ResolveContext)
    (flags : ItemFlags)
    (event : Event) :
    chain.next context flags event.normalized = chain.next context flags event := by
  cases event with
  | code char position next =>
      by_cases isIdentifier : Text.isIdentifierChar char = true
      · have same :
            (next.filter Text.isIdentifierChar).any Text.isIdentifierChar =
              next.any Text.isIdentifierChar := by
          cases next with
          | none => rfl
          | some following => cases known : Text.isIdentifierChar following <;> simp [known]
        simp only [Event.normalized, Chain.next, code, isIdentifier, ↓reduceIte, same]
      · simp [Event.normalized, Chain.next, code, isIdentifier]
  | _ =>
      rfl

theorem referencesOfEvents_normalized
    (chain : Chain)
    (events : List Event) :
    referencesOfEvents context flags chain (events.map Event.normalized) =
      referencesOfEvents context flags chain events := by
  induction events generalizing chain with
  | nil =>
      rfl
  | cons event rest inductionHypothesis =>
      simp only [List.map_cons, referencesOfEvents, Chain.next_normalized, inductionHypothesis]

/-- Behind a statement break no chain is going on. -/
theorem BreaksOff.referencesOfEvents_eq
    {later events whole : List Event}
    (broken : BreaksOff later events whole)
    (chain : Chain) :
    referencesOfEvents context flags chain whole = do
      let first ← referencesOfEvents context flags chain events
      let second ← referencesOfEvents context flags .idle later
      return first ++ second := by
  have blank :
      ∀ chain position,
        Chain.next chain context flags (.code ' ' position none) = .ok (chain.blank, none) :=
    fun _ _ => rfl
  have semicolon :
      ∀ chain position,
        Chain.next chain context flags (.code ';' position none) = .ok (.idle, none) :=
    fun _ _ => rfl
  have feed :
      ∀ position,
        Chain.next .idle context flags (.code '\n' position none) = .ok (.idle, none) :=
    fun _ => rfl
  induction broken generalizing chain with
  | blank =>
      rw [Chain.referencesOfEvents_of_quiet _ (blank _ _),
        Chain.referencesOfEvents_of_quiet _ (semicolon _ _),
        Chain.referencesOfEvents_of_quiet _ (feed _)]
      exact (bind_pure _).symm
  | statement =>
      rw [Chain.referencesOfEvents_of_quiet _ (semicolon _ _),
        Chain.referencesOfEvents_of_quiet _ (feed _)]
      exact (bind_pure _).symm
  | comment =>
      have comment : chain.next context flags .lineComment = .ok (.idle, none) := rfl
      rw [Chain.referencesOfEvents_of_quiet _ comment,
        Chain.referencesOfEvents_of_quiet _ comment,
        Chain.referencesOfEvents_of_quiet _ (feed _)]
      exact (bind_pure _).symm
  | cons _ inductionHypothesis =>
      simp only [referencesOfEvents, inductionHypothesis, bind_assoc, pure_bind,
        List.append_assoc]

/-- The references of a block that ends in code, a statement break and more code. -/
theorem Dialect.references_statementBreak
    {anchor : Position}
    {block : Text}
    (ends : dialect.finalState? anchor block = some .code)
    (later : Text) :
    dialect.references context flags anchor (block ++ statementBreak ++ later) = do
      let first ← dialect.references context flags anchor block
      let second ←
        dialect.references context flags (anchor.advanceOver (block ++ statementBreak)) later
      return first ++ second := by
  have same :=
    @BreaksOff.referencesOfEvents_eq context flags _ _ _ (breaksOff ends later) .idle
  simp only [referencesOfEvents_normalized] at same
  exact same

end References

/-- When a block ends in code, the searches of the block with a statement break and more
code behind it find what those of the block find, and then what those of the code behind the
break find on their own.  The first error ends each search. -/
theorem searches_statementBreak
    (dialect : Dialect)
    (context : ResolveContext)
    (flags : ItemFlags)
    (anchor : Position)
    (block later : Text)
    (ends : dialect.finalState? anchor block = some .code) :
    let anchorLater := anchor.advanceOver (block ++ statementBreak)
    (findLiterals dialect flags anchor (block ++ statementBreak ++ later) = do
      let first ← findLiterals dialect flags anchor block
      let second ← findLiterals dialect flags anchorLater later
      return first ++ second) ∧
    findReferences dialect context flags anchor (block ++ statementBreak ++ later) = do
      let first ← findReferences dialect context flags anchor block
      let second ← findReferences dialect context flags anchorLater later
      return first ++ second := by
  intro anchorLater
  cases valid : anchor.asAnchor with
  | error error =>
      simp only [findLiterals, findReferences, valid]
      exact ⟨rfl, rfl⟩
  | ok position =>
      obtain ⟨rfl, validLater⟩ :=
        Position.asAnchor_advanceOver valid (block ++ statementBreak)
      simp only [findLiterals, findReferences, valid, validLater, anchorLater, Except.map]
      rw [Dialect.literals_statementBreak ends, Dialect.references_statementBreak ends]
      refine ⟨rfl, ?_⟩
      cases dialect.references context flags position block with
      | error error =>
          rfl
      | ok first =>
          cases dialect.references context flags
              (position.advanceOver (block ++ statementBreak)) later with
          | error error => rfl
          | ok second => rfl

/-- A marker at the end of a block marks no literal of the next line, and a chain that ends
with a dot does not go on there. -/
theorem searches_statementBreak_marker :
    let dialect : Dialect := .csharp "/**/".toList
    let entry : Entry := ⟨['K'], ['V'], ⟨[], ['R'], none, []⟩⟩
    let context : ResolveContext := ⟨.ofList [entry], ⟨[], []⟩, none⟩
    let block := "R.K+R./**/".toList
    let later := "K+\"x\"+R.K".toList
    let reference (span : Span) : Reference :=
      ⟨"R.K".toList, "R.K".toList, ['K'], ['V'], entry.origin, span, .none⟩
    dialect.finalState? .start block = some .code ∧
      findLiterals dialect .none .start (block ++ statementBreak ++ later) =
        .ok [⟨"\"x\"".toList, ['x'], ⟨⟨2, 3, 15⟩, ⟨2, 6, 18⟩⟩, false, .none⟩] ∧
      findReferences dialect context .none .start (block ++ statementBreak ++ later) =
        .ok
          [reference ⟨⟨1, 1, 0⟩, ⟨1, 4, 3⟩⟩,
            reference ⟨⟨2, 7, 19⟩, ⟨2, 10, 22⟩⟩] := by
  intro dialect entry context block later reference
  have ends :
      dialect.finalState? .start block = some .code ∧
        Position.start.advanceOver (block ++ statementBreak) = ⟨2, 1, 13⟩ := by
    simp only [dialect, block]
    cbv
  have foundLiterals :
      findLiterals dialect .none .start block = .ok [] ∧
        findLiterals dialect .none ⟨2, 1, 13⟩ later =
          .ok [⟨"\"x\"".toList, ['x'], ⟨⟨2, 3, 15⟩, ⟨2, 6, 18⟩⟩, false, .none⟩] := by
    simp only [dialect, block, later]
    cbv
  have foundReferences :
      findReferences dialect context .none .start block =
          .ok [reference ⟨⟨1, 1, 0⟩, ⟨1, 4, 3⟩⟩] ∧
        findReferences dialect context .none ⟨2, 1, 13⟩ later =
          .ok [reference ⟨⟨2, 7, 19⟩, ⟨2, 10, 22⟩⟩] := by
    simp only [dialect, block, later, context, reference, entry]
    cbv
  obtain ⟨literals, references⟩ :=
    searches_statementBreak dialect context .none .start block later ends.1
  rw [ends.2, foundLiterals.1, foundLiterals.2] at literals
  rw [ends.2, foundReferences.1, foundReferences.2] at references
  exact ⟨ends.1, literals, references⟩

end LocalizationScan
