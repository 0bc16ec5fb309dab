import Mathlib
import LocalizationScan.Proofs.Reference.Following
import LocalizationScan.Proofs.Scan.Relocation

namespace LocalizationScan

/-!
# Searches at other places

What is found in a block does not depend on where the block sits in its file,
save for the positions.  A search at an anchor finds what it finds in the block
as a file of its own, moved to the anchor, and it fails for the same reason.
-/

variable {anchor : Position}

section Literals

variable {dialect : Dialect} {flags : ItemFlags}

def Literal.relocate (anchor : Position) (literal : Literal) : Literal :=
  { literal with span := literal.span.relocate anchor }

@[simp]
theorem Literal.offset_relocate (anchor : Position) (literal : Literal) :
    (literal.relocate anchor).offset = literal.offset + anchor.offset := rfl

@[simp]
theorem Literal.length_relocate (anchor : Position) (literal : Literal) :
    (literal.relocate anchor).length = literal.length :=
  Span.length_relocate anchor literal.span

@[simp]
theorem MarkerState.next_relocate
    (marker? : Option Text)
    (state : MarkerState)
    (anchor : Position)
    (event : Event) :
    state.next marker? (event.relocate anchor) = state.next marker? event := by
  cases event <;> rfl

theorem Event.literal?_relocate
    (anchor : Position)
    (state : MarkerState)
    (event : Event) :
    (event.relocate anchor).literal? dialect flags state =
      (event.literal? dialect flags state).map (Literal.relocate anchor) := by
  cases event with
  | stringClosed token =>
      cases reported : token.emit <;>
        simp [Event.relocate, literal?, StringToken.relocate, reported, Literal.ofToken,
          Literal.relocate]
  | _ =>
      rfl

theorem literalsOfEvents_relocate
    (anchor : Position)
    (state : MarkerState)
    (events : List Event) :
    literalsOfEvents dialect flags state (events.map (Event.relocate anchor)) =
      (literalsOfEvents dialect flags state events).map (Literal.relocate anchor) := by
  induction events generalizing state with
  | nil =>
      rfl
  | cons event rest inductionHypothesis =>
      simp only [List.map_cons, literalsOfEvents, Event.literal?_relocate,
        MarkerState.next_relocate, inductionHypothesis, List.map_append, Option.toList_map]

end Literals

section References

variable {context : ResolveContext} {flags : ItemFlags}

def Reference.relocate (anchor : Position) (reference : Reference) : Reference :=
  { reference with span := reference.span.relocate anchor }

@[simp]
theorem Reference.offset_relocate (anchor : Position) (reference : Reference) :
    (reference.relocate anchor).offset = reference.offset + anchor.offset := rfl

@[simp]
theorem Reference.length_relocate (anchor : Position) (reference : Reference) :
    (reference.relocate anchor).length = reference.length :=
  Span.length_relocate anchor reference.span

/-- Whether an event sits on a line of a file, if it is a character of code. -/
def Event.HasLine : Event → Prop
  | .code _ position _ => 1 ≤ position.line
  | _ => True

theorem Move.hasLine
    {dialect : Dialect}
    {before : Option Char}
    {position : Position}
    {piece later : Text}
    {control next : Control}
    {events : List Event}
    (move : Move dialect before position piece later control events next)
    (line : 1 ≤ position.line) :
    ∀ event ∈ events, event.HasLine := by
  cases move <;> simp [Event.HasLine, line]

theorem Run.hasLine
    {dialect : Dialect}
    {control : Control}
    {done rest : Text}
    {events : List Event}
    (run : Run dialect anchor control done rest events)
    (line : 1 ≤ anchor.line) :
    ∀ event ∈ events, event.HasLine := by
  induction run with
  | finished =>
      intro event member
      cases member
  | @move _ _ done _ _ _ _ _ here _ inductionHypothesis =>
      have lineHere := Nat.le_trans line (Position.line_le_advanceOver anchor done)
      exact List.forall_mem_append.mpr ⟨here.hasLine lineHere, inductionHypothesis⟩

namespace Chain

/-- A chain as it is when the block starts at an anchor; without segments a chain has no
start yet. -/
def relocate (anchor : Position) (chain : Chain) : Chain :=
  match chain.state with
  | .idle => chain
  | .segment | .afterSegment | .afterDot => { chain with start := anchor.relocate chain.start }

@[simp]
theorem relocate_idle (anchor : Position) :
    idle.relocate anchor = idle := rfl

/-- Only the start of a chain depends on the place. -/
theorem relocate_fields (anchor : Position) (chain : Chain) :
    (chain.relocate anchor).text = chain.text ∧ (chain.relocate anchor).node = chain.node ∧
      (chain.relocate anchor).consumed = chain.consumed := by
  obtain ⟨state, start, text, node, consumed⟩ := chain
  cases state <;> exact ⟨rfl, rfl, rfl⟩

theorem identifier_relocate
    (anchor : Position)
    (chain : Chain)
    (trie : Trie)
    (char : Char)
    (position : Position) :
    (chain.relocate anchor).identifier trie char (anchor.relocate position) =
      (chain.identifier trie char position).relocate anchor := by
  obtain ⟨state, start, text, node, consumed⟩ := chain
  cases state <;> rfl

theorem dot_relocate
    (anchor : Position)
    (chain : Chain)
    (trie : Trie) :
    (chain.relocate anchor).dot trie = (chain.dot trie).relocate anchor := by
  obtain ⟨state, start, text, node, consumed⟩ := chain
  cases state <;> rfl

theorem blank_relocate (anchor : Position) (chain : Chain) :
    (chain.relocate anchor).blank = chain.blank.relocate anchor := by
  obtain ⟨state, start, text, node, consumed⟩ := chain
  cases state <;> rfl

/-- The reference at the end of a segment is the same at another place. -/
theorem resolved_relocate
    {chain : Chain}
    (inSegment : chain.state = .segment)
    (anchor stop : Position) :
    (chain.relocate anchor).resolved context flags (anchor.relocate stop) =
      (chain.resolved context flags stop).map (Option.map (Reference.relocate anchor)) := by
  obtain ⟨sameText, sameNode, sameConsumed⟩ := chain.relocate_fields anchor
  have start : (chain.relocate anchor).start = anchor.relocate chain.start := by
    simp only [relocate, inSegment]
  have alive : (chain.relocate anchor).isAlive = chain.isAlive := by
    rw [isAlive, isAlive, sameNode]
  simp only [resolved, sameText, sameNode, sameConsumed, start, alive]
  split
  · rfl
  · split
    · rfl
    · rename_i dotted _
      cases context.resolve dotted (context.trie.entriesAt chain.node) with
      | error error =>
          rfl
      | ok found =>
          cases found <;> rfl

theorem code_relocate
    {position : Position}
    (validLine : 1 ≤ anchor.line)
    (validColumn : 1 ≤ anchor.column)
    (line : 1 ≤ position.line)
    (chain : Chain)
    (char : Char)
    (following : Option Char) :
    (chain.relocate anchor).code context flags char (anchor.relocate position) following =
      (chain.code context flags char position following).map fun (after, found) =>
        (after.relocate anchor, found.map (Reference.relocate anchor)) := by
  unfold code
  by_cases isIdentifier : Text.isIdentifierChar char = true
  · have inSegment := chain.identifier_state context.trie char position
    rw [if_pos isIdentifier, if_pos isIdentifier, identifier_relocate,
      ← Position.relocate_advance validLine validColumn line]
    generalize chain.identifier context.trie char position = longer at inSegment
    dsimp only
    rw [resolved_relocate inSegment]
    obtain ⟨state, start, text, node, consumed⟩ := longer
    cases inSegment
    split
    · rfl
    · cases resolved _ context flags (position.advance char) with
      | error error =>
          rfl
      | ok found =>
          cases found <;> rfl
  · rw [if_neg isIdentifier, if_neg isIdentifier, dot_relocate, blank_relocate]
    split
    · rfl
    · split <;> rfl

/-- A chain takes up an event at another place as it takes it up in the block. -/
theorem next_relocate
    {event : Event}
    (validLine : 1 ≤ anchor.line)
    (validColumn : 1 ≤ anchor.column)
    (line : event.HasLine)
    (chain : Chain) :
    (chain.relocate anchor).next context flags (event.relocate anchor) =
      (chain.next context flags event).map fun (after, found) =>
        (after.relocate anchor, found.map (Reference.relocate anchor)) := by
  cases event with
  | code char position following =>
      exact code_relocate validLine validColumn line chain char following
  | commentClosed | continuation =>
      exact congrArg (fun after => Except.ok (after, none)) (blank_relocate anchor chain)
  | stringOpened | lineComment | holeClosed | stringClosed | stringAbandoned | commentOpened =>
      rfl

end Chain

theorem referencesOfEvents_relocate
    (context : ResolveContext)
    (flags : ItemFlags)
    {events : List Event}
    (validLine : 1 ≤ anchor.line)
    (validColumn : 1 ≤ anchor.column)
    (lines : ∀ event ∈ events, event.HasLine)
    (chain : Chain) :
    referencesOfEvents context flags (chain.relocate anchor)
        (events.map (Event.relocate anchor)) =
      (referencesOfEvents context flags chain events).map
        (List.map (Reference.relocate anchor)) := by
  induction events generalizing chain with
  | nil =>
      rfl
  | cons event rest inductionHypothesis =>
      obtain ⟨line, linesLater⟩ := List.forall_mem_cons.mp lines
      rw [List.map_cons, referencesOfEvents, referencesOfEvents,
        Chain.next_relocate validLine validColumn line]
      cases chain.next context flags event with
      | error error =>
          rfl
      | ok result =>
          obtain ⟨after, found⟩ := result
          have later := inductionHypothesis linesLater after
          simp only [Except.map, bind, Except.bind] at later ⊢
          rw [later]
          cases referencesOfEvents context flags after rest with
          | error error =>
              rfl
          | ok items =>
              simp [pure, Except.pure, Option.toList_map]

end References

namespace Dialect

variable {flags : ItemFlags}

theorem literals_relocate
    (dialect : Dialect)
    (block : Text)
    (validLine : 1 ≤ anchor.line)
    (validColumn : 1 ≤ anchor.column) :
    dialect.literals flags anchor block =
      (dialect.literals flags .start block).map (Literal.relocate anchor) := by
  rw [literals, dialect.events_eq_relocate block validLine validColumn,
    literalsOfEvents_relocate]
  rfl

theorem references_relocate
    {context : ResolveContext}
    (dialect : Dialect)
    (block : Text)
    (validLine : 1 ≤ anchor.line)
    (validColumn : 1 ≤ anchor.column) :
    dialect.references context flags anchor block =
      (dialect.references context flags .start block).map
        (List.map (Reference.relocate anchor)) := by
  have lines := (dialect.run_events .start block).hasLine (Nat.le_refl 1)
  have moved :=
    referencesOfEvents_relocate context flags validLine validColumn lines .idle
  rw [Chain.relocate_idle] at moved
  rw [references, dialect.events_eq_relocate block validLine validColumn, moved]
  rfl

end Dialect

/-- At an anchor the searches find what they find in the block as a file of its own, moved to
where the block sits, and fail as they fail there.  An anchor without a line or without a
column is refused, whatever the block. -/
theorem searches_relocate
    (dialect : Dialect)
    (context : ResolveContext)
    (flags : ItemFlags)
    (anchor : Position)
    (block : Text) :
    (1 ≤ anchor.line → 1 ≤ anchor.column →
      findLiterals dialect flags anchor block =
          (findLiterals dialect flags .start block).map (List.map (Literal.relocate anchor)) ∧
        findReferences dialect context flags anchor block =
          (findReferences dialect context flags .start block).map
            (List.map (Reference.relocate anchor))) ∧
      (anchor.line = 0 →
        findLiterals dialect flags anchor block = .error .lineBelowOne ∧
          findReferences dialect context flags anchor block =
            .error (.anchor .lineBelowOne)) ∧
      (anchor.line ≠ 0 → anchor.column = 0 →
        findLiterals dialect flags anchor block = .error .columnBelowOne ∧
          findReferences dialect context flags anchor block =
            .error (.anchor .columnBelowOne)) := by
  refine ⟨?_, ?_, ?_⟩
  · intro validLine validColumn
    have valid := Position.asAnchor_of_one_le validLine validColumn
    have validStart : Position.start.asAnchor = .ok .start := rfl
    simp only [findLiterals, findReferences, valid, validStart]
    constructor
    · exact congrArg Except.ok (dialect.literals_relocate block validLine validColumn)
    · rw [dialect.references_relocate block validLine validColumn]
      cases dialect.references context flags .start block <;> rfl
  · intro noLine
    simp only [findLiterals, findReferences, Position.asAnchor, noLine]
    exact ⟨rfl, rfl⟩
  · intro line noColumn
    simp only [findLiterals, findReferences, Position.asAnchor, line, noColumn]
    exact ⟨rfl, rfl⟩

/-- A reference over a line break starts on the line of the anchor and ends on a line of its
own, and the literal behind it keeps its column. -/
theorem searches_relocate_lines :
    let dialect : Dialect := .csharp defaultMarker
    let entry : Entry := ⟨['K'], ['V'], ⟨[], ['R'], none, []⟩⟩
    let context : ResolveContext := ⟨.ofList [entry], ⟨[], []⟩, none⟩
    let anchor : Position := ⟨4, 7, 50⟩
    let block := " R.\nK+\"x\"".toList
    findLiterals dialect .none anchor block =
        .ok [⟨"\"x\"".toList, ['x'], ⟨⟨5, 3, 56⟩, ⟨5, 6, 59⟩⟩, false, .none⟩] ∧
      findReferences dialect context .none anchor block =
        .ok
          [⟨"R.K".toList, "R.K".toList, ['K'], ['V'], entry.origin,
            ⟨⟨4, 8, 51⟩, ⟨5, 2, 55⟩⟩, .none⟩] ∧
      findLiterals dialect .none ⟨4, 0, 50⟩ block = .error .columnBelowOne ∧
      findReferences dialect context .none ⟨0, 0, 50⟩ block =
        .error (.anchor .lineBelowOne) := by
  intro dialect entry context anchor block
  have foundLiterals :
      findLiterals dialect .none .start block =
        .ok [⟨"\"x\"".toList, ['x'], ⟨⟨2, 3, 6⟩, ⟨2, 6, 9⟩⟩, false, .none⟩] := by
    simp only [dialect, block]
    cbv
  have foundReferences :
      findReferences dialect context .none .start block =
        .ok
          [⟨"R.K".toList, "R.K".toList, ['K'], ['V'], entry.origin,
            ⟨⟨1, 2, 1⟩, ⟨2, 2, 5⟩⟩, .none⟩] := by
    simp only [dialect, block, context, entry]
    cbv
  obtain ⟨moved, -, -⟩ := searches_relocate dialect context .none anchor block
  obtain ⟨literals, references⟩ := moved (by decide) (by decide)
  rw [foundLiterals] at literals
  rw [foundReferences] at references
  obtain ⟨-, -, noColumn⟩ := searches_relocate dialect context .none ⟨4, 0, 50⟩ block
  obtain ⟨-, noLine, -⟩ := searches_relocate dialect context .none ⟨0, 0, 50⟩ block
  exact ⟨literals, references, (noColumn (by decide) rfl).1, (noLine rfl).2⟩

end LocalizationScan
