import LocalizationScan.Proofs.Scan.Move

namespace LocalizationScan

/-!
# Blocks at other places

A block can be scanned as a file of its own, and what the scan has met can be
moved to where the block sits in its file.  Lines and offsets move by those of
the anchor.  Columns move on the first line of the block only, as the anchor
shares no other line with the block.
-/

variable {anchor : Position}

/-- Where a position of a block sits in a file in which the block starts at the anchor. -/
def Position.relocate (anchor position : Position) : Position where
  line := position.line + anchor.line - 1
  column :=
    if position.line = 1 then position.column + anchor.column - 1 else position.column
  offset := position.offset + anchor.offset

def Span.relocate (anchor : Position) (span : Span) : Span :=
  ⟨anchor.relocate span.start, anchor.relocate span.stop⟩

def OpenToken.relocate (anchor : Position) (token : OpenToken) : OpenToken :=
  { token with start := anchor.relocate token.start }

def Hole.relocate (anchor : Position) (hole : Hole) : Hole :=
  { hole with token := hole.token.relocate anchor }

def Mode.relocate (anchor : Position) : Mode → Mode
  | .resting => .resting
  | .inString kind token => .inString kind (token.relocate anchor)
  | .inComment token => .inComment (token.relocate anchor)

def Control.relocate (anchor : Position) (control : Control) : Control :=
  ⟨control.mode.relocate anchor, control.holes.map (Hole.relocate anchor)⟩

def Cursor.relocate (anchor : Position) (cursor : Cursor) : Cursor :=
  { cursor with position := anchor.relocate cursor.position }

def Scan.relocate (anchor : Position) (scan : Scan) : Scan :=
  ⟨scan.control.relocate anchor, scan.cursor.relocate anchor⟩

def StringToken.relocate (anchor : Position) (token : StringToken) : StringToken :=
  { token with span := token.span.relocate anchor }

/-- An event of a block as it is met in a file in which the block starts at the anchor. -/
def Event.relocate (anchor : Position) : Event → Event
  | .code char position next => .code char (anchor.relocate position) next
  | .stringOpened kind position => .stringOpened kind (anchor.relocate position)
  | .stringClosed token => .stringClosed (token.relocate anchor)
  | event => event

@[simp]
theorem Span.length_relocate (anchor : Position) (span : Span) :
    (span.relocate anchor).length = span.length :=
  Nat.add_sub_add_right _ _ _

namespace Position

/-- The start of a block sits at the anchor. -/
theorem relocate_start
    (validLine : 1 ≤ anchor.line)
    (validColumn : 1 ≤ anchor.column) :
    anchor.relocate .start = anchor := by
  obtain ⟨line, column, offset⟩ := anchor
  simp only [relocate, start, ↓reduceIte, mk.injEq]
  omega

theorem relocate_advance
    {position : Position}
    (validLine : 1 ≤ anchor.line)
    (validColumn : 1 ≤ anchor.column)
    (line : 1 ≤ position.line)
    (char : Char) :
    anchor.relocate (position.advance char) = (anchor.relocate position).advance char := by
  unfold advance
  split
  · -- Behind a line feed the block and the anchor share no line.
    have later : position.line + 1 ≠ 1 := by omega
    simp only [relocate, later, ↓reduceIte, mk.injEq, true_and]
    omega
  · by_cases first : position.line = 1
    · simp only [relocate, first, ↓reduceIte, mk.injEq, true_and]
      omega
    · simp only [relocate, first, ↓reduceIte, mk.injEq, true_and]
      omega

theorem relocate_advanceOver
    {position : Position}
    (validLine : 1 ≤ anchor.line)
    (validColumn : 1 ≤ anchor.column)
    (line : 1 ≤ position.line)
    (text : Text) :
    anchor.relocate (position.advanceOver text) = (anchor.relocate position).advanceOver text := by
  induction text generalizing position with
  | nil =>
      rfl
  | cons char rest inductionHypothesis =>
      have lineNext : 1 ≤ (position.advance char).line :=
        Nat.le_trans line (line_le_advanceOver position [char])
      rw [advanceOver_cons, advanceOver_cons, inductionHypothesis lineNext,
        relocate_advance validLine validColumn line]

end Position

theorem Cursor.relocate_between
    (validLine : 1 ≤ anchor.line)
    (validColumn : 1 ≤ anchor.column)
    (done rest : Text) :
    (between .start done rest).relocate anchor = between anchor done rest := by
  have position := Position.relocate_advanceOver validLine validColumn
    (Nat.le_refl Position.start.line) done
  rw [Position.relocate_start validLine validColumn] at position
  simp only [relocate, between, position]

namespace Control

@[simp]
theorem lexicalState_relocate (anchor : Position) (control : Control) :
    (control.relocate anchor).lexicalState = control.lexicalState := by
  obtain ⟨mode, holes⟩ := control
  cases mode <;> cases holes <;> rfl

theorem textTo_relocate (anchor : Position) (token : OpenToken) (stop : Position) :
    (token.relocate anchor).textTo (anchor.relocate stop) = token.textTo stop := by
  simp only [OpenToken.textTo, OpenToken.relocate, Position.relocate, Nat.add_sub_add_right]

theorem closeToken_relocate
    (anchor : Position)
    (control : Control)
    (kind : StringKind)
    (token : OpenToken)
    (length : Nat)
    (emit : Bool)
    (stop : Position) :
    (control.relocate anchor).closeToken kind (token.relocate anchor) length emit
        (anchor.relocate stop) =
      (control.closeToken kind token length emit stop).relocate anchor := by
  have holes : (control.relocate anchor).holes.isEmpty = control.holes.isEmpty := by
    simp [relocate]
  simp only [closeToken, textTo_relocate, holes]
  rfl

/-- At another place the reaction to a transition is the same, moved there. -/
theorem react_relocate
    (anchor : Position)
    (control : Control)
    (transition : Transition)
    (before after : Cursor)
    (code : Event) :
    (control.relocate anchor).react transition (before.relocate anchor) (after.relocate anchor)
        (code.relocate anchor) =
      ((control.react transition before after code).1.map (Event.relocate anchor),
        (control.react transition before after code).2.relocate anchor) := by
  obtain ⟨mode, holes⟩ := control
  cases transition with
  | stay | abandon =>
      cases mode <;> rfl
  | escape | continuation | lineComment | openString | openComment =>
      rfl
  | closeString length emit =>
      cases mode with
      | resting | inComment =>
          rfl
      | inString kind token =>
          have closed :=
            closeToken_relocate anchor ⟨.inString kind token, holes⟩ kind token length emit
              after.position
          exact congrArg (fun token => ([Event.stringClosed token], _)) closed
  | closeComment length =>
      cases mode with
      | resting | inString =>
          rfl
      | inComment token =>
          have text := textTo_relocate anchor token after.position
          exact congrArg (fun text => ([Event.commentClosed text], _)) text
  | openHole =>
      cases mode <;> rfl
  | brace opening =>
      cases holes with
      | nil =>
          rfl
      | cons hole outer =>
          cases opening with
          | true =>
              rfl
          | false =>
              by_cases unmatched : hole.depth = 0
              · simp [react, brace, relocate, Hole.relocate, unmatched, Mode.relocate,
                  Event.relocate]
              · simp [react, brace, relocate, Hole.relocate, unmatched]

end Control

namespace Scan

variable {dialect : Dialect}

/-- A step at another place of a file is the same step, moved there. -/
theorem step_relocate
    (dialect : Dialect)
    (validLine : 1 ≤ anchor.line)
    (validColumn : 1 ≤ anchor.column)
    (control : Control)
    (done rest : Text)
    (char : Char) :
    step dialect ⟨control.relocate anchor, .between anchor done rest⟩ char =
      ((step dialect ⟨control, .between .start done rest⟩ char).1.map (Event.relocate anchor),
        (step dialect ⟨control, .between .start done rest⟩ char).2.relocate anchor) := by
  have sameTransition :
      transition dialect ⟨control.relocate anchor, .between anchor done rest⟩ =
        transition dialect ⟨control, .between .start done rest⟩ := by
    simp only [transition, Control.lexicalState_relocate, Cursor.between]
  have before := Cursor.relocate_between validLine validColumn done rest
  have after :
      nextCursor dialect ⟨control.relocate anchor, .between anchor done rest⟩ =
        (nextCursor dialect ⟨control, .between .start done rest⟩).relocate anchor := by
    simp only [nextCursor, sameTransition, Cursor.skip_between_take]
    exact (Cursor.relocate_between validLine validColumn _ _).symm
  simp only [step, sameTransition, after]
  rw [← before]
  generalize Cursor.between .start done rest = cursor
  have reacted :=
    Control.react_relocate anchor control (transition dialect ⟨control, cursor⟩) cursor
      (nextCursor dialect ⟨control, cursor⟩)
      (.code char cursor.position (nextCursor dialect ⟨control, cursor⟩).rest.head?)
  exact congrArg
    (fun reaction =>
      (reaction.1, Scan.mk reaction.2 ((nextCursor dialect ⟨control, cursor⟩).relocate anchor)))
    reacted

/-- The events of a scan at another place of a file are the same events, moved there. -/
theorem events_relocate
    (validLine : 1 ≤ anchor.line)
    (validColumn : 1 ≤ anchor.column)
    (control : Control)
    (done rest : Text) :
    events dialect ⟨control.relocate anchor, .between anchor done rest⟩ =
      (events dialect ⟨control, .between .start done rest⟩).map (Event.relocate anchor) := by
  cases rest with
  | nil =>
      rw [events_between_nil, events_between_nil]
      rfl
  | cons char tail =>
      obtain ⟨piece, later, produced, next, shape, nonempty, -, stepped⟩ :=
        advances dialect .start control done char tail
      have shorter := Text.length_lt_of_eq_append shape nonempty
      have moved :=
        step_relocate dialect validLine validColumn control done (char :: tail) char
      rw [stepped] at moved
      rw [events_between_cons, events_between_cons, moved, stepped, List.map_append,
        ← events_relocate validLine validColumn next (done ++ piece) later, relocate,
        Cursor.relocate_between validLine validColumn]
termination_by rest.length
decreasing_by exact shorter

end Scan

/-- The events of a block at an anchor are those of the block as a file of its own, moved to
where the block sits. -/
theorem Dialect.events_eq_relocate
    (dialect : Dialect)
    (block : Text)
    (validLine : 1 ≤ anchor.line)
    (validColumn : 1 ≤ anchor.column) :
    dialect.events anchor block =
      (dialect.events .start block).map (Event.relocate anchor) :=
  Scan.events_relocate validLine validColumn .initial [] block

end LocalizationScan
