import LocalizationScan.Proofs.Lexical.Separators
import LocalizationScan.Proofs.Reference.Segments
import LocalizationScan.Proofs.Scan.Trail

namespace LocalizationScan

/-!
# Outlines of scans

The marks that a scan yields depend on the kinds of what is open, and not on
where that has begun or what text it holds.  So two scans of different texts
yield the same marks as long as they meet the same transitions.
-/

def Mark.unplaced : Mark → Mark
  | .identifier char _ isIdentifier => .identifier char .start isIdentifier
  | .separator between => .separator between

/-- The marks of events without their places. -/
def marksOf (events : List Event) : List Mark :=
  (events.filterMap Event.mark?).map Mark.unplaced

/-- The marks that a scan yields up to the end of the block, without their places. -/
def Scan.marks (dialect : Dialect) (scan : Scan) : List Mark :=
  marksOf (scan.events dialect)

@[simp]
theorem marksOf_append (first second : List Event) :
    marksOf (first ++ second) = marksOf first ++ marksOf second := by
  simp [marksOf]

/-- The mark of a character does not depend on its place and on what follows it. -/
theorem marksOf_code
    (char : Char)
    (position other : Position)
    (next following : Option Char) :
    marksOf [.code char position next] = marksOf [.code char other following] := by
  simp only [marksOf, List.filterMap_cons, Event.mark?, Mark.ofChar, List.filterMap_nil,
    List.map_cons, List.map_nil]
  split
  · rfl
  · split
    · rfl
    · split <;> rfl

/-- A token of which nothing is known. -/
def OpenToken.unknown : OpenToken := ⟨.start, [], 0⟩

def Hole.outline (hole : Hole) : Hole :=
  { hole with token := .unknown }

def Mode.outline : Mode → Mode
  | .resting => .resting
  | .inString kind _ => .inString kind .unknown
  | .inComment _ => .inComment .unknown

@[simp]
theorem Hole.outline_outline (hole : Hole) : hole.outline.outline = hole.outline := rfl

@[simp]
theorem Mode.outline_outline (mode : Mode) : mode.outline.outline = mode.outline := by
  cases mode <;> rfl

/-- A control without the places and the texts of what is open. -/
def Control.outline (control : Control) : Control :=
  ⟨control.mode.outline, control.holes.map Hole.outline⟩

namespace Control

variable {control other : Control}

@[simp]
theorem lexicalState_outline (control : Control) :
    control.outline.lexicalState = control.lexicalState := by
  obtain ⟨mode, holes⟩ := control
  cases mode <;> cases holes <;> rfl

/-- A reaction yields the marks of the reaction of the outline, and leaves its outline. -/
theorem react_outline
    (control : Control)
    (transition : Transition)
    (before after beforeOther afterOther : Cursor)
    (char : Char)
    (position place : Position)
    (next following : Option Char) :
    let reaction := control.react transition before after (.code char position next)
    let outlined :=
      control.outline.react transition beforeOther afterOther (.code char place following)
    marksOf reaction.1 = marksOf outlined.1 ∧ reaction.2.outline = outlined.2.outline := by
  have code := marksOf_code char position place next following
  obtain ⟨mode, holes⟩ := control
  cases transition with
  | stay =>
      cases mode <;> simp [react, outline, Mode.outline, code]
  | abandon =>
      have abandoned (events : List Event) :
          marksOf (.stringAbandoned :: events) = marksOf events := rfl
      cases mode <;> simp [react, rest, outline, Mode.outline, abandoned, code]
  | escape | continuation | lineComment =>
      simp [react, outline, marksOf]
  | openString | openComment =>
      simp [react, outline, Mode.outline, marksOf, Event.mark?]
  | closeString =>
      have closed (token : StringToken) : marksOf [.stringClosed token] = [] := rfl
      cases mode <;> simp [react, rest, outline, Mode.outline, closed]
  | closeComment =>
      cases mode <;> simp [react, rest, outline, Mode.outline, marksOf, Event.mark?]
  | openHole =>
      cases mode <;> simp [react, outline, Mode.outline, marksOf, Hole.outline]
  | brace opening =>
      cases holes with
      | nil =>
          simpa [react, brace, outline] using code
      | cons hole outer =>
          cases opening with
          | true =>
              simpa [react, brace, outline, Hole.outline] using code
          | false =>
              by_cases unmatched : hole.depth = 0
              · simp [react, brace, outline, Hole.outline, Mode.outline, unmatched]
              · simpa [react, brace, outline, Hole.outline, unmatched] using code

/-- Controls with the same outline react to a transition with the same marks. -/
theorem react_of_outline_eq
    (same : control.outline = other.outline)
    (transition : Transition)
    (before after beforeOther afterOther : Cursor)
    (char : Char)
    (position place : Position)
    (next following : Option Char) :
    let reaction := control.react transition before after (.code char position next)
    let reactionOther :=
      other.react transition beforeOther afterOther (.code char place following)
    marksOf reaction.1 = marksOf reactionOther.1 ∧
      reaction.2.outline = reactionOther.2.outline := by
  have here := control.react_outline transition before after before after char position
    position next next
  have there := other.react_outline transition beforeOther afterOther before after char place
    position following next
  rw [← same] at there
  exact ⟨here.1.trans there.1.symm, here.2.trans there.2.symm⟩

theorem lexicalState_of_outline_eq
    (same : control.outline = other.outline) :
    control.lexicalState = other.lexicalState := by
  rw [← lexicalState_outline, same, lexicalState_outline]

end Control

/-- Two scans that have the same text left and read it in the same way. -/
structure Scan.Alike (dialect : Dialect) (first second : Scan) : Prop where
  outline : first.control.outline = second.control.outline
  rest : first.cursor.rest = second.cursor.rest
  transition : first.transition dialect = second.transition dialect

namespace Scan.Alike

variable {dialect : Dialect} {first second : Scan}

/-- Behind a step the texts that are left and the characters before them are the same. -/
theorem nextCursor
    (alike : first.Alike dialect second)
    (nonempty : first.cursor.rest ≠ []) :
    (first.nextCursor dialect).rest = (second.nextCursor dialect).rest ∧
      (first.nextCursor dialect).before = (second.nextCursor dialect).before := by
  have covers := one_le_covered (second.transition dialect) second.cursor.rest
  have nonemptySecond := nonempty
  rw [alike.rest] at nonemptySecond
  simp only [Scan.nextCursor, Cursor.skip, alike.rest, alike.transition, true_and]
  generalize (second.transition dialect).covered second.cursor.rest = count at covers
  have taken : second.cursor.rest.take count ≠ [] := by
    rw [Ne, List.take_eq_nil_iff, not_or]
    exact ⟨Nat.ne_of_gt covers, nonemptySecond⟩
  rw [List.getLast?_eq_some_getLast taken, Option.some_or, Option.some_or]

theorem step
    (alike : first.Alike dialect second)
    (nonempty : first.cursor.rest ≠ [])
    (char : Char) :
    marksOf (first.step dialect char).1 = marksOf (second.step dialect char).1 ∧
      (first.step dialect char).2.Alike dialect (second.step dialect char).2 := by
  obtain ⟨rest, before⟩ := alike.nextCursor nonempty
  have reacts := Control.react_of_outline_eq alike.outline (first.transition dialect)
    first.cursor (first.nextCursor dialect) second.cursor (second.nextCursor dialect) char
    first.cursor.position second.cursor.position
    (first.nextCursor dialect).rest.head? (second.nextCursor dialect).rest.head?
  simp only [Scan.step, ← alike.transition]
  have state := Control.lexicalState_of_outline_eq reacts.2
  have classified := congr (congr (congrArg dialect.classify state) before) rest
  exact ⟨reacts.1, reacts.2, rest, classified⟩

/-- Scans that read the same text in the same way yield the same marks. -/
theorem marks_eq (alike : first.Alike dialect second) :
    first.marks dialect = second.marks dialect := by
  unfold marks
  fun_induction Scan.events dialect first generalizing second with
  | case1 first finished =>
      have finishedSecond : second.cursor.rest = [] := alike.rest.symm.trans finished
      rw [events.eq_def]
      split
      · rfl
      · rename_i shape
        cases finishedSecond.symm.trans shape
  | case2 first char tail shape inductionHypothesis =>
      have shapeSecond : second.cursor.rest = char :: tail := alike.rest.symm.trans shape
      obtain ⟨marks, behind⟩ := alike.step (by simp [shape]) char
      rw [marksOf_append, inductionHypothesis behind, marks]
      conv => rhs; rw [events.eq_def]
      split
      · rename_i finished
        cases finished.symm.trans shapeSecond
      · rename_i same
        cases same.symm.trans shapeSecond
        exact (marksOf_append _ _).symm

end Scan.Alike

/-- A transition that ends in front of a text which begins on the same line covers the same
piece whatever follows. -/
theorem Transition.covered_append_eq
    {transition : Transition}
    {front tail second : Text}
    {char : Char}
    (inLine : char ≠ '\n')
    (nonempty : front ≠ [])
    (inside : transition.covered (front ++ char :: tail) ≤ front.length) :
    transition.covered (front ++ second) = transition.covered (front ++ char :: tail) := by
  have positive := List.length_pos_iff.mpr nonempty
  cases transition with
  | lineComment =>
      -- The comment ends in front of the text, so the line does.
      have breaksLine : ((front.takeWhile (· ≠ '\n')).length = front.length) → False := by
        intro whole
        simp only [covered, List.takeWhile_append, whole, ↓reduceIte, List.length_append,
          List.takeWhile_cons, inLine, ne_eq, not_false_eq_true, decide_true,
          List.length_cons] at inside
        omega
      have shorter : (front.takeWhile (· ≠ '\n')).length ≤ front.length :=
        (List.takeWhile_prefix _).length_le
      simp only [covered, List.takeWhile_append, if_neg breaksLine, List.length_append]
      omega
  | _ =>
      simp only [covered, List.length_append, List.length_cons] at inside ⊢
      omega

namespace Scan

variable {dialect : Dialect} {anchor : Position} {second tail : Text} {char : Char}
  {expected : Transition}

/-- A step that ends in front of a text ends at the same place in front of another one that
reads alike, and it yields the same marks. -/
theorem exists_step_of_readsAlike
    {done others : Text}
    {control other : Control}
    {first : Char}
    (readsAlike : dialect.ReadsAlike (char :: tail) second)
    (inLine : char ≠ '\n')
    (same : control.outline = other.outline)
    (inside :
      (char :: tail).length ≤
        (step dialect ⟨control, .between anchor done (first :: (others ++ char :: tail))⟩
          first).2.cursor.rest.length) :
    ∃ piece rest produced producedOther next nextOther,
      first :: others = piece ++ rest ∧ piece ≠ [] ∧
        next.outline = nextOther.outline ∧ marksOf produced = marksOf producedOther ∧
        step dialect ⟨control, .between anchor done (first :: (others ++ char :: tail))⟩ first =
          (produced, ⟨next, .between anchor (done ++ piece) (rest ++ char :: tail)⟩) ∧
        step dialect ⟨other, .between anchor done (first :: (others ++ second))⟩ first =
          (producedOther, ⟨nextOther, .between anchor (done ++ piece) (rest ++ second)⟩) := by
  obtain ⟨transition, classified⟩ :
      ∃ transition,
        dialect.classify control.lexicalState done.getLast? (first :: others ++ char :: tail) =
          transition :=
    ⟨_, rfl⟩
  have covered :
      transition.covered (first :: others ++ char :: tail) ≤ (first :: others).length := by
    have left :
        (char :: tail).length ≤
          (first :: others ++ char :: tail).length -
            transition.covered (first :: others ++ char :: tail) := by
      rw [← classified, ← List.length_drop]
      exact inside
    rw [List.length_append] at left
    have positive : 0 < (char :: tail).length := Nat.succ_pos _
    omega
  have classifiedOther :
      dialect.classify other.lexicalState done.getLast? (first :: others ++ second) =
        transition := by
    rw [← Control.lexicalState_of_outline_eq same]
    rcases readsAlike control.lexicalState done.getLast? (first :: others)
        (List.cons_ne_nil _ _) with alike | beyond
    · exact alike.symm.trans classified
    · rw [classified] at beyond
      exact absurd covered (Nat.not_le.mpr beyond)
  have coveredOther :=
    @Transition.covered_append_eq transition (first :: others) tail second char inLine
      (List.cons_ne_nil _ _) covered
  obtain ⟨piece, rest, shape, length⟩ :
      ∃ piece rest,
        first :: others = piece ++ rest ∧
          transition.covered (first :: others ++ char :: tail) = piece.length :=
    ⟨_, _, (List.take_append_drop _ _).symm, by rw [List.length_take, Nat.min_eq_left covered]⟩
  have nonempty : piece ≠ [] := by
    have positive := one_le_covered transition (first :: others ++ char :: tail)
    rw [length] at positive
    exact List.length_pos_iff.mp positive
  rw [length] at coveredOther
  rw [shape, List.append_assoc] at classified length classifiedOther coveredOther
  have stepped :=
    @step_eq_react dialect anchor control done piece (rest ++ char :: tail) first _ classified
      length
  have steppedOther :=
    @step_eq_react dialect anchor other done piece (rest ++ second) first _ classifiedOther
      coveredOther
  have reacts := Control.react_of_outline_eq same transition
    (.between anchor done (piece ++ (rest ++ char :: tail)))
    (.between anchor (done ++ piece) (rest ++ char :: tail))
    (.between anchor done (piece ++ (rest ++ second)))
    (.between anchor (done ++ piece) (rest ++ second)) first
    (anchor.advanceOver done) (anchor.advanceOver done)
    (rest ++ char :: tail).head? (rest ++ second).head?
  refine ⟨piece, rest, _, _, _, _, shape, nonempty, reacts.2, reacts.1, ?_, ?_⟩
  · rw [← List.cons_append, shape, List.append_assoc]
    exact stepped
  · rw [← List.cons_append, shape, List.append_assoc]
    exact steppedOther

/-- Two scans over a common start of two texts that read alike behind it yield the same marks,
when the first of them stops in front of its text and they yield the same marks from there. -/
theorem marks_eq_of_readsAlike
    (readsAlike : dialect.ReadsAlike (char :: tail) second)
    (inLine : char ≠ '\n')
    (behind :
      ∀ done control other,
        control.outline = other.outline →
          transition dialect ⟨control, .between anchor done (char :: tail)⟩ = expected →
            marks dialect ⟨control, .between anchor done (char :: tail)⟩ =
              marks dialect ⟨other, .between anchor done second⟩)
    (front done : Text)
    (control other : Control)
    (same : control.outline = other.outline)
    (passes :
      ∃ scan ∈ visited dialect ⟨control, .between anchor done (front ++ char :: tail)⟩,
        scan.cursor.rest = char :: tail ∧ scan.transition dialect = expected) :
    marks dialect ⟨control, .between anchor done (front ++ char :: tail)⟩ =
      marks dialect ⟨other, .between anchor done (front ++ second)⟩ := by
  obtain ⟨scan, member, left, begins⟩ := passes
  cases front with
  | nil =>
      rw [List.nil_append, visited_between_cons] at member
      rcases List.mem_cons.mp member with rfl | later
      · exact behind done control other same begins
      · have shorter := length_rest_step_lt dialect
          ⟨control, .between anchor done (char :: tail)⟩ char (List.cons_ne_nil char tail)
        have further := length_rest_le_of_mem_visited later
        rw [left] at further
        exact absurd shorter (Nat.not_lt.mpr further)
  | cons first others =>
      rw [List.cons_append, visited_between_cons] at member
      rcases List.mem_cons.mp member with rfl | later
      · have lengths := congrArg List.length left
        simp only [Cursor.between, List.length_cons, List.length_append] at lengths
        omega
      have further := length_rest_le_of_mem_visited later
      rw [left] at further
      obtain ⟨piece, rest, produced, producedOther, next, nextOther, shape, nonempty, sameNext,
          sameMarks, stepped, steppedOther⟩ :=
        exists_step_of_readsAlike readsAlike inLine same further
      rw [stepped] at later
      have shorter := Text.length_lt_of_eq_append shape nonempty
      have along := marks_eq_of_readsAlike readsAlike inLine behind rest (done ++ piece) next
        nextOther sameNext ⟨scan, later, left, begins⟩
      unfold marks at along ⊢
      rw [List.cons_append, List.cons_append, events_between_cons, events_between_cons, stepped,
        steppedOther, marksOf_append, marksOf_append, sameMarks, along]
termination_by front.length

end Scan

end LocalizationScan
