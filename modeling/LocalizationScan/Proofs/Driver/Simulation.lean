import LocalizationScan.Proofs.Driver.Turn
import LocalizationScan.Proofs.Scan.Invariant
import LocalizationScan.Proofs.Scan.Tracking

namespace LocalizationScan

/-!
# Scans as drivers

The control of a scan holds the lexical state, the open token and the waiting
strings in one value.  Taken apart it gives the registers of a driver, and from
there the loop takes the same turns as the scan takes steps, with the same
events.
-/

/-- An open token by its place in a block that starts at the anchor. -/
def OpenToken.place (anchor : Position) (token : OpenToken) : Driver.Token :=
  ⟨token.start.offset - anchor.offset, token.start, token.openingLength⟩

/-- A waiting string by the place of its token. -/
def Hole.place (anchor : Position) (hole : Hole) : Driver.Hole :=
  ⟨hole.kind, some (hole.token.place anchor), hole.depth⟩

/-- The driver that stands where a scan of a block stands. -/
def Scan.driver (anchor : Position) (scan : Scan) : Driver where
  state := scan.control.lexicalState
  token? := scan.control.mode.token?.map (OpenToken.place anchor)
  holes := scan.control.holes.map (Hole.place anchor)
  index := scan.offset - anchor.offset
  position := scan.cursor.position

section Tokens

variable {anchor : Position} {done piece later : Text} {token : OpenToken}

theorem Text.slice?_append (front slice back : Text) :
    (front ++ slice ++ back).slice? front.length (front.length + slice.length) = some slice := by
  rw [slice?_eq_some (Nat.le_add_right _ _) (by simp), ← List.length_append, List.take_left,
    List.drop_left]

/-- A slice without some characters at either end. -/
theorem Text.slice?_of_slice?
    {text slice : Text}
    {start stop : Nat}
    (slices : text.slice? start stop = some slice)
    (front back : Nat)
    (fits : front + back ≤ slice.length) :
    text.slice? (start + front) (stop - back) =
      some ((slice.take (slice.length - back)).drop front) := by
  obtain ⟨⟨ordered, inside⟩, same⟩ := Option.ite_none_right_eq_some.mp slices
  cases same
  have length : ((text.take stop).drop start).length = stop - start := by
    rw [List.length_drop, List.length_take, Nat.min_eq_left inside]
  rw [length] at fits ⊢
  rw [slice?_eq_some (by omega) (by omega)]
  simp only [List.drop_take, List.take_take, List.drop_drop]
  congr 2
  omega

/-- A token that has begun in what is done is sliced out of the block by its place. -/
theorem OpenToken.IsPlaced.slice?
    (placed : token.IsPlaced anchor done (piece ++ later)) :
    (done ++ (piece ++ later)).slice? (token.place anchor).index (done.length + piece.length) =
      some (token.textTo (anchor.advanceOver (done ++ piece))) := by
  obtain ⟨before, opened, rfl, -, start, text⟩ := placed.exists_textTo
  have index : (token.place anchor).index = before.length := by
    simp [OpenToken.place, start, Position.offset_advanceOver]
  have slices := Text.slice?_append before (opened ++ piece) later
  rw [List.length_append, ← Nat.add_assoc] at slices
  rw [index, text]
  simpa using slices

/-- The string token that a scan closes is the one that its driver closes. -/
theorem Control.closeToken?_driver
    {scan : Scan}
    {closingLength : Nat}
    (kind : StringKind)
    (emit : Bool)
    (placed : token.IsPlaced anchor done (piece ++ later))
    (opened : token.start.offset + token.openingLength ≤ anchor.offset + done.length)
    (taken : closingLength ≤ piece.length)
    (index : (scan.driver anchor).index = done.length) :
    (scan.driver anchor).closeToken? (done ++ (piece ++ later)) kind (token.place anchor)
        closingLength emit piece.length (anchor.advanceOver (done ++ piece)) =
      some (scan.control.closeToken kind token closingLength emit
        (anchor.advanceOver (done ++ piece))) := by
  have slices := placed.slice?
  obtain ⟨before, begun, rfl, -, start, text⟩ := placed.exists_textTo
  have fits :
      token.openingLength + closingLength ≤
        (token.textTo (anchor.advanceOver (before ++ begun ++ piece))).length := by
    rw [start, Position.offset_advanceOver, List.length_append] at opened
    rw [text, List.length_append]
    omega
  have body := Text.slice?_of_slice? slices (token.place anchor).openingLength closingLength fits
  have bodyEnd :
      difference? ((before ++ begun).length + piece.length) closingLength =
        some ((before ++ begun).length + piece.length - closingLength) :=
    difference?_eq_some (Nat.le_trans taken (Nat.le_add_left _ _))
  simp only [Driver.closeToken?, index, slices, Nat.min_eq_left taken, bodyEnd, body,
    Option.bind_eq_bind, Option.bind_some, closeToken]
  rw [show (scan.driver anchor).holes.isEmpty = scan.control.holes.isEmpty from List.isEmpty_map]
  rfl

end Tokens

namespace Control

variable {control : Control}

theorem exists_inString
    {kind : StringKind}
    (inString : control.lexicalState = .string kind) :
    ∃ token, control.mode = .inString kind token := by
  obtain ⟨mode, holes⟩ := control
  cases mode with
  | resting => cases holes <;> cases inString
  | inString => cases inString; exact ⟨_, rfl⟩
  | inComment => cases inString

theorem exists_inComment
    (inComment : control.lexicalState = .comment) :
    ∃ token, control.mode = .inComment token := by
  obtain ⟨mode, holes⟩ := control
  cases mode with
  | resting => cases holes <;> cases inComment
  | inString => cases inComment
  | inComment token => exact ⟨token, rfl⟩

end Control

namespace Scan

variable {dialect : Dialect} {anchor : Position} {block done piece later : Text}
  {control : Control} {cursor : Cursor} {transition : Transition} {earlier : List Scan}
  {scan next : Scan}

theorem moveTo_driver
    (anchor : Position)
    (control : Control)
    (cursor : Cursor)
    (done rest : Text) :
    (driver anchor ⟨control, cursor⟩).moveTo done.length (anchor.advanceOver done) =
      driver anchor ⟨control, .between anchor done rest⟩ := by
  simp only [driver, Driver.moveTo, offset_between, Nat.add_sub_cancel_left]
  rfl

/-- Counting a brace changes the registers as it changes the control. -/
theorem brace_driver
    (anchor : Position)
    (control : Control)
    (cursor : Cursor)
    (opening : Bool)
    (code : Event) :
    (driver anchor ⟨control, cursor⟩).brace opening code =
      ((control.brace opening code).1,
        driver anchor ⟨(control.brace opening code).2, cursor⟩) := by
  obtain ⟨mode, holes⟩ := control
  cases holes with
  | nil =>
      rfl
  | cons hole outer =>
      cases opening with
      | true =>
          cases mode <;> rfl
      | false =>
          obtain ⟨kind, token, depth⟩ := hole
          cases depth with
          | zero => rfl
          | succ depth => cases mode <;> rfl

/-- The driver of a scan reacts to a transition as the control of the scan does. -/
theorem react?_driver
    (cursor : scan.cursor = .between anchor done (piece ++ later))
    (begun : scan.control.HasBegun anchor done (piece ++ later))
    (classified : scan.transition dialect = transition)
    (covers : transition.covered (piece ++ later) = piece.length)
    (code : Event) :
    (scan.driver anchor).react? (done ++ (piece ++ later)) transition piece.length
        (anchor.advanceOver (done ++ piece)) code =
      let reaction :=
        scan.control.react transition scan.cursor (.between anchor (done ++ piece) later) code
      some (reaction.1, driver anchor ⟨reaction.2, scan.cursor⟩) := by
  have index : (scan.driver anchor).index = done.length := by
    simp [driver, offset, cursor, Cursor.between, Position.offset_advanceOver]
  have fits := fits_transition dialect scan
  rw [classified] at fits
  obtain ⟨control, here⟩ := scan
  dsimp only at cursor begun index
  subst cursor
  cases transition with
  | stay =>
      obtain ⟨mode, holes⟩ := control
      cases mode with
      | resting => cases holes <;> rfl
      | inString | inComment => rfl
  | escape | continuation | lineComment | openString =>
      rfl
  | openComment length =>
      have inside : 1 ≤ length ∧ length ≤ (piece ++ later).length :=
        Dialect.length_of_opening (congrArg Transition.openingLength? classified)
      obtain rfl : length = piece.length := by
        simp only [Transition.covered] at covers
        omega
      rfl
  | abandon =>
      obtain ⟨kind, inString⟩ := fits
      obtain ⟨token, mode⟩ := Control.exists_inString inString
      obtain ⟨_, holes⟩ := control
      cases mode
      cases holes <;> rfl
  | closeString length emit =>
      obtain ⟨kind, inString⟩ := fits
      obtain ⟨token, mode⟩ := Control.exists_inString inString
      have taken : length ≤ piece.length := by
        rw [transition, inString] at classified
        have inside : 1 ≤ length ∧ length ≤ (piece ++ later).length :=
          Dialect.length_of_closeString classified
        simp only [Transition.covered] at covers
        omega
      obtain ⟨_, holes⟩ := control
      cases mode
      have closes :=
        Control.closeToken?_driver kind emit (begun.placed token List.mem_cons_self)
          (begun.opened token List.mem_cons_self) taken index
      refine (congrArg (Option.map _) closes).trans ?_
      cases holes <;> rfl
  | closeComment length =>
      obtain ⟨token, mode⟩ := Control.exists_inComment fits
      obtain ⟨_, holes⟩ := control
      cases mode
      have slices := (begun.placed token List.mem_cons_self).slice?
      rw [← index] at slices
      refine (congrArg (Option.map _) slices).trans ?_
      cases holes <;> rfl
  | openHole =>
      obtain ⟨kind, inString⟩ := fits
      obtain ⟨token, mode⟩ := Control.exists_inString inString
      obtain ⟨_, holes⟩ := control
      cases mode
      rfl
  | brace opening =>
      exact congrArg some (brace_driver anchor control _ opening code)

/-- The driver of a scan takes the turn that the scan takes as a step. -/
theorem turn?_driver
    (scan : Scan)
    {char : Char}
    {tail : Text}
    (shape : char :: tail = piece ++ later)
    (cursor : scan.cursor = .between anchor done (piece ++ later))
    (begun : scan.control.HasBegun anchor done (piece ++ later))
    (covers : (scan.transition dialect).covered (piece ++ later) = piece.length) :
    (scan.driver anchor).turn? dialect (done ++ (piece ++ later)) =
      some ⟨scan.driver anchor, scan.transition dialect, piece, (scan.step dialect char).1,
        (scan.step dialect char).2.driver anchor⟩ := by
  have index : (scan.driver anchor).index = done.length := by
    simp [driver, offset, cursor, Cursor.between]
  have position : (scan.driver anchor).position = anchor.advanceOver done := by
    simp [driver, cursor, Cursor.between]
  have here : (done ++ (piece ++ later))[done.length]? = some char := by
    rw [← shape]
    simp
  have transition : (scan.driver anchor).transition dialect (done ++ (piece ++ later)) =
      scan.transition dialect := by
    rw [Driver.transition, index, List.take_left, List.drop_left, Scan.transition, cursor]
    rfl
  have count : (scan.driver anchor).count dialect (done ++ (piece ++ later)) =
      piece.length := by
    rw [Driver.count, transition, index, List.drop_left, covers]
  have slices :
      (done ++ (piece ++ later)).slice? done.length (done.length + piece.length) =
        some piece := by
    rw [← List.append_assoc]
    exact Text.slice?_append done piece later
  have follows : (done ++ (piece ++ later))[done.length + piece.length]? = later.head? := by
    rw [← List.append_assoc, ← List.length_append, List.getElem?_append_right (Nat.le_refl _),
      Nat.sub_self, List.head?_eq_getElem?]
  have reacts := react?_driver cursor begun rfl covers
    (.code char (anchor.advanceOver done) later.head?)
  simp only [Driver.turn?, index, here, transition, count, slices, follows, position,
    ← Position.advanceOver_append, Option.bind_eq_bind, Option.bind_some, reacts]
  rw [← List.length_append, moveTo_driver _ _ _ _ later]
  obtain ⟨control, stands⟩ := scan
  dsimp only at cursor
  subst cursor
  have stepped :
      step dialect ⟨control, .between anchor done (piece ++ later)⟩ char = _ :=
    step_eq_react rfl covers
  rw [stepped]
  rfl

/-- From the driver of a scan the loop runs through the drivers of the scans on the way, and it
yields the events of the scan. -/
theorem exists_turns?_driver
    (control : Control)
    (done rest : Text)
    (begun : control.HasBegun anchor done rest) :
    ∃ turns final,
      (driver anchor ⟨control, .between anchor done rest⟩).turns? dialect (done ++ rest) =
          some (turns, final) ∧
        turns.map Driver.Turn.before ++ [final] =
          (visited dialect ⟨control, .between anchor done rest⟩).map (driver anchor) ∧
        turns.flatMap Driver.Turn.events =
          events dialect ⟨control, .between anchor done rest⟩ := by
  have index : (driver anchor ⟨control, .between anchor done rest⟩).index = done.length := by
    simp [driver]
  cases rest with
  | nil =>
      refine ⟨[], driver anchor ⟨control, .between anchor done []⟩, ?_, ?_, ?_⟩
      · rw [Driver.turns?, if_neg (by simp [index])]
      · rw [visited_between_nil]
        rfl
      · rw [events_between_nil]
        rfl
  | cons char tail =>
      obtain ⟨piece, later, events, next, shape, nonempty, covers, move, stepped⟩ :=
        exists_move_covered dialect anchor control done char tail
      have shorter := Text.length_lt_of_eq_append shape nonempty
      have inside :
          (driver anchor ⟨control, .between anchor done (char :: tail)⟩).index <
            (done ++ (char :: tail)).length := by
        simp [index]
      rw [shape] at begun
      have turned :=
        turn?_driver ⟨control, .between anchor done (piece ++ later)⟩ shape rfl begun covers
      rw [← shape, stepped] at turned
      obtain ⟨turn, taken, begins, produced, goesOn⟩ :
          ∃ turn,
            (driver anchor ⟨control, .between anchor done (char :: tail)⟩).turn? dialect
                (done ++ (char :: tail)) =
              some turn ∧
            turn.before = driver anchor ⟨control, .between anchor done (char :: tail)⟩ ∧
            turn.events = events ∧
            turn.after = driver anchor ⟨next, .between anchor (done ++ piece) later⟩ :=
        ⟨_, turned, rfl, rfl, rfl⟩
      obtain ⟨turns, final, runs, passed, yields⟩ :=
        exists_turns?_driver next (done ++ piece) later (begun.move nonempty move)
      rw [List.append_assoc, ← shape] at runs
      refine ⟨turn :: turns, final, ?_, ?_, ?_⟩
      · rw [Driver.turns?_of_turn? inside taken, goesOn, runs]
        rfl
      · rw [visited_between_cons, stepped, List.map_cons, List.map_cons, ← passed, begins]
        rfl
      · rw [events_between_cons, stepped, List.flatMap_cons, yields, produced]
termination_by rest.length

end Scan

theorem Driver.ofAnchor_eq (anchor : Position) (block : Text) :
    ofAnchor anchor = Scan.driver anchor (.ofBlock anchor block) := by
  simp [ofAnchor, Scan.driver, Scan.ofBlock, Scan.offset, Cursor.ofBlock, Control.initial,
    Control.lexicalState, Mode.token?]

/-- The loop over a block stands where the scan of the block stands, and yields its events. -/
theorem Dialect.exists_turns?_ofAnchor
    (dialect : Dialect)
    (anchor : Position)
    (block : Text) :
    ∃ turns final,
      (Driver.ofAnchor anchor).turns? dialect block = some (turns, final) ∧
        turns.map Driver.Turn.before ++ [final] =
          (dialect.visited anchor block).map (Scan.driver anchor) ∧
        turns.flatMap Driver.Turn.events = dialect.events anchor block := by
  rw [Driver.ofAnchor_eq anchor block]
  exact Scan.exists_turns?_driver .initial [] block (Control.initial_hasBegun anchor [] block)

end LocalizationScan
