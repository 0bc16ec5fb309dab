import LocalizationScan.Proofs.Lexical.Transition
import LocalizationScan.Proofs.Scan.Cursor

namespace LocalizationScan

/-!
# Moves of a scan

One step of a scan is one of fourteen moves.  A move takes a piece off the
start of what is left, yields events and changes the control.  Everything that
holds along a scan is proved from the moves: a run is a chain of them, and the
events of a scan are those of its run.
-/

/-- What one step does with the piece at the start of what is left, which begins at the
position and is followed by the later text. -/
inductive Move (dialect : Dialect) (before : Option Char) (position : Position) :
    (piece later : Text) → Control → List Event → Control → Prop where
  | code
      {char : Char}
      {later : Text}
      {holes : List Hole}
      (classified :
        dialect.classify (Control.lexicalState ⟨.resting, holes⟩) before (char :: later) =
          .stay) :
      Move dialect before position [char] later
        ⟨.resting, holes⟩
        [.code char position later.head?]
        ⟨.resting, holes⟩
  | lineComment
      {piece later : Text}
      {holes : List Hole}
      (classified :
        dialect.classify (Control.lexicalState ⟨.resting, holes⟩) before (piece ++ later) =
          .lineComment)
      (inLine : '\n' ∉ piece)
      (lineEnd : later = [] ∨ later.head? = some '\n') :
      Move dialect before position piece later
        ⟨.resting, holes⟩ [.lineComment] ⟨.resting, holes⟩
  | openString
      {kind : StringKind}
      {piece later : Text}
      {holes : List Hole}
      (classified :
        dialect.classify (Control.lexicalState ⟨.resting, holes⟩) before (piece ++ later) =
          .openString kind piece.length) :
      Move dialect before position piece later
        ⟨.resting, holes⟩
        [.stringOpened kind position]
        ⟨.inString kind ⟨position, piece ++ later, piece.length⟩, holes⟩
  | openComment
      {marker later : Text}
      {holes : List Hole}
      (csharp : dialect = .csharp marker) :
      Move dialect before position ['/', '*'] later
        ⟨.resting, holes⟩
        [.commentOpened]
        ⟨.inComment ⟨position, ['/', '*'] ++ later, 2⟩, holes⟩
  | continuation
      {piece later : Text}
      {holes : List Hole}
      (visualBasic : dialect = .visualBasic)
      (continued : VisualBasic.IsContinuation piece) :
      Move dialect before position piece later
        ⟨.resting, holes⟩ [.continuation] ⟨.resting, holes⟩
  /-- An opening brace in the code of a hole. -/
  | openBrace
      {marker later : Text}
      {hole : Hole}
      {outer : List Hole}
      (csharp : dialect = .csharp marker) :
      Move dialect before position ['\x7b'] later
        ⟨.resting, hole :: outer⟩
        [.code '\x7b' position later.head?]
        ⟨.resting, { hole with depth := hole.depth + 1 } :: outer⟩
  /-- A closing brace that matches one in the code of the hole. -/
  | closeBrace
      {marker later : Text}
      {hole : Hole}
      {outer : List Hole}
      (csharp : dialect = .csharp marker)
      (matched : hole.depth ≠ 0) :
      Move dialect before position ['\x7d'] later
        ⟨.resting, hole :: outer⟩
        [.code '\x7d' position later.head?]
        ⟨.resting, { hole with depth := hole.depth - 1 } :: outer⟩
  /-- The closing brace of a hole. -/
  | closeHole
      {marker later : Text}
      {hole : Hole}
      {outer : List Hole}
      (csharp : dialect = .csharp marker)
      (unmatched : hole.depth = 0) :
      Move dialect before position ['\x7d'] later
        ⟨.resting, hole :: outer⟩
        [.holeClosed]
        ⟨.inString hole.kind hole.token, outer⟩
  | stringText
      {kind : StringKind}
      {token : OpenToken}
      {piece later : Text}
      {holes : List Hole}
      (classified :
        dialect.classify (.string kind) before (piece ++ later) = .stay ∨
          dialect.classify (.string kind) before (piece ++ later) = .escape 2)
      (short : piece.length ≤ 2) :
      Move dialect before position piece later
        ⟨.inString kind token, holes⟩ [] ⟨.inString kind token, holes⟩
  | closeString
      {kind : StringKind}
      {token : OpenToken}
      {emit : Bool}
      {piece later : Text}
      {holes : List Hole}
      (classified :
        dialect.classify (.string kind) before (piece ++ later) =
          .closeString piece.length emit) :
      Move dialect before position piece later
        ⟨.inString kind token, holes⟩
        [.stringClosed
          (Control.closeToken ⟨.inString kind token, holes⟩ kind token piece.length emit
            (position.advanceOver piece))]
        ⟨.resting, holes⟩
  /-- A character at which a string cannot go on. -/
  | abandon
      {kind : StringKind}
      {token : OpenToken}
      {char : Char}
      {later : Text}
      {holes : List Hole}
      (classified : dialect.classify (.string kind) before (char :: later) = .abandon)
      (noIdentifier : Text.isIdentifierChar char = false) :
      Move dialect before position [char] later
        ⟨.inString kind token, holes⟩
        [.stringAbandoned, .code char position later.head?]
        ⟨.resting, holes⟩
  | openHole
      {marker later : Text}
      {kind : StringKind}
      {token : OpenToken}
      {holes : List Hole}
      (csharp : dialect = .csharp marker)
      (interpolated : kind.isInterpolated = true) :
      Move dialect before position ['\x7b'] later
        ⟨.inString kind token, holes⟩
        []
        ⟨.resting, ⟨kind, token, 0⟩ :: holes⟩
  | commentText
      {token : OpenToken}
      {char : Char}
      {later : Text}
      {holes : List Hole}
      (classified : dialect.classify .comment before (char :: later) = .stay) :
      Move dialect before position [char] later
        ⟨.inComment token, holes⟩ [] ⟨.inComment token, holes⟩
  | closeComment
      {marker later : Text}
      {token : OpenToken}
      {holes : List Hole}
      (csharp : dialect = .csharp marker) :
      Move dialect before position ['*', '/'] later
        ⟨.inComment token, holes⟩
        [.commentClosed (token.textTo (position.advanceOver ['*', '/']))]
        ⟨.resting, holes⟩

namespace Transition

/-- A transition that asks for a piece of what is left covers it. -/
theorem covered_of_length
    {transition : Transition}
    {piece later : Text}
    (nonempty : piece ≠ [])
    (asks :
      transition.covered (piece ++ later) =
        max 1 (min piece.length (piece ++ later).length)) :
    transition.covered (piece ++ later) = piece.length := by
  have positive := List.length_pos_iff.mpr nonempty
  rw [asks, List.length_append]
  omega

/-- A line comment covers all characters before the next line feed. -/
theorem covered_lineComment
    {piece later : Text}
    (nonempty : piece ≠ [])
    (inLine : '\n' ∉ piece)
    (lineEnd : later = [] ∨ later.head? = some '\n') :
    lineComment.covered (piece ++ later) = piece.length := by
  have inLineAll : ∀ char ∈ piece, decide (char ≠ '\n') = true := by
    intro char member
    have different : char ≠ '\n' := by
      rintro rfl
      exact inLine member
    simp [different]
  have stops : later.takeWhile (fun char => decide (char ≠ '\n')) = [] := by
    cases later with
    | nil =>
        rfl
    | cons first rest =>
        rcases lineEnd with empty | feed
        · cases empty
        · cases feed
          rfl
  apply covered_of_length nonempty
  simp only [covered]
  rw [List.takeWhile_append_of_pos inLineAll, stops, List.append_nil]

end Transition

namespace Scan

variable {dialect : Dialect} {anchor : Position} {control : Control}
  {done piece later : Text} {char : Char}

theorem covered_le
    (transition : Transition)
    {rest : Text}
    (nonempty : rest ≠ []) :
    transition.covered rest ≤ rest.length :=
  Nat.max_le.mpr ⟨List.length_pos_iff.mpr nonempty, Nat.min_le_right _ _⟩

/-- A scan advances when its step is a move over a piece of what is left. -/
def Advances
    (dialect : Dialect)
    (anchor : Position)
    (control : Control)
    (done : Text)
    (char : Char)
    (tail : Text) :
    Prop :=
  ∃ piece later events next,
    char :: tail = piece ++ later ∧ piece ≠ [] ∧
      Move dialect done.getLast? (anchor.advanceOver done) piece later control events next ∧
      step dialect ⟨control, .between anchor done (char :: tail)⟩ char =
        (events, ⟨next, .between anchor (done ++ piece) later⟩)

/-- A step is the reaction to its transition, with the cursor behind the covered piece. -/
theorem step_eq_react
    {transition : Transition}
    (classified :
      dialect.classify control.lexicalState done.getLast? (piece ++ later) = transition)
    (covers : transition.covered (piece ++ later) = piece.length) :
    step dialect ⟨control, .between anchor done (piece ++ later)⟩ char =
      let reaction :=
        control.react transition
          (.between anchor done (piece ++ later))
          (.between anchor (done ++ piece) later)
          (.code char (anchor.advanceOver done) later.head?)
      (reaction.1, ⟨reaction.2, .between anchor (done ++ piece) later⟩) := by
  have next :
      nextCursor dialect ⟨control, .between anchor done (piece ++ later)⟩ =
        .between anchor (done ++ piece) later := by
    rw [← Cursor.skip_between, ← covers, ← classified]
    rfl
  simp only [step, next]
  rw [← classified]
  rfl

/-- A scan advances when the reaction to its transition is a move. -/
theorem advances_of_react
    (piece : Text)
    {transition : Transition}
    {tail : Text}
    (shape : char :: tail = piece ++ later)
    (nonempty : piece ≠ [])
    (classified :
      dialect.classify control.lexicalState done.getLast? (piece ++ later) = transition)
    (covers : transition.covered (piece ++ later) = piece.length)
    (move :
      let reaction :=
        control.react transition
          (.between anchor done (piece ++ later))
          (.between anchor (done ++ piece) later)
          (.code char (anchor.advanceOver done) later.head?)
      Move dialect done.getLast? (anchor.advanceOver done) piece later
        control reaction.1 reaction.2) :
    Advances dialect anchor control done char tail := by
  refine ⟨piece, later, _, _, shape, nonempty, move, ?_⟩
  rw [shape]
  exact step_eq_react classified covers

/-- A line comment takes the scan to the end of its line. -/
theorem advances_of_lineComment
    {tail : Text}
    {holes : List Hole}
    (classified :
      dialect.classify (Control.lexicalState ⟨.resting, holes⟩) done.getLast?
          (char :: tail) =
        .lineComment)
    (inLine : char ≠ '\n') :
    Advances dialect anchor ⟨.resting, holes⟩ done char tail := by
  obtain ⟨piece, pieceShape⟩ :
      ∃ piece, (char :: tail).takeWhile (· ≠ '\n') = piece := ⟨_, rfl⟩
  obtain ⟨later, laterShape⟩ :
      ∃ later, (char :: tail).dropWhile (· ≠ '\n') = later := ⟨_, rfl⟩
  have shape : char :: tail = piece ++ later := by
    rw [← pieceShape, ← laterShape, List.takeWhile_append_dropWhile]
  have nonempty : piece ≠ [] := by
    rw [← pieceShape]
    simp [inLine]
  have pieceInLine : '\n' ∉ piece := by
    intro member
    rw [← pieceShape] at member
    have := List.all_eq_true.mp (List.all_takeWhile) _ member
    simp at this
  have lineEnd : later = [] ∨ later.head? = some '\n' := by
    cases later with
    | nil =>
        exact .inl rfl
    | cons first rest =>
        have stopped := List.head_dropWhile_not (· ≠ '\n') (l := char :: tail)
          (by rw [laterShape]; simp)
        simp only [laterShape, List.head_cons] at stopped
        have feed : first = '\n' :=
          Decidable.not_not.mp (of_decide_eq_false stopped)
        simp [feed]
  rw [shape] at classified
  exact advances_of_react _ shape nonempty classified
    (Transition.covered_lineComment nonempty pieceInLine lineEnd)
    (.lineComment classified pieceInLine lineEnd)

/-- Code of C# advances by the move that its first character begins. -/
theorem advances_of_csharpCode
    {marker tail : Text}
    {holes : List Hole}
    (classified :
      (Dialect.csharp marker).classify (Control.lexicalState ⟨.resting, holes⟩)
          done.getLast? (char :: tail) =
        CSharp.classifyCode (char :: tail)) :
    Advances (.csharp marker) anchor ⟨.resting, holes⟩ done char tail := by
  rcases CSharp.classifyCode_cases char tail with
      stays | ⟨comments, inLine⟩ | ⟨opens, later, shape⟩ |
        ⟨kind, piece, later, shape, nonempty, opens⟩
  · rw [stays] at classified
    exact advances_of_react [char] rfl (by simp) classified
      (Transition.covered_of_length (by simp) rfl) (.code classified)
  · rw [comments] at classified
    exact advances_of_lineComment classified inLine
  · rw [opens, shape] at classified
    exact advances_of_react _ shape (by simp) classified
      (Transition.covered_of_length (by simp) rfl) (.openComment rfl)
  · rw [opens, shape] at classified
    exact advances_of_react _ shape nonempty classified
      (Transition.covered_of_length nonempty rfl) (.openString classified)

/-- The braces of a hole are counted, and the one that matches its opening ends it. -/
theorem advances_of_csharpHole
    {marker tail : Text}
    {hole : Hole}
    {outer : List Hole} :
    Advances (.csharp marker) anchor ⟨.resting, hole :: outer⟩ done char tail := by
  have inHole :
      ∀ rest,
        (Dialect.csharp marker).classify (Control.lexicalState ⟨.resting, hole :: outer⟩)
            done.getLast? rest =
          CSharp.classifyHole rest := fun _ => rfl
  rcases CSharp.classifyHole_cases char tail with
      ⟨rfl, opens⟩ | ⟨rfl, closes⟩ | same
  · exact advances_of_react ['\x7b'] rfl (by simp) ((inHole _).trans opens)
      (Transition.covered_of_length (by simp) rfl) (.openBrace rfl)
  · refine advances_of_react ['\x7d'] rfl (by simp) ((inHole _).trans closes)
      (Transition.covered_of_length (by simp) rfl) ?_
    by_cases unmatched : hole.depth = 0
    · simp only [Control.react, Control.brace, unmatched, ↓reduceIte]
      exact .closeHole rfl unmatched
    · simp only [Control.react, Control.brace, unmatched, ↓reduceIte]
      exact .closeBrace rfl unmatched
  · exact advances_of_csharpCode ((inHole _).trans same)

theorem advances_of_visualBasicCode
    {tail : Text}
    {holes : List Hole} :
    Advances .visualBasic anchor ⟨.resting, holes⟩ done char tail := by
  have inCode :
      ∀ rest,
        Dialect.visualBasic.classify (Control.lexicalState ⟨.resting, holes⟩)
            done.getLast? rest =
          VisualBasic.classifyCode done.getLast? rest := by
    intro rest
    cases holes <;> rfl
  have classified := inCode (char :: tail)
  rcases VisualBasic.classifyCode_cases done.getLast? char tail with
      stays | ⟨comments, inLine⟩ | ⟨rfl, opens⟩ |
        ⟨piece, later, shape, continued, continues⟩
  · rw [stays] at classified
    exact advances_of_react [char] rfl (by simp) classified
      (Transition.covered_of_length (by simp) rfl) (.code classified)
  · rw [comments] at classified
    exact advances_of_lineComment classified inLine
  · rw [opens] at classified
    exact advances_of_react ['"'] rfl (by simp) classified
      (Transition.covered_of_length (by simp) rfl) (.openString classified)
  · rw [continues, shape] at classified
    exact advances_of_react _ shape continued.ne_nil classified
      (Transition.covered_of_length continued.ne_nil rfl) (.continuation rfl continued)

/-- An escape covers two characters, or the last one of the text. -/
theorem advances_of_escape
    {kind : StringKind}
    {token : OpenToken}
    {tail : Text}
    {holes : List Hole}
    (classified :
      dialect.classify (.string kind) done.getLast? (char :: tail) = .escape 2) :
    Advances dialect anchor ⟨.inString kind token, holes⟩ done char tail := by
  cases tail with
  | nil =>
      -- At the end of the text a backslash covers itself only.
      exact advances_of_react [char] rfl (by simp) classified
        rfl (.stringText (.inr classified) (by simp))
  | cons second tail =>
      exact advances_of_react [char, second] rfl (by simp) classified
        (Transition.covered_of_length (by simp) rfl)
        (.stringText (.inr classified) (by simp))

theorem advances_of_stringStay
    {kind : StringKind}
    {token : OpenToken}
    {tail : Text}
    {holes : List Hole}
    (classified :
      dialect.classify (.string kind) done.getLast? (char :: tail) = .stay) :
    Advances dialect anchor ⟨.inString kind token, holes⟩ done char tail :=
  advances_of_react [char] rfl (by simp) classified
    (Transition.covered_of_length (by simp) rfl)
    (.stringText (.inl classified) (by simp))

/-- The closing delimiter of a string takes the scan behind it. -/
theorem advances_of_closeString
    (piece : Text)
    {kind : StringKind}
    {token : OpenToken}
    {emit : Bool}
    {tail : Text}
    {holes : List Hole}
    (shape : char :: tail = piece ++ later)
    (nonempty : piece ≠ [])
    (classified :
      dialect.classify (.string kind) done.getLast? (char :: tail) =
        .closeString piece.length emit) :
    Advances dialect anchor ⟨.inString kind token, holes⟩ done char tail := by
  rw [shape] at classified
  refine advances_of_react _ shape nonempty classified
    (Transition.covered_of_length nonempty rfl) ?_
  simp only [Control.react, Cursor.between, Position.advanceOver_append]
  exact .closeString classified

theorem advances_of_inString
    (dialect : Dialect)
    {kind : StringKind}
    {token : OpenToken}
    {tail : Text}
    {holes : List Hole} :
    Advances dialect anchor ⟨.inString kind token, holes⟩ done char tail := by
  cases dialect with
  | csharp marker =>
      rcases CSharp.classifyString_cases kind char tail with
          stays | escapes | ⟨emit, closes⟩ | ⟨abandons, noIdentifier⟩ |
            ⟨rfl, interpolated, opens⟩
      · exact advances_of_stringStay stays
      · exact advances_of_escape escapes
      · exact advances_of_closeString [char] rfl (by simp) closes
      · exact advances_of_react [char] rfl (by simp) abandons
          (Transition.covered_of_length (by simp) rfl) (.abandon abandons noIdentifier)
      · exact advances_of_react ['\x7b'] rfl (by simp) opens
          (Transition.covered_of_length (by simp) rfl) (.openHole rfl interpolated)
  | visualBasic =>
      rcases VisualBasic.classifyString_cases char tail with
          stays | escapes | ⟨emit, piece, later, shape, nonempty, closes⟩
      · exact advances_of_stringStay stays
      · exact advances_of_escape escapes
      · exact advances_of_closeString _ shape nonempty closes

theorem advances_of_inComment
    (dialect : Dialect)
    {token : OpenToken}
    {tail : Text}
    {holes : List Hole} :
    Advances dialect anchor ⟨.inComment token, holes⟩ done char tail := by
  cases dialect with
  | csharp marker =>
      rcases CSharp.classifyComment_cases char tail with stays | ⟨closes, later, shape⟩
      · exact advances_of_react [char] rfl (by simp) stays
          (Transition.covered_of_length (by simp) rfl) (.commentText stays)
      · rw [shape] at closes
        refine advances_of_react _ shape (by simp) closes
          (Transition.covered_of_length (by simp) rfl) ?_
        simp only [Control.react, Cursor.between, Position.advanceOver_append]
        exact .closeComment rfl
  | visualBasic =>
      exact advances_of_react [char] rfl (by simp) rfl
        (Transition.covered_of_length (by simp) rfl) (.commentText rfl)

/-- Every step is a move. -/
theorem advances
    (dialect : Dialect)
    (anchor : Position)
    (control : Control)
    (done : Text)
    (char : Char)
    (tail : Text) :
    Advances dialect anchor control done char tail := by
  obtain ⟨mode, holes⟩ := control
  cases mode with
  | resting =>
      cases dialect with
      | csharp marker =>
          cases holes with
          | nil =>
              exact advances_of_csharpCode rfl
          | cons hole outer =>
              exact advances_of_csharpHole
      | visualBasic =>
          exact advances_of_visualBasicCode
  | inString kind token =>
      exact advances_of_inString dialect
  | inComment token =>
      exact advances_of_inComment dialect

end Scan

/-- A chain of moves from a control to the end of a block, with the events that it yields. -/
inductive Run (dialect : Dialect) (anchor : Position) :
    Control → (done rest : Text) → List Event → Prop where
  | finished
      {control : Control}
      {done : Text} :
      Run dialect anchor control done [] []
  | move
      {control next : Control}
      {done piece later : Text}
      {events laterEvents : List Event}
      (nonempty : piece ≠ [])
      (here :
        Move dialect done.getLast? (anchor.advanceOver done) piece later control events next)
      (behind : Run dialect anchor next (done ++ piece) later laterEvents) :
      Run dialect anchor control done (piece ++ later) (events ++ laterEvents)

namespace Scan

variable {dialect : Dialect} {anchor : Position} {control : Control}
  {done piece later : Text} {char : Char}

theorem events_between_nil
    (dialect : Dialect)
    (anchor : Position)
    (control : Control)
    (done : Text) :
    events dialect ⟨control, .between anchor done []⟩ = [] := by
  rw [events]
  rfl

theorem events_between_cons
    (dialect : Dialect)
    (anchor : Position)
    (control : Control)
    (done : Text)
    (char : Char)
    (tail : Text) :
    events dialect ⟨control, .between anchor done (char :: tail)⟩ =
      (step dialect ⟨control, .between anchor done (char :: tail)⟩ char).1 ++
        events dialect
          (step dialect ⟨control, .between anchor done (char :: tail)⟩ char).2 := by
  conv => lhs; rw [events]
  rfl

/-- The events of a scan are those of the reaction to its transition and those behind it. -/
theorem events_eq_react
    (dialect : Dialect)
    (piece : Text)
    {transition : Transition}
    {tail : Text}
    (shape : char :: tail = piece ++ later)
    (classified :
      dialect.classify control.lexicalState done.getLast? (piece ++ later) = transition)
    (covers : transition.covered (piece ++ later) = piece.length) :
    events dialect ⟨control, .between anchor done (piece ++ later)⟩ =
      let reaction :=
        control.react transition
          (.between anchor done (piece ++ later))
          (.between anchor (done ++ piece) later)
          (.code char (anchor.advanceOver done) later.head?)
      reaction.1 ++
        events dialect ⟨reaction.2, .between anchor (done ++ piece) later⟩ := by
  conv => lhs; rw [← shape, events_between_cons, shape]
  rw [step_eq_react classified covers]

/-- The events of a scan are those of a run to the end of the block. -/
theorem run_events
    (dialect : Dialect)
    (anchor : Position)
    (control : Control)
    (done rest : Text) :
    Run dialect anchor control done rest
      (events dialect ⟨control, .between anchor done rest⟩) := by
  cases rest with
  | nil =>
      rw [events_between_nil]
      exact .finished
  | cons char tail =>
      rw [events_between_cons]
      obtain ⟨piece, later, produced, next, shape, nonempty, move, stepped⟩ :=
        advances dialect anchor control done char tail
      -- Every move takes a piece of what is left, on which the recursion is.
      have shorter := Text.length_lt_of_eq_append shape nonempty
      rw [stepped, shape]
      exact .move nonempty move
        (run_events dialect anchor next (done ++ piece) later)
termination_by rest.length
decreasing_by exact shorter

end Scan

/-- The events of a block are those of a run over the whole block. -/
theorem Dialect.run_events
    (dialect : Dialect)
    (anchor : Position)
    (block : Text) :
    Run dialect anchor .initial [] block (dialect.events anchor block) :=
  Scan.run_events dialect anchor .initial [] block

end LocalizationScan
