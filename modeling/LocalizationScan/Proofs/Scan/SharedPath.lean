import LocalizationScan.Proofs.Scan.Extension

namespace LocalizationScan

/-!
# Scans that go the same way

The scan of a block and that of the block with more text behind it take the same
steps as long as their transitions are the same and cover a start of the block.
They part at the end of the block at the latest: at a transition that depends on
what follows, at a line comment up to the end, or at an escape that is cut off
there.
-/

/-- Whether a transition covers the same start of a text whatever follows the text. -/
def Transition.CoversStart (transition : Transition) (rest : Text) : Prop :=
  ∃ piece later,
    rest = piece ++ later ∧ piece ≠ [] ∧
      ∀ more, transition.covered (piece ++ (later ++ more)) = piece.length

namespace Transition

variable {transition : Transition} {char : Char} {tail rest piece later : Text}

theorem CoversStart.of_piece
    (shape : rest = piece ++ later)
    (nonempty : piece ≠ [])
    (asks :
      ∀ text : Text, transition.covered text = max 1 (min piece.length text.length)) :
    transition.CoversStart rest :=
  ⟨piece, later, shape, nonempty, fun _ => covered_of_length nonempty (asks _)⟩

theorem CoversStart.of_char
    (asks : ∀ text : Text, transition.covered text = max 1 (min 1 text.length)) :
    transition.CoversStart (char :: tail) :=
  ⟨[char], tail, rfl, by simp, fun _ => covered_of_length (by simp) (asks _)⟩

/-- A line comment covers the rest of its line, or all that is left. -/
theorem coversStart_lineComment
    (inLine : char ≠ '\n') :
    lineComment.CoversStart (char :: tail) ∨ '\n' ∉ char :: tail := by
  by_cases breaksLine : '\n' ∈ char :: tail
  · obtain ⟨piece, later, shape, before⟩ := List.eq_append_cons_of_mem breaksLine
    have nonempty : piece ≠ [] := by
      rintro rfl
      exact inLine (List.cons.inj shape).1
    exact .inl ⟨piece, '\n' :: later, shape, nonempty, fun _ =>
      covered_lineComment nonempty before (.inr rfl)⟩
  · exact .inr breaksLine

end Transition

theorem CSharp.covers_classifyCode (char : Char) (tail : Text) :
    (classifyCode (char :: tail)).CoversStart (char :: tail) ∨
      classifyCode (char :: tail) = .lineComment ∧ '\n' ∉ char :: tail := by
  rcases classifyCode_cases char tail with
      same | ⟨same, inLine⟩ | ⟨same, later, shape⟩ | ⟨kind, piece, later, shape, nonempty, same⟩
  · rw [same]
    exact .inl (.of_char fun _ => rfl)
  · rw [same]
    exact (Transition.coversStart_lineComment inLine).imp_right fun noBreak => ⟨rfl, noBreak⟩
  · rw [same]
    exact .inl (.of_piece shape (by simp) fun _ => rfl)
  · rw [same]
    exact .inl (.of_piece shape nonempty fun _ => rfl)

theorem VisualBasic.covers_classifyCode (before : Option Char) (char : Char) (tail : Text) :
    (classifyCode before (char :: tail)).CoversStart (char :: tail) ∨
      classifyCode before (char :: tail) = .lineComment ∧ '\n' ∉ char :: tail := by
  rcases classifyCode_cases before char tail with
      same | ⟨same, inLine⟩ | ⟨-, same⟩ | ⟨piece, later, shape, continued, same⟩
  · rw [same]
    exact .inl (.of_char fun _ => rfl)
  · rw [same]
    exact (Transition.coversStart_lineComment inLine).imp_right fun noBreak => ⟨rfl, noBreak⟩
  · rw [same]
    exact .inl (.of_char fun _ => rfl)
  · rw [same]
    exact .inl (.of_piece shape continued.ne_nil fun _ => rfl)

theorem Transition.covers_escape (char : Char) (tail : Text) :
    (escape 2).CoversStart (char :: tail) ∨ tail = [] := by
  cases tail with
  | nil =>
      exact .inr rfl
  | cons second others =>
      exact .inl ⟨[char, second], others, rfl, by simp, fun _ =>
        covered_of_length (by simp) rfl⟩

/-- A transition covers a start of what is left, whatever follows the block, unless it is a
line comment to the end of the block or an escape cut off there. -/
theorem Dialect.covers_classify
    (dialect : Dialect)
    (state : LexicalState)
    (before : Option Char)
    (char : Char)
    (tail : Text) :
    (dialect.classify state before (char :: tail)).CoversStart (char :: tail) ∨
      (dialect.classify state before (char :: tail) = .lineComment ∧ state.isCode = true ∧
          '\n' ∉ char :: tail) ∨
        dialect.classify state before (char :: tail) = .escape 2 ∧ state.isCode = false ∧
          tail = [] := by
  cases dialect with
  | csharp marker =>
      cases state with
      | code =>
          exact (CSharp.covers_classifyCode char tail).imp_right fun comments =>
            .inl ⟨comments.1, rfl, comments.2⟩
      | hole =>
          rcases CSharp.classifyHole_cases char tail with ⟨-, same⟩ | ⟨-, same⟩ | same
          · simp only [classify, CSharp.classify, same]
            exact .inl (.of_char fun _ => rfl)
          · simp only [classify, CSharp.classify, same]
            exact .inl (.of_char fun _ => rfl)
          · simp only [classify, CSharp.classify, same]
            exact (CSharp.covers_classifyCode char tail).imp_right fun comments =>
              .inl ⟨comments.1, rfl, comments.2⟩
      | comment =>
          rcases CSharp.classifyComment_cases char tail with same | ⟨same, later, shape⟩
          · simp only [classify, CSharp.classify, same]
            exact .inl (.of_char fun _ => rfl)
          · simp only [classify, CSharp.classify, same]
            exact .inl (.of_piece shape (by simp) fun _ => rfl)
      | string kind =>
          rcases CSharp.classifyString_cases kind char tail with
              same | same | ⟨emit, same⟩ | ⟨same, -⟩ | ⟨-, -, same⟩
          all_goals
            simp only [classify, CSharp.classify, same]
          · exact .inl (.of_char fun _ => rfl)
          · exact (Transition.covers_escape char tail).imp_right fun last =>
              .inr ⟨trivial, rfl, last⟩
          · exact .inl (.of_char fun _ => rfl)
          · exact .inl (.of_char fun _ => rfl)
          · exact .inl (.of_char fun _ => rfl)
  | visualBasic =>
      cases state with
      | code | hole =>
          exact (VisualBasic.covers_classifyCode before char tail).imp_right fun comments =>
            .inl ⟨comments.1, rfl, comments.2⟩
      | comment =>
          exact .inl (.of_char fun _ => rfl)
      | string kind =>
          rcases VisualBasic.classifyString_cases char tail with
              same | same | ⟨emit, piece, later, shape, nonempty, same⟩
          all_goals
            simp only [classify, VisualBasic.classify, same]
          · exact .inl (.of_char fun _ => rfl)
          · exact (Transition.covers_escape char tail).imp_right fun last =>
              .inr ⟨trivial, rfl, last⟩
          · exact .inl (.of_piece shape nonempty fun _ => rfl)

namespace Scan

variable {dialect : Dialect} {anchor : Position} {control : Control}
  {done piece later : Text} {char : Char}

/-- A scan ends as the scan behind its first transition does. -/
theorem finalControl?_eq_react
    {transition : Transition}
    {tail : Text}
    (shape : char :: tail = piece ++ later)
    (classified :
      dialect.classify control.lexicalState done.getLast? (piece ++ later) = transition)
    (covers : transition.covered (piece ++ later) = piece.length) :
    finalControl? dialect ⟨control, .between anchor done (piece ++ later)⟩ =
      finalControl? dialect
        ⟨(control.react transition
            (.between anchor done (piece ++ later))
            (.between anchor (done ++ piece) later)
            (.code char (anchor.advanceOver done) later.head?)).2,
          .between anchor (done ++ piece) later⟩ := by
  have stepped :=
    @step_eq_react dialect anchor control done piece later char transition classified covers
  rw [← shape, finalControl?_between_cons, shape, stepped]

/-- A scan whose transition takes all that is left yields what the transition does, and ends
behind it. -/
theorem events_last
    {transition : Transition}
    {tail : Text}
    {produced : List Event}
    {next : Control}
    (classified :
      dialect.classify control.lexicalState done.getLast? (char :: tail) = transition)
    (covers : transition.covered (char :: tail) = (char :: tail).length)
    (reacts :
      ∀ before after code,
        control.react transition before after code = (produced, next)) :
    events dialect ⟨control, .between anchor done (char :: tail)⟩ = produced ∧
      finalControl? dialect ⟨control, .between anchor done (char :: tail)⟩ = some next := by
  have shape : char :: tail = char :: tail ++ [] := (List.append_nil _).symm
  have scanned :=
    @events_eq_react anchor control done [] char dialect (char :: tail) transition tail shape
      (by rw [← shape]; exact classified) (by rw [← shape]; exact covers)
  have last :=
    @finalControl?_eq_react dialect anchor control done (char :: tail) [] char transition tail
      shape (by rw [← shape]; exact classified) (by rw [← shape]; exact covers)
  rw [← shape] at scanned last
  simp only [reacts, events_between_nil, finalControl?_between_nil, List.append_nil]
    at scanned last
  exact ⟨scanned, last⟩

/-- A transition that does not depend on what follows the block yields the same with more
text behind it, and leads to the same control. -/
theorem exists_step_extend
    {transition : Transition}
    {tail more : Text}
    (reaches : control.ReachesTo (anchor.offset + done.length + (char :: tail).length))
    (shape : char :: tail = piece ++ later)
    (sameFollows :
      (Event.code char (anchor.advanceOver done) (later ++ more).head?).normalized =
        (Event.code char (anchor.advanceOver done) later.head?).normalized)
    (classified :
      dialect.classify control.lexicalState done.getLast? (char :: tail) = transition)
    (classifiedLonger :
      dialect.classify control.lexicalState done.getLast? (char :: tail ++ more) = transition)
    (covers : ∀ more, transition.covered (piece ++ (later ++ more)) = piece.length) :
    ∃ next produced producedLonger,
      next.ReachesTo (anchor.offset + (done ++ piece).length + later.length) ∧
        producedLonger.map Event.normalized = produced.map Event.normalized ∧
        finalControl? dialect ⟨control, .between anchor done (char :: tail)⟩ =
          finalControl? dialect ⟨next, .between anchor (done ++ piece) later⟩ ∧
        events dialect ⟨control, .between anchor done (char :: tail)⟩ =
          produced ++ events dialect ⟨next, .between anchor (done ++ piece) later⟩ ∧
        events dialect ⟨control.extend more, .between anchor done (char :: tail ++ more)⟩ =
          producedLonger ++
            events dialect
              ⟨next.extend more, .between anchor (done ++ piece) (later ++ more)⟩ := by
  have whole : anchor.offset + (done ++ piece).length + later.length =
      anchor.offset + done.length + (char :: tail).length := by
    rw [shape, List.length_append, List.length_append]
    omega
  have coversHere : transition.covered (piece ++ later) = piece.length := by
    simpa using covers []
  have shapeLonger : char :: (tail ++ more) = piece ++ (later ++ more) := by
    rw [← List.cons_append, shape, List.append_assoc]
  have inside : (Cursor.between anchor (done ++ piece) later).position.offset ≤
      anchor.offset + done.length + (char :: tail).length := by
    rw [← whole, Cursor.between, Position.offset_advanceOver]
    exact Nat.le_add_right _ _
  have classifiedHere :
      dialect.classify control.lexicalState done.getLast? (piece ++ later) = transition := by
    rw [← shape]
    exact classified
  have classifiedThere :
      dialect.classify (control.extend more).lexicalState done.getLast?
          (piece ++ (later ++ more)) =
        transition := by
    rw [Control.lexicalState_extend, ← shapeLonger]
    exact classifiedLonger
  obtain ⟨sameEvents, sameControl⟩ :=
    @Control.react_extend control more _ transition
      (.between anchor done (piece ++ later)) (.between anchor (done ++ piece) later)
      (.code char (anchor.advanceOver done) later.head?)
      (.code char (anchor.advanceOver done) (later ++ more).head?) reaches inside sameFollows
  have scanned :=
    @events_eq_react anchor control done later char dialect piece transition tail shape
      classifiedHere coversHere
  have scannedLonger :=
    @events_eq_react anchor (control.extend more) done (later ++ more) char dialect piece
      transition (tail ++ more) shapeLonger classifiedThere (covers more)
  have last :=
    @finalControl?_eq_react dialect anchor control done piece later char transition tail shape
      classifiedHere coversHere
  have kept :=
    @Control.ReachesTo.react control _ transition
      (.between anchor done (piece ++ later)) (.between anchor (done ++ piece) later)
      (.code char (anchor.advanceOver done) later.head?) reaches
      (by rw [← shape, Cursor.between, Position.offset_advanceOver])
  obtain ⟨⟨produced, next⟩, reaction⟩ :
      ∃ result,
        control.react transition
          (.between anchor done (piece ++ later)) (.between anchor (done ++ piece) later)
          (.code char (anchor.advanceOver done) later.head?) = result := ⟨_, rfl⟩
  rw [reaction] at sameEvents sameControl scanned last kept
  simp only [Cursor.between, List.append_assoc] at sameEvents sameControl
  refine ⟨next, produced, _, ?_, sameEvents, ?_, ?_, ?_⟩
  · rw [whole]
    exact kept
  · rw [shape]
    exact last
  · rw [shape]
    exact scanned
  · rw [← sameControl, List.cons_append, shapeLonger]
    exact scannedLonger

/-- Whether two scans, of a block and of the block with more text behind it, go the same way up
to the same place. -/
structure SharesPath
    (dialect : Dialect)
    (anchor : Position)
    (more : Text)
    (control : Control)
    (done rest : Text)
    (last : Control)
    (doneLast restLast : Text)
    (shared sharedLonger : List Event) :
    Prop where
  whole : doneLast ++ restLast = done ++ rest
  same : sharedLonger.map Event.normalized = shared.map Event.normalized
  final :
    finalControl? dialect ⟨control, .between anchor done rest⟩ =
      finalControl? dialect ⟨last, .between anchor doneLast restLast⟩
  scanned :
    events dialect ⟨control, .between anchor done rest⟩ =
      shared ++ events dialect ⟨last, .between anchor doneLast restLast⟩
  scannedLonger :
    events dialect ⟨control.extend more, .between anchor done (rest ++ more)⟩ =
      sharedLonger ++
        events dialect ⟨last.extend more, .between anchor doneLast (restLast ++ more)⟩

/-- The scan of a block and that of the block with more text behind it go the same way, up to
the end of the block or to a transition that depends on what follows the block. -/
theorem exists_sharesPath
    (dialect : Dialect)
    (anchor : Position)
    {more : Text}
    (noIdentifier : more.head?.any Text.isIdentifierChar = false)
    (control : Control)
    (done rest : Text)
    (reaches : control.ReachesTo (anchor.offset + done.length + rest.length)) :
    ∃ last doneLast restLast shared sharedLonger,
      SharesPath dialect anchor more control done rest last doneLast restLast shared
          sharedLonger ∧
        (restLast ≠ [] →
          dialect.classify last.lexicalState doneLast.getLast? (restLast ++ more) =
              dialect.classify last.lexicalState doneLast.getLast? restLast →
            ¬(dialect.classify last.lexicalState doneLast.getLast? restLast).CoversStart
                restLast) := by
  have here :
      SharesPath dialect anchor more control done rest control done rest [] [] :=
    ⟨rfl, rfl, rfl, rfl, rfl⟩
  cases rest with
  | nil =>
      exact ⟨control, done, [], [], [], here, fun nonempty => absurd rfl nonempty⟩
  | cons char tail =>
      by_cases goesOn :
          dialect.classify control.lexicalState done.getLast? (char :: tail ++ more) =
              dialect.classify control.lexicalState done.getLast? (char :: tail) ∧
            (dialect.classify control.lexicalState done.getLast? (char :: tail)).CoversStart
              (char :: tail)
      · obtain ⟨same, piece, behind, shape, nonempty, covers⟩ := goesOn
        obtain ⟨next, produced, producedLonger, nextReaches, sameEvents, final, scanned,
            scannedLonger⟩ :=
          @exists_step_extend dialect anchor control done piece behind char _ tail more reaches
            shape (Event.normalized_code_append behind noIdentifier) rfl same covers
        have shorter := Text.length_lt_of_eq_append shape nonempty
        obtain ⟨last, doneLast, restLast, shared, sharedLonger, path, parts⟩ :=
          exists_sharesPath dialect anchor noIdentifier next (done ++ piece) behind nextReaches
        refine ⟨last, doneLast, restLast, produced ++ shared, producedLonger ++ sharedLonger,
          ⟨?_, ?_, final.trans path.final, ?_, ?_⟩, parts⟩
        · rw [path.whole, shape, List.append_assoc]
        · rw [List.map_append, List.map_append, sameEvents, path.same]
        · rw [scanned, path.scanned, List.append_assoc]
        · rw [scannedLonger, path.scannedLonger, List.append_assoc]
      · exact ⟨control, done, char :: tail, [], [], here,
          fun _ same covers => goesOn ⟨same, covers⟩⟩
termination_by rest.length

end Scan

end LocalizationScan
