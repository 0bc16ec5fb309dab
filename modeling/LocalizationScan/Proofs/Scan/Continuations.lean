import LocalizationScan.Proofs.Lexical.Separators
import LocalizationScan.Proofs.Scan.Extension
import LocalizationScan.Proofs.Scan.Invariant

namespace LocalizationScan

/-!
# Where continuations are taken

Blanks of code that continue no line are passed one at a time, and a blank that
stands in front of a continuation belongs to it.  So a scan meets a continuation
at the first of the blanks before its underscore, never inside of them.
-/

/-- C# has no line continuations. -/
theorem Dialect.classify_csharp_ne_continuation
    (marker : Text)
    (state : LexicalState)
    (before : Option Char)
    (rest : Text)
    (length : Nat) :
    (csharp marker).classify state before rest ≠ .continuation length := by
  intro continues
  have fits := (csharp marker).fits_classify state before rest
  rw [continues] at fits
  cases rest with
  | nil =>
      rw [classify_nil] at continues
      cases continues
  | cons char tail =>
      have noneInCode : CSharp.classifyCode (char :: tail) ≠ .continuation length := by
        rcases CSharp.classifyCode_cases char tail with
            same | ⟨same, -⟩ | ⟨same, -⟩ | ⟨_, _, _, -, -, same⟩ <;>
          simp [same]
      cases state with
      | code =>
          exact noneInCode continues
      | hole =>
          rcases CSharp.classifyHole_cases char tail with ⟨-, same⟩ | ⟨-, same⟩ | same
          · cases same.symm.trans continues
          · cases same.symm.trans continues
          · exact noneInCode (same.symm.trans continues)
      | string | comment =>
          cases fits

namespace VisualBasic

section Transitions

variable {state : LexicalState} {before : Option Char} {piece later : Text}

/-- A continuation begins where its recogniser finds one in code. -/
theorem classify_eq_continuation_iff
    {rest : Text}
    {length : Nat} :
    classify state before rest = .continuation length ↔
      state.isCode = true ∧ continuationLength? rest = some length := by
  constructor
  · intro met
    have fits := Dialect.visualBasic.fits_classify state before rest
    rw [Dialect.classify, met] at fits
    exact ⟨fits, continuationLength?_of_classify met⟩
  · rintro ⟨inCode, continues⟩
    obtain ⟨char, tail, rfl, isBlank⟩ := exists_blank_of_continuationLength? continues
    cases state with
    | code | hole =>
        rw [classify, classifyCode_of_isLineBlank before tail isBlank, continues]
    | string | comment =>
        cases inCode

/-- A blank that is an ordinary character of code has no continuation behind it. -/
theorem continuationLength?_of_stay
    {char : Char}
    (inCode : state.isCode = true)
    (isBlank : isLineBlank char = true)
    (stays : classify state before (char :: later) = .stay) :
    continuationLength? later = none := by
  rw [continuationLength?_eq_none_iff]
  rintro piece rest rfl continued
  have longer := continued.blanks_append (List.forall_mem_singleton.mpr isBlank)
  have continues := longer.continuationLength?_append rest
  cases stays.symm.trans (classify_eq_continuation_iff.mpr ⟨inCode, continues⟩)

/-- What a continuation takes along ends in front of no blank. -/
theorem isLineBlank_head?_of_covered
    (inCode : state.isCode = true)
    (continued : IsContinuation piece)
    (covers : (classify state before (piece ++ later)).covered (piece ++ later) = piece.length) :
    ∀ char ∈ later.head?, isLineBlank char = false := by
  have long := continued.three_le_length
  have inside := (later.takeWhile_prefix isLineBlank).length_le
  have continues := continued.continuationLength?_append later
  rw [classify_eq_continuation_iff.mpr ⟨inCode, continues⟩, Transition.covered,
    List.length_append] at covers
  exact isLineBlank_eq_false (List.length_eq_zero_iff.mp (by omega))

/-- What the recogniser finds is not longer than the text, and ends in front of no blank. -/
theorem bounds_of_continuationLength?
    {text : Text}
    {length : Nat}
    (continues : continuationLength? text = some length) :
    3 ≤ length ∧ length ≤ text.length ∧
      ∀ char, text[length]? = some char → isLineBlank char = false := by
  obtain ⟨piece, later, rfl, continued, stops, rfl⟩ :=
    exists_isContinuation_of_continuationLength? continues
  refine ⟨continued.three_le_length, by simp, fun char behind => ?_⟩
  rw [List.getElem?_append_right (Nat.le_refl _), Nat.sub_self, ← List.head?_eq_getElem?] at behind
  exact isLineBlank_eq_false stops char behind

/-- A string does not end with a blank. -/
theorem isLineBlank_getLast?_of_closeString
    {emit : Bool}
    (closes : classifyString (piece ++ later) = .closeString piece.length emit) :
    ∀ char ∈ piece.getLast?, isLineBlank char = false := by
  revert closes
  generalize text : piece ++ later = rest
  generalize count : piece.length = length
  fun_cases classifyString rest with
  | case2 behind _ suffix =>
      rintro ⟨⟩
      obtain ⟨first, second, rfl⟩ := List.length_eq_two.mp count
      cases behind with
      | nil =>
          cases suffix
      | cons letter others =>
          have isLetter : letter = 'c' ∨ letter = 'C' := by
            simp only [isCharSuffix, Bool.and_eq_true, Bool.or_eq_true, beq_iff_eq] at suffix
            exact suffix.1
          cases text
          rintro _ ⟨⟩
          rcases isLetter with rfl | rfl <;> rfl
  | case3 behind =>
      rintro ⟨⟩
      obtain ⟨first, rfl⟩ := List.length_eq_one_iff.mp count
      cases text
      rintro _ ⟨⟩
      rfl
  | _ =>
      rintro ⟨⟩

end Transitions

end VisualBasic

section Steps

variable {anchor position : Position} {control next : Control} {before : Option Char}
  {piece later : Text} {events : List Event}

/-- Behind what a scan takes in one step to code no continuation begins, or no blank ends it. -/
theorem Move.endsWithNoBlank
    (nonempty : piece ≠ [])
    (covers :
      (Dialect.visualBasic.classify control.lexicalState before (piece ++ later)).covered
          (piece ++ later) =
        piece.length)
    (move : Move .visualBasic before position piece later control events next)
    (resting : next.mode = .resting) :
    VisualBasic.continuationLength? later = none ∨
      ∀ char ∈ piece.getLast?, VisualBasic.isLineBlank char = false := by
  have isCode (holes : List Hole) :
      (Control.lexicalState ⟨.resting, holes⟩).isCode = true := by
    cases holes <;> rfl
  cases move with
  | @code char _ holes classified =>
      by_cases isBlank : VisualBasic.isLineBlank char = true
      · exact .inl (VisualBasic.continuationLength?_of_stay (isCode holes) isBlank classified)
      · refine .inr ?_
        rintro _ ⟨⟩
        simpa using isBlank
  | lineComment _ _ lineEnd =>
      refine .inl (VisualBasic.continuationLength?_of_head? fun char head => ?_)
      rcases lineEnd with rfl | feed
      · cases head
      · cases feed.symm.trans head
        rfl
  | @continuation _ _ holes _ continued =>
      exact .inl (VisualBasic.continuationLength?_of_head?
        (VisualBasic.isLineBlank_head?_of_covered (isCode holes) continued covers))
  | closeString closes =>
      exact .inr (VisualBasic.isLineBlank_getLast?_of_closeString closes)
  | @abandon _ _ char _ _ classified =>
      rcases VisualBasic.classifyString_cases char later with
          same | same | ⟨_, _, _, -, -, same⟩ <;>
        cases same.symm.trans classified
  | openString | stringText | commentText =>
      cases resting
  | openComment csharp | openBrace csharp | closeBrace csharp | closeHole csharp
  | openHole csharp | closeComment csharp =>
      cases csharp

/-- Blanks of code that a scan has passed stand in front of no continuation. -/
theorem Scan.keeps_passedBlanks (anchor : Position) :
    Scan.Keeps .visualBasic anchor
      (fun control done rest =>
        control.mode = .resting →
          VisualBasic.continuationLength? rest = none ∨
            ∀ char ∈ done.getLast?, VisualBasic.isLineBlank char = false)
      (fun _ => True) := by
  intro control done piece later events next nonempty covers move _
  refine ⟨fun resting => ?_, fun _ _ => trivial⟩
  rw [List.getLast?_append_of_ne_nil done nonempty]
  exact move.endsWithNoBlank nonempty covers resting

end Steps

/-- A continuation begins where its recogniser finds one in code of Visual Basic. -/
theorem Scan.transition_eq_continuation_iff
    {dialect : Dialect}
    {scan : Scan}
    {length : Nat} :
    scan.transition dialect = .continuation length ↔
      dialect = .visualBasic ∧ scan.control.lexicalState.isCode = true ∧
        VisualBasic.continuationLength? scan.cursor.rest = some length := by
  cases dialect with
  | csharp marker =>
      simp [transition, Dialect.classify_csharp_ne_continuation]
  | visualBasic =>
      simp [transition, Dialect.classify, VisualBasic.classify_eq_continuation_iff]

/-- A continuation that a scan takes begins with the first of its blanks, and the scan goes on
behind all of it. -/
theorem Dialect.exists_done_of_continuation
    {dialect : Dialect}
    {anchor : Position}
    {block : Text}
    {scan : Scan}
    {length : Nat}
    (passed : scan ∈ dialect.visited anchor block)
    (takes : scan.transition dialect = .continuation length) :
    ∃ done,
      block = done ++ scan.cursor.rest ∧
        scan.cursor = .between anchor done scan.cursor.rest ∧
        (∀ char ∈ done.getLast?, VisualBasic.isLineBlank char = false) ∧
        scan.nextCursor dialect =
          .between anchor (done ++ scan.cursor.rest.take length) (scan.cursor.rest.drop length) := by
  obtain ⟨rfl, inCode, continues⟩ := Scan.transition_eq_continuation_iff.mp takes
  obtain ⟨done, shape, cursor, behind⟩ :=
    Scan.exists_done_of_mem_visited (Scan.keeps_passedBlanks anchor) .initial [] block
      (fun _ => .inr nofun) passed
  obtain ⟨long, inside, -⟩ := VisualBasic.bounds_of_continuationLength? continues
  have covered : (scan.transition .visualBasic).covered scan.cursor.rest = length := by
    rw [takes, Transition.covered]
    omega
  refine ⟨done, shape, cursor, ?_, ?_⟩
  · refine (behind (Control.mode_of_isCode inCode)).resolve_left ?_
    simp [continues]
  · rw [Scan.nextCursor, covered]
    conv => lhs; rw [cursor]
    exact Cursor.skip_between_take anchor done scan.cursor.rest length

/-- Continuations are recognised as their grammar says, with all of the indentation behind the
line break, and a scan takes them from the first of the blanks before the underscore on. -/
theorem VisualBasic.continuations_areTakenWhole (text : Text) (length : Nat) :
    (continuationLength? text = some length ↔
        ∃ piece later,
          text = piece ++ later ∧ IsContinuation piece ∧ piece.getLast? = some '\n' ∧
            length = piece.length + (later.takeWhile isLineBlank).length) ∧
      (continuationLength? text = none ↔
        ∀ piece later, text = piece ++ later → ¬IsContinuation piece) ∧
      (continuationLength? text = some length →
        3 ≤ length ∧ length ≤ text.length ∧
          ∀ char, text[length]? = some char → isLineBlank char = false) ∧
      ∀ (dialect : Dialect) (anchor : Position) (block : Text),
        ∀ scan ∈ dialect.visited anchor block,
          scan.cursor.rest = text →
            (scan.transition dialect = .continuation length ↔
                dialect = .visualBasic ∧ scan.control.lexicalState.isCode = true ∧
                  continuationLength? text = some length) ∧
              (scan.transition dialect = .continuation length →
                ∃ done,
                  block = done ++ text ∧ scan.cursor = .between anchor done text ∧
                    (∀ char ∈ done.getLast?, isLineBlank char = false) ∧
                    scan.nextCursor dialect =
                      .between anchor (done ++ text.take length) (text.drop length)) := by
  refine ⟨continuationLength?_eq_some_iff, continuationLength?_eq_none_iff,
    bounds_of_continuationLength?, ?_⟩
  rintro dialect anchor block scan passed rfl
  exact ⟨Scan.transition_eq_continuation_iff, dialect.exists_done_of_continuation passed⟩

/-- Two blanks before the underscore, one behind it, a break of two characters and two blanks of
indentation. -/
theorem VisualBasic.continuations_areTakenWhole_indented :
    let block := "x = a \t_ \r\n\t b".toList
    let text := " \t_ \r\n\t b".toList
    let scan : Scan := ⟨.initial, ⟨some 'a', text, ⟨1, 6, 5⟩⟩⟩
    continuationLength? text = some 8 ∧
      8 ≤ text.length ∧ (∀ char, text[8]? = some char → isLineBlank char = false) ∧
      scan ∈ Dialect.visualBasic.visited .start block ∧
      scan.transition .visualBasic = .continuation 8 ∧
      ∃ done,
        block = done ++ text ∧ scan.cursor = .between .start done text ∧
          (∀ char ∈ done.getLast?, isLineBlank char = false) ∧
          scan.nextCursor .visualBasic =
            .between .start (done ++ text.take 8) (text.drop 8) := by
  intro block text scan
  have sixth : (Dialect.visualBasic.visited .start block)[5]? = some scan := by
    simp only [block, scan, text]
    cbv
  have passed := List.mem_of_getElem? sixth
  have continues : continuationLength? text = some 8 := by
    decide
  obtain ⟨-, -, bounds, run⟩ := continuations_areTakenWhole text 8
  obtain ⟨-, inside, stops⟩ := bounds continues
  obtain ⟨begins, whole⟩ := run .visualBasic .start block scan passed rfl
  have takes := begins.mpr ⟨rfl, rfl, continues⟩
  exact ⟨continues, inside, stops, passed, takes, whole takes⟩

end LocalizationScan
