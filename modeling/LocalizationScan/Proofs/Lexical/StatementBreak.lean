import Mathlib
import LocalizationScan.Proofs.Lexical.Transition

namespace LocalizationScan

/-!
# Transitions in front of a statement break

The dialects look ahead, so what follows a text may decide about the transition
that the text begins.  A blank and a semicolon decide nothing: in front of them
every text begins what it begins at the end of a block, except that a line
continuation takes the blank along.  And behind a line feed a text begins what
it begins at the start of a block.
-/

namespace CSharp

variable {rest : Text} {separator : Char}

/-- A blank, a line feed and the start of a comment belong to no token that begins before them,
save for the slashes of a line comment. -/
theorem classifyCode_append_separator
    (separates : separator ∈ [' ', '\n'] ∨ separator = '/' ∧ rest ≠ ['/'])
    (nonempty : rest ≠ [])
    (later : Text) :
    classifyCode (rest ++ separator :: later) = classifyCode rest := by
  generalize text : rest ++ separator :: later = whole
  fun_cases classifyCode whole with
  | case9 _ noLine noBlock noRegular noChar noVerbatim noForm noOther noInterpolated =>
      subst text
      fun_cases classifyCode rest with
      | case1 => exact (noLine _ rfl).elim
      | case2 => exact (noBlock _ rfl).elim
      | case3 => exact (noRegular _ rfl).elim
      | case4 => exact (noChar _ rfl).elim
      | case5 => exact (noVerbatim _ rfl).elim
      | case6 => exact (noForm _ rfl).elim
      | case7 => exact (noOther _ rfl).elim
      | case8 => exact (noInterpolated _ rfl).elim
      | case9 => rfl
  | _ =>
      -- The token is there as a whole, as the separator is no part of one.
      rcases rest with _ | ⟨first, _ | ⟨second, _ | ⟨third, others⟩⟩⟩
      all_goals
        cases text
      all_goals
        first
        | rfl
        | exact absurd rfl nonempty
        | simp at separates

theorem classifyHole_append_separator
    (separates : separator ∈ [' ', '\n'] ∨ separator = '/' ∧ rest ≠ ['/'])
    (nonempty : rest ≠ [])
    (later : Text) :
    classifyHole (rest ++ separator :: later) = classifyHole rest := by
  fun_cases classifyHole rest with
  | case1 => rfl
  | case2 => rfl
  | case3 _ noOpening noClosing =>
      rw [← classifyCode_append_separator separates nonempty later]
      cases rest with
      | nil =>
          exact absurd rfl nonempty
      | cons first others =>
          have notOpening : first ≠ '\x7b' := by
            rintro rfl
            exact noOpening _ rfl
          have notClosing : first ≠ '\x7d' := by
            rintro rfl
            exact noClosing _ rfl
          simp [classifyHole, notOpening, notClosing]

/-- Behind a backslash a line feed ends a string, and other separators are escaped. -/
theorem classifyLineString_append_separator
    (quote : Char)
    (emit : Bool)
    (separates : separator ∈ [' ', '/'] ∨ separator = '\n' ∧ rest ≠ ['\\'])
    (nonempty : rest ≠ [])
    (later : Text) :
    classifyLineString quote emit (rest ++ separator :: later) =
      classifyLineString quote emit rest := by
  fun_cases classifyLineString quote emit rest with
  | case1 =>
      exact absurd rfl nonempty
  | case2 | case3 | case5 | case6 =>
      rfl
  | case4 others noReturn noFeed =>
      cases others with
      | nil =>
          simp only [List.mem_cons, List.not_mem_nil, or_false] at separates
          rcases separates with (rfl | rfl) | ⟨-, noEscape⟩
          · rfl
          · rfl
          · exact absurd rfl noEscape
      | cons second others =>
          have notReturn : second ≠ '\r' := by
            rintro rfl
            exact noReturn _ rfl
          have notFeed : second ≠ '\n' := by
            rintro rfl
            exact noFeed _ rfl
          simp [classifyLineString, notReturn, notFeed]
  | case7 | case8 =>
      simp_all [classifyLineString]

theorem classifyVerbatim_append_separator
    (emit : Bool)
    (separates : separator ∈ [' ', '\n', '/'])
    (nonempty : rest ≠ [])
    (later : Text) :
    classifyVerbatim emit (rest ++ separator :: later) = classifyVerbatim emit rest := by
  generalize text : rest ++ separator :: later = whole
  fun_cases classifyVerbatim emit whole with
  | case3 _ noEscape noClosing =>
      subst text
      fun_cases classifyVerbatim emit rest with
      | case1 => exact (noEscape _ rfl).elim
      | case2 => exact (noClosing _ rfl).elim
      | case3 => rfl
  | _ =>
      rcases rest with _ | ⟨first, _ | ⟨second, others⟩⟩
      all_goals
        cases text
      all_goals
        first
        | rfl
        | simp_all [classifyVerbatim]

theorem classifyBrace?_append_separator
    (separates : separator ∈ [' ', '\n', '/'])
    (nonempty : rest ≠ [])
    (later : Text) :
    classifyBrace? (rest ++ separator :: later) = classifyBrace? rest := by
  generalize text : rest ++ separator :: later = whole
  fun_cases classifyBrace? whole with
  | case4 _ noOpening noClosing noHole =>
      subst text
      fun_cases classifyBrace? rest with
      | case1 => exact (noOpening _ rfl).elim
      | case2 => exact (noClosing _ rfl).elim
      | case3 => exact (noHole _ rfl).elim
      | case4 => rfl
  | _ =>
      rcases rest with _ | ⟨first, _ | ⟨second, others⟩⟩
      all_goals
        cases text
      all_goals
        first
        | rfl
        | simp_all [classifyBrace?]

theorem classifyComment_append_separator
    (separates : separator ∈ [' ', '\n'] ∨ separator = '/' ∧ rest ≠ ['*'])
    (nonempty : rest ≠ [])
    (later : Text) :
    classifyComment (rest ++ separator :: later) = classifyComment rest := by
  generalize text : rest ++ separator :: later = whole
  fun_cases classifyComment whole with
  | case2 _ noClosing =>
      subst text
      fun_cases classifyComment rest with
      | case1 => exact (noClosing _ rfl).elim
      | case2 => rfl
  | case1 =>
      rcases rest with _ | ⟨first, _ | ⟨second, others⟩⟩
      all_goals
        cases text
      all_goals
        first
        | rfl
        | simp at separates

theorem classifyString_append_separator
    (kind : StringKind)
    (separates : separator ∈ [' ', '/'] ∨ separator = '\n' ∧ rest ≠ ['\\'])
    (nonempty : rest ≠ [])
    (later : Text) :
    classifyString kind (rest ++ separator :: later) = classifyString kind rest := by
  have among : separator ∈ [' ', '\n', '/'] := by
    rcases separates with among | ⟨rfl, -⟩
    · exact List.Sublist.mem among (by simp)
    · simp
  cases kind with
  | regular | char =>
      exact classifyLineString_append_separator _ _ separates nonempty later
  | verbatim =>
      exact classifyVerbatim_append_separator _ among nonempty later
  | interpolated =>
      simp only [classifyString, classifyBrace?_append_separator among nonempty later,
        classifyLineString_append_separator _ _ separates nonempty later]
  | interpolatedVerbatim =>
      simp only [classifyString, classifyBrace?_append_separator among nonempty later,
        classifyVerbatim_append_separator _ among nonempty later]

/-- In front of a blank a text begins what it begins at the end of a block. -/
theorem classify_append_blank
    (state : LexicalState)
    (nonempty : rest ≠ [])
    (later : Text) :
    classify state (rest ++ ' ' :: later) = classify state rest := by
  cases state with
  | code => exact classifyCode_append_separator (.inl (by simp)) nonempty later
  | string kind => exact classifyString_append_separator kind (.inl (by simp)) nonempty later
  | comment => exact classifyComment_append_separator (.inl (by simp)) nonempty later
  | hole => exact classifyHole_append_separator (.inl (by simp)) nonempty later

end CSharp

namespace VisualBasic

variable {rest : Text}

section Blank

variable {blank : Char} (isBlank : blank = ' ' ∨ blank = '\t' ∨ blank = '\n')
include isBlank

theorem isCharSuffix_append_blank (rest later : Text) :
    isCharSuffix (rest ++ blank :: later) = isCharSuffix rest := by
  rcases rest with _ | ⟨first, _ | ⟨second, others⟩⟩
  · rcases isBlank with rfl | rfl | rfl <;> rfl
  · have separate : Text.isIdentifierChar blank = false := by
      rcases isBlank with rfl | rfl | rfl <;> decide
    simp [isCharSuffix, separate]
  · rfl

theorem classifyString_append_blank
    (nonempty : rest ≠ [])
    (later : Text) :
    classifyString (rest ++ blank :: later) = classifyString rest := by
  cases rest with
  | nil =>
      exact absurd rfl nonempty
  | cons first others =>
      by_cases isQuote : first = '"'
      · subst isQuote
        have suffix := isCharSuffix_append_blank isBlank others later
        cases others with
        | nil =>
            have noQuote : blank ≠ '"' := by
              rcases isBlank with rfl | rfl | rfl <;> decide
            rw [List.nil_append] at suffix
            simp [classifyString, noQuote, suffix]
        | cons second others =>
            by_cases isDoubled : second = '"'
            · subst isDoubled
              rfl
            · rw [List.cons_append] at suffix
              simp [classifyString, isDoubled, suffix]
      · simp [classifyString, isQuote]

/-- A blank or a line feed ends the comment word as the end of the text does. -/
theorem isRemark_append_blank
    (before : Option Char)
    (nonempty : rest ≠ [])
    (later : Text) :
    isRemark before (rest ++ blank :: later) = isRemark before rest := by
  have noLetter :
      Text.sameIgnoringCase 'e' blank = false ∧ Text.sameIgnoringCase 'm' blank = false := by
    rcases isBlank with rfl | rfl | rfl <;> decide
  have isWhite : Text.isBlank blank = true := by
    rcases isBlank with rfl | rfl | rfl <;> decide
  rcases rest with _ | ⟨first, _ | ⟨second, _ | ⟨third, _ | ⟨fourth, others⟩⟩⟩⟩
  · exact absurd rfl nonempty
  · simp [isRemark, Text.startsIgnoringCase, noLetter]
  · simp [isRemark, Text.startsIgnoringCase, noLetter]
  · simp [isRemark, Text.startsIgnoringCase, isWhite]
  · simp [isRemark, Text.startsIgnoringCase]

end Blank

/-- The indentation of the next line grows by a blank when it is all that is left. -/
theorem length_takeWhile_isLineBlank_append (rest later : Text) :
    ((rest ++ ' ' :: ';' :: later).takeWhile isLineBlank).length =
      if (rest.takeWhile isLineBlank).length = rest.length then rest.length + 1
      else (rest.takeWhile isLineBlank).length := by
  rw [List.takeWhile_append]
  split
  · rw [List.length_append]
    rfl
  · rfl

/-- Blanks and a semicolon continue no line, but the blanks belong to the indentation of a
line that goes on. -/
theorem continuationLength?_append
    (rest later : Text) :
    continuationLength? (rest ++ ' ' :: ';' :: later) =
      (continuationLength? rest).map fun length =>
        if length = rest.length then length + 1 else length := by
  have inLine : StaysInLine (' ' :: ';' :: later) :=
    @StaysInLine.intro [' '] (';' :: later) (List.forall_mem_singleton.mpr rfl)
      (by rintro _ ⟨⟩; decide)
  cases continuationStart rest with
  | blank blank =>
      rw [continuationLength?_of_isLineBlank blank]
      have bothBlank : ∀ char ∈ rest ++ [' '], isLineBlank char = true :=
        List.forall_mem_append.mpr ⟨blank, List.forall_mem_singleton.mpr rfl⟩
      rw [List.append_cons]
      exact continuationLength?_eq_none bothBlank rfl (.inr (by decide)) later
  | unbroken separated blank trailingBlank breaksOff =>
      have decided {text : Text} (inLine : StaysInLine text) :=
        continuationLength?_unbroken separated blank trailingBlank breaksOff inLine
      have here := decided (@StaysInLine.intro [] [] (by simp) (by simp))
      rw [List.append_nil, List.append_nil] at here
      rw [decided inLine, here]
      rfl
  | @broken front next decided =>
      have here := decided []
      rw [List.append_nil, List.append_nil] at here
      rw [decided, here, length_takeWhile_isLineBlank_append]
      simp only [Option.map_some, List.length_append]
      grind
  | other decided =>
      have here := decided []
      rw [List.append_nil] at here
      rw [decided, here]
      rfl

theorem classifyCode_append_break
    (before : Option Char)
    (nonempty : rest ≠ [])
    (later : Text) :
    classifyCode before (rest ++ ' ' :: ';' :: later) = classifyCode before rest ∨
      classifyCode before rest = .continuation rest.length ∧
        classifyCode before (rest ++ ' ' :: ';' :: later) =
          .continuation (rest.length + 1) := by
  have remark := @isRemark_append_blank rest ' ' (.inl rfl) before nonempty (';' :: later)
  have length := continuationLength?_append rest later
  cases rest with
  | nil =>
      exact absurd rfl nonempty
  | cons first others =>
      rw [List.cons_append] at remark length ⊢
      by_cases isBlank : isLineBlank first = true
      · rw [classifyCode_of_isLineBlank _ _ isBlank, classifyCode_of_isLineBlank _ _ isBlank,
          length]
        cases continuationLength? (first :: others) with
        | none =>
            exact .inl rfl
        | some covered =>
            by_cases whole : covered = (first :: others).length
            · exact .inr (by simp [whole])
            · rw [Option.map_some, if_neg whole]
              exact .inl rfl
      · exact .inl (by rw [classifyCode_of_not_isLineBlank _ _ isBlank,
          classifyCode_of_not_isLineBlank _ _ isBlank, remark])

/-- A character behind which an identifier can start is like none. -/
theorem classifyCode_of_noIdentifier
    {char : Char}
    (noIdentifier : Text.isIdentifierChar char = false)
    (rest : Text) :
    classifyCode (some char) rest = classifyCode none rest := by
  have same : isRemark (some char) rest = isRemark none rest := by
    simp [isRemark, noIdentifier]
  unfold classifyCode
  rw [same]

end VisualBasic

theorem Dialect.classify_of_noIdentifier
    {char : Char}
    (noIdentifier : Text.isIdentifierChar char = false)
    (dialect : Dialect)
    (state : LexicalState)
    (rest : Text) :
    dialect.classify state (some char) rest = dialect.classify state none rest := by
  cases dialect with
  | csharp marker =>
      rfl
  | visualBasic =>
      cases state with
      | code | hole => exact VisualBasic.classifyCode_of_noIdentifier noIdentifier rest
      | string kind | comment => rfl

/-- In front of a blank and a semicolon a text begins what it begins at the end of a block,
but a line continuation up to there takes the blank along. -/
theorem Dialect.classify_append_break
    (dialect : Dialect)
    (state : LexicalState)
    (before : Option Char)
    {rest : Text}
    (nonempty : rest ≠ [])
    (later : Text) :
    dialect.classify state before (rest ++ ' ' :: ';' :: later) =
        dialect.classify state before rest ∨
      dialect.classify state before rest = .continuation rest.length ∧
        dialect.classify state before (rest ++ ' ' :: ';' :: later) =
          .continuation (rest.length + 1) := by
  cases dialect with
  | csharp marker =>
      exact .inl (CSharp.classify_append_blank state nonempty _)
  | visualBasic =>
      cases state with
      | code | hole => exact VisualBasic.classifyCode_append_break before nonempty later
      | string kind =>
          exact .inl (VisualBasic.classifyString_append_blank (.inl rfl) nonempty _)
      | comment => exact .inl rfl

end LocalizationScan
