import LocalizationScan.Lexical.Event
import LocalizationScan.Proofs.Lexical.StatementBreak

namespace LocalizationScan

/-!
# Transitions with more text behind

More text behind a text can change the transition that the text begins, as the
dialects look ahead.  It does so only close to the end: the transition takes
all of the text, or the text consists of characters that open no token on their
own, the starts of an opening quote in C#, and the start of a comment word or
of a line continuation in Visual Basic.
-/

/-- Every transition covers the last character of a text. -/
theorem Transition.covered_singleton (transition : Transition) (char : Char) :
    transition.covered [char] = 1 :=
  Nat.max_eq_left (Nat.min_le_right _ 1)

/-- A text in which no literal ends, and in C# no identifier either. -/
def Dialect.IsQuiet (dialect : Dialect) (text : Text) : Prop :=
  '"' ∉ text ∧
    ∀ marker, dialect = .csharp marker → ∀ char ∈ text, Text.isIdentifierChar char = false

namespace CSharp

section TwoCharacters

variable (first second : Char) (others later : Text)

theorem classifyCode_append :
    classifyCode (first :: second :: (others ++ later)) =
        classifyCode (first :: second :: others) ∨
      ∀ char ∈ first :: second :: others, char = '@' ∨ char = '$' := by
  generalize text : first :: second :: (others ++ later) = whole
  fun_cases classifyCode whole with
  | case6 | case7 =>
      -- Without its quote the opening of an interpolated verbatim string is none.
      cases others with
      | nil => cases text; exact .inr (by simp)
      | cons third others => cases text; exact .inl rfl
  | case9 _ noLine noBlock noRegular noChar noVerbatim noForm noOther noInterpolated =>
      subst text
      refine .inl ?_
      generalize short : first :: second :: others = rest
      fun_cases classifyCode rest with
      | case9 => rfl
      | _ => cases short; simp at *
  | _ =>
      cases text
      exact .inl rfl

theorem classifyHole_append :
    classifyHole (first :: second :: (others ++ later)) =
        classifyHole (first :: second :: others) ∨
      ∀ char ∈ first :: second :: others, char = '@' ∨ char = '$' := by
  by_cases opens : first = '\x7b'
  · subst opens
    exact .inl rfl
  · by_cases closes : first = '\x7d'
    · subst closes
      exact .inl rfl
    · simpa [classifyHole, opens, closes] using
        classifyCode_append first second others later

theorem classifyLineString_append (quote : Char) (emit : Bool) :
    classifyLineString quote emit (first :: second :: (others ++ later)) =
      classifyLineString quote emit (first :: second :: others) := by
  by_cases escapes : first = '\\'
  · by_cases isReturn : second = '\r' <;> by_cases isFeed : second = '\n' <;>
      simp [classifyLineString, escapes, isReturn, isFeed]
  · by_cases isReturn : first = '\r' <;> by_cases isFeed : first = '\n' <;>
      simp [classifyLineString, escapes, isReturn, isFeed]

theorem classifyVerbatim_append (emit : Bool) :
    classifyVerbatim emit (first :: second :: (others ++ later)) =
      classifyVerbatim emit (first :: second :: others) := by
  by_cases isQuote : first = '"' <;> by_cases isDoubled : second = '"' <;>
    simp [classifyVerbatim, isQuote, isDoubled]

theorem classifyBrace?_append :
    classifyBrace? (first :: second :: (others ++ later)) =
      classifyBrace? (first :: second :: others) := by
  by_cases opens : first = '\x7b'
  · by_cases isDoubled : second = '\x7b' <;> simp [classifyBrace?, opens, isDoubled]
  · by_cases closes : first = '\x7d' <;> by_cases isDoubled : second = '\x7d' <;>
      simp [classifyBrace?, opens, closes, isDoubled]

/-- Inside a string two characters decide. -/
theorem classifyString_append (kind : StringKind) :
    classifyString kind (first :: second :: (others ++ later)) =
      classifyString kind (first :: second :: others) := by
  cases kind <;>
    simp only [classifyString, classifyLineString_append, classifyVerbatim_append,
      classifyBrace?_append]

theorem classifyComment_append :
    classifyComment (first :: second :: (others ++ later)) =
      classifyComment (first :: second :: others) := by
  by_cases isStar : first = '*' <;> by_cases isSlash : second = '/' <;>
    simp [classifyComment, isStar, isSlash]

end TwoCharacters

/-- More text behind a text of two characters changes a transition of C# only where the
opening of an interpolated string is cut off. -/
theorem classify_append
    (state : LexicalState)
    (first second : Char)
    (others later : Text) :
    classify state (first :: second :: (others ++ later)) =
        classify state (first :: second :: others) ∨
      ∀ char ∈ first :: second :: others, char = '@' ∨ char = '$' := by
  cases state with
  | code => exact classifyCode_append first second others later
  | hole => exact classifyHole_append first second others later
  | string kind => exact .inl (classifyString_append first second others later kind)
  | comment => exact .inl (classifyComment_append first second others later)

end CSharp

namespace VisualBasic

section Blanks

variable (rest later : Text)

/-- Blanks go on behind a text only when the text is blank. -/
theorem length_takeWhile_append :
    ((rest ++ later).takeWhile isLineBlank).length = (rest.takeWhile isLineBlank).length ∨
      (rest.takeWhile isLineBlank).length = rest.length := by
  rw [List.takeWhile_append]
  split
  · exact .inr (by assumption)
  · exact .inl rfl

theorem quote_not_mem_of_isLineBlank
    {rest : Text}
    (blank : ∀ char ∈ rest, isLineBlank char = true) :
    '"' ∉ rest := by
  intro member
  exact absurd (blank _ member) (by decide)

theorem quote_not_mem_unbroken
    {blanks trailing lineEnd : Text}
    (blank : ∀ char ∈ blanks, isLineBlank char = true)
    (trailingBlank : ∀ char ∈ trailing, isLineBlank char = true)
    (breaksOff : lineEnd = [] ∨ lineEnd = ['\r']) :
    '"' ∉ blanks ++ '_' :: (trailing ++ lineEnd) := by
  have noQuote : '"' ∉ lineEnd := by
    rcases breaksOff with rfl | rfl <;> decide
  have noQuoteBehind : '"' ∉ '_' :: (trailing ++ lineEnd) :=
    List.not_mem_cons_of_ne_of_not_mem (by decide)
      (List.not_mem_append (quote_not_mem_of_isLineBlank trailingBlank) noQuote)
  exact List.not_mem_append (quote_not_mem_of_isLineBlank blank) noQuoteBehind

/-- More text changes a line continuation only where the continuation reaches the end of the
text or the text breaks off in it. -/
theorem continuationLength?_append_cases :
    continuationLength? (rest ++ later) = continuationLength? rest ∨
      continuationLength? rest = some rest.length ∨ '"' ∉ rest := by
  cases continuationStart rest with
  | blank blank =>
      exact .inr (.inr (quote_not_mem_of_isLineBlank blank))
  | unbroken _ blank trailingBlank breaksOff =>
      exact .inr (.inr (quote_not_mem_unbroken blank trailingBlank breaksOff))
  | @broken front next decided =>
      have here := decided []
      rw [List.append_nil, List.append_nil] at here
      rcases length_takeWhile_append next later with same | whole
      · exact .inl (by rw [decided, here, same])
      · exact .inr (.inl (by rw [here, whole, List.length_append]))
  | other decided =>
      have here := decided []
      rw [List.append_nil] at here
      exact .inl (by rw [decided, here])

end Blanks

/-- The comment word has no quote in it. -/
theorem quote_not_mem_of_startsIgnoringCase
    {rest later : Text}
    (short : rest.length ≤ 3)
    (starts : Text.startsIgnoringCase ['r', 'e', 'm'] (rest ++ later) = true) :
    '"' ∉ rest := by
  have noLetter :
      Text.sameIgnoringCase 'r' '"' = false ∧ Text.sameIgnoringCase 'e' '"' = false ∧
        Text.sameIgnoringCase 'm' '"' = false := by
    decide
  rcases rest with _ | ⟨first, _ | ⟨second, _ | ⟨third, _ | ⟨fourth, others⟩⟩⟩⟩
  · simp
  all_goals
    simp [Text.startsIgnoringCase] at starts short ⊢
    grind

/-- More text changes what is a comment word only behind a text not longer than the word. -/
theorem isRemark_append (before : Option Char) (rest later : Text) :
    isRemark before (rest ++ later) = isRemark before rest ∨ '"' ∉ rest := by
  rcases Nat.lt_or_ge 3 rest.length with long | short
  · obtain ⟨first, second, third, fourth, others, rfl⟩ :
        ∃ first second third fourth others,
          rest = first :: second :: third :: fourth :: others := by
      rcases rest with _ | ⟨first, _ | ⟨second, _ | ⟨third, _ | ⟨fourth, others⟩⟩⟩⟩ <;>
        simp at long ⊢
    exact .inl (by simp [isRemark, Text.startsIgnoringCase])
  · by_cases starts : Text.startsIgnoringCase ['r', 'e', 'm'] (rest ++ later) = true
    · exact .inr (quote_not_mem_of_startsIgnoringCase short starts)
    · have startsNot : Text.startsIgnoringCase ['r', 'e', 'm'] rest ≠ true :=
        fun startsShort => starts (Text.startsIgnoringCase_append later startsShort)
      exact .inl (by simp [isRemark, starts, startsNot])

/-- What the first character of code begins stays the same with more text, or it covers all of
the text, or no literal ends in the text. -/
theorem classifyCode_append
    (before : Option Char)
    (rest later : Text) :
    classifyCode before (rest ++ later) = classifyCode before rest ∨
      (classifyCode before rest).covered rest = rest.length ∨ '"' ∉ rest := by
  cases rest with
  | nil =>
      exact .inr (.inr (by simp))
  | cons first others =>
      have remark := isRemark_append before (first :: others) later
      have length := continuationLength?_append_cases (first :: others) later
      rw [List.cons_append] at remark length ⊢
      by_cases isBlank : isLineBlank first = true
      · rw [classifyCode_of_isLineBlank _ _ isBlank, classifyCode_of_isLineBlank _ _ isBlank]
        rcases length with same | whole | quiet
        · exact .inl (by rw [same])
        · rw [whole]
          exact .inr (.inl (by simp [Transition.covered]))
        · exact .inr (.inr quiet)
      · refine remark.imp (fun same => ?_) .inr
        rw [classifyCode_of_not_isLineBlank _ _ isBlank,
          classifyCode_of_not_isLineBlank _ _ isBlank, same]

/-- Inside a string three characters decide, or the string ends with all of the text. -/
theorem classifyString_append
    {rest : Text}
    (nonempty : rest ≠ [])
    (later : Text) :
    classifyString (rest ++ later) = classifyString rest ∨
      (classifyString rest).covered rest = rest.length := by
  rcases rest with _ | ⟨first, _ | ⟨second, others⟩⟩
  · exact absurd rfl nonempty
  · exact .inr (Transition.covered_singleton _ first)
  · by_cases isQuote : first = '"'
    · subst isQuote
      by_cases isDoubled : second = '"'
      · subst isDoubled
        exact .inl rfl
      · cases others with
        | nil =>
            by_cases isSuffix : isCharSuffix [second] = true
            · exact .inr (by simp [classifyString, isDoubled, isSuffix, Transition.covered])
            · have noSuffix : isCharSuffix (second :: later) ≠ true := by
                simp only [isCharSuffix, List.head?_nil] at isSuffix ⊢
                simp_all
              exact .inl (by simp [classifyString, isDoubled, isSuffix, noSuffix])
        | cons third others =>
            exact .inl (by simp [classifyString, isCharSuffix, isDoubled])
    · exact .inl (by simp [classifyString, isQuote])

end VisualBasic

/-- More text behind a text changes the transition that the text begins only where the
transition covers all of the text or the text is quiet. -/
theorem Dialect.classify_append
    (dialect : Dialect)
    (state : LexicalState)
    (before : Option Char)
    {rest : Text}
    (nonempty : rest ≠ [])
    (later : Text) :
    dialect.classify state before (rest ++ later) = dialect.classify state before rest ∨
      (dialect.classify state before rest).covered rest = rest.length ∨
        dialect.IsQuiet rest := by
  cases dialect with
  | csharp marker =>
      rcases rest with _ | ⟨first, _ | ⟨second, others⟩⟩
      · exact absurd rfl nonempty
      · exact .inr (.inl (Transition.covered_singleton _ first))
      · refine (CSharp.classify_append state first second others later).imp_right fun cut => ?_
        refine .inr ⟨fun member => ?_, fun _ _ char member => ?_⟩
        · exact absurd (cut _ member) (by decide)
        · rcases cut char member with rfl | rfl <;> decide
  | visualBasic =>
      have quiet (noQuote : '"' ∉ rest) : IsQuiet .visualBasic rest :=
        ⟨noQuote, fun _ csharp => (nomatch csharp)⟩
      cases state with
      | code | hole =>
          exact (VisualBasic.classifyCode_append before rest later).imp_right
            (Or.imp_right quiet)
      | string kind =>
          exact (VisualBasic.classifyString_append nonempty later).imp_right .inl
      | comment =>
          exact .inl rfl

end LocalizationScan
