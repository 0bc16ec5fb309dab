import LocalizationScan.Proofs.Lexical.LongerText

namespace LocalizationScan

/-!
# Transitions in front of a line feed

In front of a line feed a text begins what it begins at the end of a block, with
two exceptions.  A backslash at the end of a string in C# escapes what follows,
but no line feed, and in Visual Basic the line feed completes a line
continuation that the text has begun.
-/

namespace CSharp

variable {rest : Text}

theorem classifyString_append_feed
    (kind : StringKind)
    (nonempty : rest ≠ [])
    (later : Text) :
    classifyString kind (rest ++ '\n' :: later) = classifyString kind rest ∨
      rest = ['\\'] ∧ classifyString kind rest = .escape 2 ∧
        classifyString kind (rest ++ '\n' :: later) = .abandon := by
  by_cases isBackslash : rest = ['\\']
  · subst isBackslash
    cases kind with
    | regular | char | interpolated => exact .inr ⟨rfl, rfl, rfl⟩
    | verbatim | interpolatedVerbatim => exact .inl rfl
  · exact .inl (classifyString_append_separator kind (.inr ⟨rfl, isBackslash⟩) nonempty later)

theorem classify_append_feed
    (state : LexicalState)
    (nonempty : rest ≠ [])
    (later : Text) :
    classify state (rest ++ '\n' :: later) = classify state rest ∨
      rest = ['\\'] ∧ state.isCode = false ∧ classify state rest = .escape 2 ∧
        classify state (rest ++ '\n' :: later) = .abandon := by
  cases state with
  | code =>
      exact .inl (classifyCode_append_separator (.inl (by simp)) nonempty later)
  | hole =>
      exact .inl (classifyHole_append_separator (.inl (by simp)) nonempty later)
  | comment =>
      exact .inl (classifyComment_append_separator (.inl (by simp)) nonempty later)
  | string kind =>
      refine (classifyString_append_feed kind nonempty later).imp_right ?_
      exact fun ⟨isBackslash, escapes, abandons⟩ => ⟨isBackslash, rfl, escapes, abandons⟩

/-- No line feed is escaped. -/
theorem classifyString_feed_ne_escape
    (kind : StringKind)
    (char : Char)
    (later : Text)
    (length : Nat) :
    classifyString kind (char :: '\n' :: later) ≠ .escape length := by
  have line (quote : Char) (emit : Bool) :
      classifyLineString quote emit (char :: '\n' :: later) ≠ .escape length := by
    by_cases isBackslash : char = '\\'
    · simp [classifyLineString, isBackslash]
    · by_cases isReturn : char = '\r' <;> by_cases isFeed : char = '\n' <;>
        by_cases isQuote : char = quote <;>
          simp_all [classifyLineString]
  have verbatim (emit : Bool) :
      classifyVerbatim emit (char :: '\n' :: later) ≠ .escape length := by
    by_cases isQuote : char = '"' <;> simp [classifyVerbatim, isQuote]
  have brace : classifyBrace? (char :: '\n' :: later) ≠ some (.escape length) := by
    by_cases opens : char = '\x7b' <;> by_cases closes : char = '\x7d' <;>
      simp [classifyBrace?, opens, closes]
  have braceOr {plain : Transition} (other : plain ≠ .escape length) :
      (classifyBrace? (char :: '\n' :: later)).getD plain ≠ .escape length := by
    cases found : classifyBrace? (char :: '\n' :: later) with
    | none => exact other
    | some transition => exact fun same => brace (found.trans (congrArg some same))
  cases kind with
  | regular | char => exact line _ _
  | verbatim => exact verbatim _
  | interpolated => exact braceOr (line _ _)
  | interpolatedVerbatim => exact braceOr (verbatim _)

end CSharp

namespace VisualBasic

variable {rest later : Text}

/-- A line that goes on in front of a line feed has gone on before it, or the line feed breaks
it. -/
theorem continuationLength?_append_feed
    (rest : Text)
    (unindented : later.takeWhile isLineBlank = []) :
    continuationLength? (rest ++ '\n' :: later) = continuationLength? rest ∨
      '"' ∉ rest ∧ continuationLength? (rest ++ '\n' :: later) = some (rest.length + 1) := by
  cases continuationStart rest with
  | blank blank =>
      rw [continuationLength?_of_isLineBlank blank]
      exact .inl (continuationLength?_eq_none blank (by decide) (.inr (by decide)) later)
  | @unbroken blanks trailing lineEnd separated blank trailingBlank breaksOff =>
      have breaksLine : lineEnd ++ ['\n'] = ['\n'] ∨ lineEnd ++ ['\n'] = ['\r', '\n'] := by
        rcases breaksOff with rfl | rfl
        · exact .inl rfl
        · exact .inr rfl
      have ends := lineEndLength?_break trailingBlank breaksLine later
      have shape :
          blanks ++ '_' :: (trailing ++ lineEnd) ++ '\n' :: later =
            blanks ++ '_' :: (trailing ++ (lineEnd ++ ['\n'] ++ later)) := by
        simp
      refine .inr ⟨quote_not_mem_unbroken blank trailingBlank breaksOff, ?_⟩
      rw [shape, continuationLength?_underscore separated blank, ends, unindented]
      simp only [Option.map_some, List.length_append, List.length_cons, List.length_nil,
        Option.some.injEq]
      omega
  | @broken front next decided =>
      have here := decided []
      rw [List.append_nil, List.append_nil] at here
      have stops : ('\n' :: later).takeWhile isLineBlank = [] := rfl
      refine .inl ?_
      rw [decided, here, List.takeWhile_append, stops]
      split
      · rw [List.append_nil, ‹(next.takeWhile isLineBlank).length = next.length›]
      · rfl
  | other decided =>
      have here := decided []
      rw [List.append_nil] at here
      exact .inl (by rw [decided, here])

theorem classifyCode_append_feed
    (before : Option Char)
    (nonempty : rest ≠ [])
    (unindented : later.takeWhile isLineBlank = []) :
    classifyCode before (rest ++ '\n' :: later) = classifyCode before rest ∨
      '"' ∉ rest ∧
        classifyCode before (rest ++ '\n' :: later) = .continuation (rest.length + 1) := by
  have remark := @isRemark_append_blank rest '\n' (.inr (.inr rfl)) before nonempty later
  have length := continuationLength?_append_feed rest unindented
  cases rest with
  | nil =>
      exact absurd rfl nonempty
  | cons first others =>
      rw [List.cons_append] at remark length ⊢
      by_cases isBlank : isLineBlank first = true
      · rw [classifyCode_of_isLineBlank _ _ isBlank, classifyCode_of_isLineBlank _ _ isBlank]
        rcases length with same | ⟨noQuote, continues⟩
        · exact .inl (by rw [same])
        · exact .inr ⟨noQuote, by rw [continues]⟩
      · exact .inl (by rw [classifyCode_of_not_isLineBlank _ _ isBlank,
          classifyCode_of_not_isLineBlank _ _ isBlank, remark])

end VisualBasic

namespace Dialect

variable {dialect : Dialect} {state : LexicalState} {rest later : Text}

/-- In front of a line feed a text begins what it begins at the end of a block, but a backslash
does not escape the line feed, and the line feed may complete a line continuation. -/
theorem classify_append_feed
    (before : Option Char)
    (nonempty : rest ≠ [])
    (unindented : dialect = .visualBasic → later.takeWhile VisualBasic.isLineBlank = []) :
    dialect.classify state before (rest ++ '\n' :: later) = dialect.classify state before rest ∨
      (rest = ['\\'] ∧ state.isCode = false ∧
          dialect.classify state before rest = .escape 2 ∧
            dialect.classify state before (rest ++ '\n' :: later) = .abandon) ∨
        dialect = .visualBasic ∧ state.isCode = true ∧ '"' ∉ rest ∧
          dialect.classify state before (rest ++ '\n' :: later) =
            .continuation (rest.length + 1) := by
  cases dialect with
  | csharp marker =>
      exact (CSharp.classify_append_feed state nonempty later).imp_right .inl
  | visualBasic =>
      cases state with
      | code | hole =>
          exact (VisualBasic.classifyCode_append_feed before nonempty (unindented rfl)).imp_right
            fun breaksOff => .inr ⟨rfl, rfl, breaksOff⟩
      | string kind =>
          exact .inl (VisualBasic.classifyString_append_blank (.inr (.inr rfl)) nonempty later)
      | comment =>
          exact .inl rfl

theorem classify_feed_ne_escape
    (before : Option Char)
    (char : Char)
    (later : Text)
    (length : Nat)
    (noCode : state.isCode = false) :
    dialect.classify state before (char :: '\n' :: later) ≠ .escape length := by
  cases state with
  | code | hole =>
      cases noCode
  | string kind =>
      cases dialect with
      | csharp marker =>
          exact CSharp.classifyString_feed_ne_escape kind char later length
      | visualBasic =>
          by_cases isQuote : char = '"'
          · subst isQuote
            simp [classify, VisualBasic.classify, VisualBasic.classifyString,
              VisualBasic.isCharSuffix]
          · simp [classify, VisualBasic.classify, VisualBasic.classifyString, isQuote]
  | comment =>
      cases dialect with
      | csharp marker => simp [classify, CSharp.classify, CSharp.classifyComment]
      | visualBasic => simp [classify, VisualBasic.classify]

end Dialect

end LocalizationScan
