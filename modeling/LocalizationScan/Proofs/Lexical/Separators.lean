import LocalizationScan.Lexical.Event
import LocalizationScan.Proofs.Lexical.Continuation
import LocalizationScan.Proofs.Lexical.StatementBreak

namespace LocalizationScan

/-!
# Transitions in front of comments and continuations

In front of a block comment of C# or a line continuation of Visual Basic a text
begins what it begins in front of a blank, unless what it begins goes on into
the comment or the continuation.
-/

/-- Whether a text reads in front of one text as in front of another, save where it begins
something that goes on into the first of them. -/
def Dialect.ReadsAlike (dialect : Dialect) (first second : Text) : Prop :=
  ∀ state before rest, rest ≠ [] →
    dialect.classify state before (rest ++ first) =
        dialect.classify state before (rest ++ second) ∨
      rest.length <
        (dialect.classify state before (rest ++ first)).covered (rest ++ first)

namespace CSharp

variable {rest : Text}

/-- Two slashes begin a comment that covers both of them. -/
theorem one_lt_covered_lineComment (later : Text) :
    1 < Transition.lineComment.covered ('/' :: '/' :: later) := by
  simp only [Transition.covered, List.takeWhile_cons, List.length_cons]
  simp

theorem classifyCode_append_comment
    (nonempty : rest ≠ [])
    (later : Text) :
    classifyCode (rest ++ '/' :: later) = classifyCode rest ∨
      rest.length < (classifyCode (rest ++ '/' :: later)).covered (rest ++ '/' :: later) := by
  by_cases isSlash : rest = ['/']
  · subst isSlash
    exact .inr (one_lt_covered_lineComment later)
  · exact .inl (classifyCode_append_separator (.inr ⟨rfl, isSlash⟩) nonempty later)

/-- In front of a comment a text begins what it begins at the end of a block, unless it goes on
into the comment. -/
theorem classify_append_comment
    (state : LexicalState)
    (nonempty : rest ≠ [])
    (later : Text) :
    classify state (rest ++ '/' :: later) = classify state rest ∨
      rest.length < (classify state (rest ++ '/' :: later)).covered (rest ++ '/' :: later) := by
  cases state with
  | code =>
      exact classifyCode_append_comment nonempty later
  | string kind =>
      exact .inl (classifyString_append_separator kind (.inl (by simp)) nonempty later)
  | comment =>
      by_cases isStar : rest = ['*']
      · subst isStar
        exact .inr (by simp [classify, classifyComment, Transition.covered])
      · exact .inl (classifyComment_append_separator (.inr ⟨rfl, isStar⟩) nonempty later)
  | hole =>
      by_cases isSlash : rest = ['/']
      · subst isSlash
        exact .inr (one_lt_covered_lineComment later)
      · exact .inl (classifyHole_append_separator (.inr ⟨rfl, isSlash⟩) nonempty later)

end CSharp

/-- A text reads in front of a comment as in front of a blank. -/
theorem Dialect.readsAlike_comment (marker comment later : Text) :
    (Dialect.csharp marker).ReadsAlike ('/' :: comment) (' ' :: later) := by
  intro state before rest nonempty
  rw [classify, classify, CSharp.classify_append_blank state nonempty later]
  exact CSharp.classify_append_comment state nonempty comment

namespace VisualBasic

variable {rest piece later : Text}

/-- More blanks in front of a continuation belong to it. -/
theorem continuationLength?_blanks_append
    (blank : ∀ char ∈ rest, isLineBlank char = true)
    (continues : continuationLength? (piece ++ later) = some piece.length) :
    continuationLength? (rest ++ (piece ++ later)) = some (rest.length + piece.length) := by
  obtain ⟨continued, stops⟩ := isContinuation_of_continuationLength? continues
  have longer := (continued.blanks_append blank).continuationLength?_append later
  rwa [List.append_assoc, stops, List.length_append, List.length_nil, Nat.add_zero] at longer

/-- Indentation is as long in front of blanks as in front of others, or it takes blanks along. -/
theorem length_takeWhile_append_blanks
    {blanks behind : Text}
    (separated : blanks ≠ [])
    (blank : ∀ char ∈ blanks, isLineBlank char = true)
    (next other : Text) :
    ((next ++ (blanks ++ behind)).takeWhile isLineBlank).length =
        ((next ++ other).takeWhile isLineBlank).length ∨
      next.length < ((next ++ (blanks ++ behind)).takeWhile isLineBlank).length := by
  by_cases whole : (next.takeWhile isLineBlank).length = next.length
  · refine .inr ?_
    rw [List.takeWhile_append, if_pos whole, List.takeWhile_append_of_pos blank]
    have positive := List.length_pos_iff.mpr separated
    simp only [List.length_append]
    omega
  · exact .inl (by simp only [List.takeWhile_append, if_neg whole])

/-- A continuation is met where its recogniser finds one. -/
theorem continuationLength?_of_classify
    {state : LexicalState}
    {before : Option Char}
    {length : Nat}
    (met : classify state before rest = .continuation length) :
    continuationLength? rest = some length := by
  have inCode (met : classifyCode before rest = .continuation length) :
      continuationLength? rest = some length := by
    revert met
    fun_cases classifyCode before rest <;> simp_all
  cases state with
  | code | hole => exact inCode met
  | string kind =>
      revert met
      simp only [classify]
      fun_cases classifyString rest <;> simp
  | comment => cases met

theorem isLineBlank_eq_false
    (stops : later.takeWhile isLineBlank = []) :
    ∀ char ∈ later.head?, isLineBlank char = false := by
  cases later with
  | nil =>
      simp
  | cons first others =>
      rintro _ ⟨⟩
      rw [← Bool.not_eq_true]
      intro isBlank
      simp [isBlank] at stops

theorem staysInLine_blank
    (stops : later.takeWhile isLineBlank = [])
    (noBreak : ∀ char ∈ later.head?, char ≠ '\r' ∧ char ≠ '\n') :
    StaysInLine (' ' :: later) := by
  refine @StaysInLine.intro [' '] later (List.forall_mem_singleton.mpr rfl) fun char head => ?_
  exact ⟨isLineBlank_eq_false stops char head, noBreak char head⟩

/-- A blank in code begins nothing when no blank and no underscore follows. -/
theorem classify_blank
    {state : LexicalState}
    (inCode : state.isCode = true)
    (before : Option Char)
    (stops : later.takeWhile isLineBlank = [])
    (noUnderscore : ∀ char ∈ later.head?, char ≠ '_') :
    classify state before (' ' :: later) = .stay := by
  have continuesNot : continuationLength? (' ' :: later) = none := by
    cases later with
    | nil =>
        rfl
    | cons first others =>
        exact continuationLength?_eq_none (List.forall_mem_singleton.mpr rfl)
          (isLineBlank_eq_false stops first rfl) (.inr (noUnderscore first rfl)) others
  cases state with
  | code | hole =>
      rw [classify, classifyCode_of_isLineBlank _ _ rfl, continuesNot]
  | string | comment =>
      cases inCode

section Continuation

variable
    (continues : continuationLength? (piece ++ later) = some piece.length)
    (noBreak : ∀ char ∈ later.head?, char ≠ '\r' ∧ char ≠ '\n')
include continues

theorem length_pos_of_continuationLength? : 0 < piece.length :=
  List.length_pos_iff.mpr (isContinuation_of_continuationLength? continues).1.ne_nil

include noBreak

/-- A line goes on in front of a continuation as in front of a blank, unless its continuation
takes the other one along. -/
theorem continuationLength?_append_continuation (rest : Text) :
    continuationLength? (rest ++ (piece ++ later)) = continuationLength? (rest ++ ' ' :: later) ∨
      ∃ length,
        continuationLength? (rest ++ (piece ++ later)) = some length ∧ rest.length < length := by
  obtain ⟨continued, ends⟩ := isContinuation_of_continuationLength? continues
  obtain ⟨blanks, behind, shape, separated, blank⟩ := continued.exists_eq_underscore later
  have positive := length_pos_of_continuationLength? continues
  cases continuationStart rest with
  | blank allBlank =>
      exact .inr ⟨_, continuationLength?_blanks_append allBlank continues, by omega⟩
  | unbroken leading leadingBlank trailingBlank breaksOff =>
      -- Behind the blanks an underscore follows, or what is neither a blank nor a line break.
      have decided {text : Text} (inLine : StaysInLine text) :=
        continuationLength?_unbroken leading leadingBlank trailingBlank breaksOff inLine
      have inLine : StaysInLine (piece ++ later) := by
        rw [shape]
        exact .intro blank (by rintro _ ⟨⟩; decide)
      exact .inl (by rw [decided inLine, decided (staysInLine_blank ends noBreak)])
  | @broken front next decided =>
      rw [decided, decided, shape]
      rcases length_takeWhile_append_blanks separated blank next (' ' :: later) with
          same | longer
      · exact .inl (by rw [same])
      · refine .inr ⟨_, rfl, ?_⟩
        rw [List.length_append]
        exact Nat.add_lt_add_left longer _
  | other decided =>
      exact .inl (by rw [decided, decided])

theorem classifyCode_append_continuation
    (before : Option Char)
    (nonempty : rest ≠ []) :
    classifyCode before (rest ++ (piece ++ later)) = classifyCode before (rest ++ ' ' :: later) ∨
      ∃ length,
        classifyCode before (rest ++ (piece ++ later)) = .continuation length ∧
          rest.length < length := by
  have remark :
      isRemark before (rest ++ (piece ++ later)) = isRemark before (rest ++ ' ' :: later) := by
    obtain ⟨blank, behind, shape, isBlank⟩ := exists_blank_of_continuationLength? continues
    rw [shape,
      isRemark_append_blank ((eq_of_isLineBlank isBlank).imp_right .inl) before nonempty,
      isRemark_append_blank (.inl rfl) before nonempty]
  have length := continuationLength?_append_continuation continues noBreak rest
  cases rest with
  | nil =>
      exact absurd rfl nonempty
  | cons first others =>
      rw [List.cons_append, List.cons_append] at remark length ⊢
      by_cases isBlank : isLineBlank first = true
      · rw [classifyCode_of_isLineBlank _ _ isBlank, classifyCode_of_isLineBlank _ _ isBlank]
        rcases length with same | ⟨length, found, longer⟩
        · exact .inl (by rw [same])
        · exact .inr ⟨length, by rw [found], longer⟩
      · exact .inl (by rw [classifyCode_of_not_isLineBlank _ _ isBlank,
          classifyCode_of_not_isLineBlank _ _ isBlank, remark])

end Continuation

end VisualBasic

/-- A text reads in front of a line continuation as in front of a blank. -/
theorem Dialect.readsAlike_continuation
    {piece later : Text}
    (continues : VisualBasic.continuationLength? (piece ++ later) = some piece.length)
    (noBreak : ∀ char ∈ later.head?, char ≠ '\r' ∧ char ≠ '\n') :
    Dialect.visualBasic.ReadsAlike (piece ++ later) (' ' :: later) := by
  intro state before rest nonempty
  cases state with
  | code | hole =>
      rcases VisualBasic.classifyCode_append_continuation continues noBreak before nonempty with
          same | ⟨length, found, longer⟩
      · exact .inl same
      · refine .inr ?_
        have positive := VisualBasic.length_pos_of_continuationLength? continues
        simp only [classify, VisualBasic.classify, found, Transition.covered, List.length_append]
        omega
  | string kind =>
      obtain ⟨blank, behind, shape, isBlank⟩ :=
        VisualBasic.exists_blank_of_continuationLength? continues
      refine .inl ?_
      rw [classify, classify, VisualBasic.classify, VisualBasic.classify, shape,
        VisualBasic.classifyString_append_blank
          ((VisualBasic.eq_of_isLineBlank isBlank).imp_right .inl) nonempty,
        VisualBasic.classifyString_append_blank (.inl rfl) nonempty]
  | comment =>
      exact .inl rfl

end LocalizationScan
