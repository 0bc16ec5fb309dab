import LocalizationScan.Lexical.Dialect
import LocalizationScan.Proofs.Lexical.Continuation
import LocalizationScan.Text.Blank

namespace LocalizationScan

/-!
# Transitions by lexical state

Which transitions the two dialects begin in which state, and what stands at the
start of the rest of the text when they do.  A transition that covers more than
one character only begins where those characters are left, save for an escape
at the end of the text.
-/

namespace CSharp

/-- A text that holds no end of a block comment. -/
def IsCommentBody (body : Text) : Prop :=
  ¬['*', '/'] <:+: body

/-- A character that begins no comment and no string is ordinary code. -/
theorem classifyCode_of_not_mem
    {char : Char}
    (noOpening : char ∉ ['/', '"', '\'', '@', '$'])
    (tail : Text) :
    classifyCode (char :: tail) = .stay := by
  unfold classifyCode
  split <;> simp_all

theorem classifyHole_of_not_mem
    {char : Char}
    (noOpening : char ∉ ['/', '"', '\'', '@', '$'])
    (noBrace : char ∉ ['\x7b', '\x7d'])
    (tail : Text) :
    classifyHole (char :: tail) = .stay := by
  rw [List.mem_cons, List.mem_singleton, not_or] at noBrace
  simpa [classifyHole, noBrace] using classifyCode_of_not_mem noOpening tail

/-- A blank in code begins nothing. -/
theorem classify_of_isBlank
    {state : LexicalState}
    {char : Char}
    (inCode : state.isCode = true)
    (isBlank : Text.isBlank char = true)
    (tail : Text) :
    classify state (char :: tail) = .stay := by
  have others : ['/', '"', '\'', '@', '$', '\x7b', '\x7d'].any Text.isBlank = false := by
    decide
  have noOther : char ∉ ['/', '"', '\'', '@', '$', '\x7b', '\x7d'] :=
    fun member => List.any_eq_false.mp others char member isBlank
  have noOpening : char ∉ ['/', '"', '\'', '@', '$'] := by simp_all
  cases state with
  | code =>
      exact classifyCode_of_not_mem noOpening tail
  | hole =>
      exact classifyHole_of_not_mem noOpening (by simp_all) tail
  | string _ | comment =>
      cases inCode

/-- In code an ordinary character, a comment or a string begins. -/
theorem classifyCode_cases (char : Char) (tail : Text) :
    classifyCode (char :: tail) = .stay ∨
      (classifyCode (char :: tail) = .lineComment ∧ char ≠ '\n') ∨
      (classifyCode (char :: tail) = .openComment 2 ∧
        ∃ later, char :: tail = ['/', '*'] ++ later) ∨
      ∃ kind piece later,
        char :: tail = piece ++ later ∧ piece ≠ [] ∧
          classifyCode (char :: tail) = .openString kind piece.length := by
  generalize text : char :: tail = rest
  fun_cases classifyCode rest with
  | case1 later =>
      cases text
      simp
  | case2 later =>
      exact .inr (.inr (.inl ⟨rfl, later, rfl⟩))
  | case3 later =>
      exact .inr (.inr (.inr ⟨.regular, ['"'], later, rfl, by simp, rfl⟩))
  | case4 later =>
      exact .inr (.inr (.inr ⟨.char, ['\''], later, rfl, by simp, rfl⟩))
  | case5 later =>
      exact .inr (.inr (.inr ⟨.verbatim, ['@', '"'], later, rfl, by simp, rfl⟩))
  | case6 later =>
      exact .inr (.inr (.inr
        ⟨.interpolatedVerbatim, ['@', '$', '"'], later, rfl, by simp, rfl⟩))
  | case7 later =>
      exact .inr (.inr (.inr
        ⟨.interpolatedVerbatim, ['$', '@', '"'], later, rfl, by simp, rfl⟩))
  | case8 later =>
      exact .inr (.inr (.inr ⟨.interpolated, ['$', '"'], later, rfl, by simp, rfl⟩))
  | case9 =>
      exact .inl rfl

/-- A brace is a token of its own only in the code of a hole. -/
theorem classifyHole_cases (char : Char) (tail : Text) :
    (char = '\x7b' ∧ classifyHole (char :: tail) = .brace true) ∨
      (char = '\x7d' ∧ classifyHole (char :: tail) = .brace false) ∨
      classifyHole (char :: tail) = classifyCode (char :: tail) := by
  generalize text : char :: tail = rest
  fun_cases classifyHole rest with
  | case1 later =>
      cases text
      simp
  | case2 later =>
      cases text
      simp
  | case3 =>
      simp

/-- What begins inside a string that ends at its line. -/
theorem classifyLineString_cases
    (quote : Char)
    (emit : Bool)
    (char : Char)
    (tail : Text) :
    classifyLineString quote emit (char :: tail) = .stay ∨
      classifyLineString quote emit (char :: tail) = .escape 2 ∨
      classifyLineString quote emit (char :: tail) = .closeString 1 emit ∨
      (classifyLineString quote emit (char :: tail) = .abandon ∧
        Text.isIdentifierChar char = false) := by
  generalize text : char :: tail = rest
  fun_cases classifyLineString quote emit rest with
  | case1 =>
      cases text
  | case2 later | case3 later | case5 later | case6 later =>
      cases text
      exact .inr (.inr (.inr ⟨rfl, by decide⟩))
  | case4 | case7 | case8 =>
      simp_all

theorem classifyVerbatim_cases
    (emit : Bool)
    (char : Char)
    (tail : Text) :
    classifyVerbatim emit (char :: tail) = .stay ∨
      classifyVerbatim emit (char :: tail) = .escape 2 ∨
      classifyVerbatim emit (char :: tail) = .closeString 1 emit := by
  generalize text : char :: tail = rest
  fun_cases classifyVerbatim emit rest <;> simp_all

/-- Braces begin an escape or a hole, or mean nothing. -/
theorem classifyBrace?_cases (char : Char) (tail : Text) :
    classifyBrace? (char :: tail) = none ∨
      classifyBrace? (char :: tail) = some (.escape 2) ∨
      (char = '\x7b' ∧ classifyBrace? (char :: tail) = some .openHole) := by
  generalize text : char :: tail = rest
  fun_cases classifyBrace? rest with
  | case1 | case2 | case4 =>
      simp
  | case3 later =>
      cases text
      simp

/-- What begins inside a string of any kind. -/
theorem classifyString_cases (kind : StringKind) (char : Char) (tail : Text) :
    classifyString kind (char :: tail) = .stay ∨
      classifyString kind (char :: tail) = .escape 2 ∨
      (∃ emit, classifyString kind (char :: tail) = .closeString 1 emit) ∨
      (classifyString kind (char :: tail) = .abandon ∧ Text.isIdentifierChar char = false) ∨
      (char = '\x7b' ∧ kind.isInterpolated = true ∧
        classifyString kind (char :: tail) = .openHole) := by
  have line := fun quote emit => classifyLineString_cases quote emit char tail
  have verbatim := fun emit => classifyVerbatim_cases emit char tail
  cases kind with
  | regular =>
      rcases line '"' true with same | same | same | same <;>
        simp [classifyString, same]
  | char =>
      rcases line '\'' false with same | same | same | same <;>
        simp [classifyString, same]
  | verbatim =>
      rcases verbatim true with same | same | same <;>
        simp [classifyString, same]
  | interpolated =>
      -- A brace is looked for first; without one the text reads as that of the plain form.
      rcases classifyBrace?_cases char tail with none | escape | ⟨brace, hole⟩
      · rcases line '"' false with same | same | same | same <;>
          simp [classifyString, none, same]
      · simp [classifyString, escape]
      · exact .inr (.inr (.inr (.inr ⟨brace, rfl, by simp [classifyString, hole]⟩)))
  | interpolatedVerbatim =>
      rcases classifyBrace?_cases char tail with none | escape | ⟨brace, hole⟩
      · rcases verbatim false with same | same | same <;>
          simp [classifyString, none, same]
      · simp [classifyString, escape]
      · exact .inr (.inr (.inr (.inr ⟨brace, rfl, by simp [classifyString, hole]⟩)))

theorem classifyComment_cases (char : Char) (tail : Text) :
    classifyComment (char :: tail) = .stay ∨
      (classifyComment (char :: tail) = .closeComment 2 ∧
        ∃ later, char :: tail = ['*', '/'] ++ later) := by
  generalize text : char :: tail = rest
  fun_cases classifyComment rest with
  | case1 later =>
      exact .inr ⟨rfl, later, rfl⟩
  | case2 =>
      exact .inl rfl

end CSharp

namespace VisualBasic

/-- A blank begins a line continuation, or means nothing. -/
theorem classifyCode_of_isLineBlank
    (before : Option Char)
    {char : Char}
    (tail : Text)
    (isBlank : isLineBlank char = true) :
    classifyCode before (char :: tail) =
      match continuationLength? (char :: tail) with
      | some length => .continuation length
      | none => .stay := by
  generalize text : char :: tail = rest
  fun_cases classifyCode before rest with
  | case1 =>
      cases text
  | case2 later =>
      cases text
      cases isBlank
  | case3 later =>
      cases text
      cases isBlank
  | case4 _ _ _ _ _ _ continued =>
      rw [continued]
  | case5 _ _ _ _ _ unfinished =>
      rw [unfinished]
  | case6 _ _ _ _ noBlank | case7 _ _ _ _ noBlank =>
      cases text
      exact absurd isBlank noBlank

/-- Code that starts with no blank begins a string, a comment or nothing. -/
theorem classifyCode_of_not_isLineBlank
    (before : Option Char)
    {char : Char}
    (tail : Text)
    (nonBlank : ¬isLineBlank char = true) :
    classifyCode before (char :: tail) =
      if char = '"' then .openString .regular 1
      else if char = '\'' ∨ isRemark before (char :: tail) = true then .lineComment
      else .stay := by
  by_cases isQuote : char = '"'
  · simp [classifyCode, isQuote]
  · by_cases isApostrophe : char = '\''
    · simp [classifyCode, isApostrophe]
    · simp [classifyCode, nonBlank, isQuote, isApostrophe]

/-- In code an ordinary character, a comment, a string or a continuation begins. -/
theorem classifyCode_cases (before : Option Char) (char : Char) (tail : Text) :
    classifyCode before (char :: tail) = .stay ∨
      (classifyCode before (char :: tail) = .lineComment ∧ char ≠ '\n') ∨
      (char = '"' ∧ classifyCode before (char :: tail) = .openString .regular 1) ∨
      ∃ piece later,
        char :: tail = piece ++ later ∧ IsContinuation piece ∧
          classifyCode before (char :: tail) = .continuation piece.length := by
  generalize text : char :: tail = rest
  fun_cases classifyCode before rest with
  | case1 =>
      cases text
  | case2 later =>
      cases text
      simp
  | case3 later =>
      cases text
      simp
  | case4 first later _ _ _ length continued =>
      obtain ⟨piece, behind, shape, isContinuation, -, rfl⟩ :=
        exists_isContinuation_of_continuationLength? continued
      simp only [continued]
      exact .inr (.inr (.inr ⟨piece, behind, shape, isContinuation, rfl⟩))
  | case5 first later _ _ _ unfinished =>
      simp [unfinished]
  | case6 first later _ _ _ remark =>
      cases text
      simp only [remark, ↓reduceIte]
      -- A remark begins with a letter, so not at the end of a line.
      refine .inr (.inl ⟨trivial, ?_⟩)
      rintro rfl
      simp [isRemark, Text.startsIgnoringCase, Text.sameIgnoringCase] at remark
  | case7 first later _ _ _ noRemark =>
      simp [noRemark]

/-- What begins inside a string. -/
theorem classifyString_cases (char : Char) (tail : Text) :
    classifyString (char :: tail) = .stay ∨
      classifyString (char :: tail) = .escape 2 ∨
      ∃ emit piece later,
        char :: tail = piece ++ later ∧ piece ≠ [] ∧
          classifyString (char :: tail) = .closeString piece.length emit := by
  generalize text : char :: tail = rest
  fun_cases classifyString rest with
  | case1 | case4 =>
      simp
  | case2 later _ suffix =>
      cases later with
      | nil =>
          cases suffix
      | cons letter later =>
          exact .inr (.inr ⟨false, ['"', letter], later, rfl, by simp, rfl⟩)
  | case3 later =>
      exact .inr (.inr ⟨true, ['"'], later, rfl, by simp, rfl⟩)

end VisualBasic

/-- Whether a transition can begin in a lexical state. -/
def Transition.Fits (state : LexicalState) : Transition → Prop
  | .stay => True
  | .openString _ _ | .openComment _ | .lineComment | .continuation _ => state.isCode = true
  | .escape _ | .closeString _ _ | .abandon | .openHole => ∃ kind, state = .string kind
  | .closeComment _ => state = .comment
  | .brace _ => state = .hole

theorem CSharp.fits_classifyCode
    {state : LexicalState}
    (inCode : state.isCode = true)
    (char : Char)
    (tail : Text) :
    (classifyCode (char :: tail)).Fits state := by
  rcases classifyCode_cases char tail with
      same | ⟨same, -⟩ | ⟨same, -⟩ | ⟨_, _, _, -, -, same⟩
  · rw [same]
    trivial
  all_goals
    rw [same]
    exact inCode

/-- A dialect closes only what is open, and counts braces only in holes. -/
theorem Dialect.fits_classify_cons
    (dialect : Dialect)
    (state : LexicalState)
    (before : Option Char)
    (char : Char)
    (tail : Text) :
    (dialect.classify state before (char :: tail)).Fits state := by
  cases dialect with
  | csharp marker =>
      cases state with
      | code =>
          exact CSharp.fits_classifyCode rfl char tail
      | hole =>
          rw [classify, CSharp.classify]
          rcases CSharp.classifyHole_cases char tail with ⟨-, same⟩ | ⟨-, same⟩ | same
          · rw [same]
            rfl
          · rw [same]
            rfl
          · rw [same]
            exact CSharp.fits_classifyCode rfl char tail
      | string kind =>
          rw [classify, CSharp.classify]
          rcases CSharp.classifyString_cases kind char tail with
              same | same | ⟨_, same⟩ | ⟨same, -⟩ | ⟨-, -, same⟩
          · rw [same]
            trivial
          all_goals
            rw [same]
            exact ⟨kind, rfl⟩
      | comment =>
          rw [classify, CSharp.classify]
          rcases CSharp.classifyComment_cases char tail with same | ⟨same, -⟩
          · rw [same]
            trivial
          · rw [same]
            rfl
  | visualBasic =>
      cases state with
      | code | hole =>
          rw [classify, VisualBasic.classify]
          rcases VisualBasic.classifyCode_cases before char tail with
              same | ⟨same, -⟩ | ⟨-, same⟩ | ⟨_, _, -, -, same⟩
          · rw [same]
            trivial
          all_goals
            rw [same]
            rfl
      | string kind =>
          rw [classify, VisualBasic.classify]
          rcases VisualBasic.classifyString_cases char tail with
              same | same | ⟨_, _, _, -, -, same⟩
          · rw [same]
            trivial
          all_goals
            rw [same]
            exact ⟨kind, rfl⟩
      | comment =>
          trivial

theorem Dialect.classify_nil
    (dialect : Dialect)
    (state : LexicalState)
    (before : Option Char) :
    dialect.classify state before [] = .stay := by
  cases dialect with
  | csharp marker =>
      rcases state with _ | (_ | _ | _ | _ | _) | _ | _ <;> rfl
  | visualBasic =>
      cases state <;> rfl

theorem Dialect.fits_classify
    (dialect : Dialect)
    (state : LexicalState)
    (before : Option Char)
    (rest : Text) :
    (dialect.classify state before rest).Fits state := by
  cases rest with
  | nil =>
      rw [classify_nil]
      trivial
  | cons char tail =>
      exact dialect.fits_classify_cons state before char tail

/-- The closing delimiter of a string stands at the start of what is left. -/
theorem Dialect.length_of_closeString
    {dialect : Dialect}
    {kind : StringKind}
    {before : Option Char}
    {rest : Text}
    {length : Nat}
    {emit : Bool}
    (closes : dialect.classify (.string kind) before rest = .closeString length emit) :
    1 ≤ length ∧ length ≤ rest.length := by
  obtain ⟨char, tail, rfl⟩ : ∃ char tail, rest = char :: tail := by
    cases rest with
    | nil =>
        rw [classify_nil] at closes
        cases closes
    | cons char tail =>
        exact ⟨char, tail, rfl⟩
  cases dialect with
  | csharp marker =>
      rw [classify, CSharp.classify] at closes
      rcases CSharp.classifyString_cases kind char tail with
          same | same | ⟨_, same⟩ | ⟨same, -⟩ | ⟨-, -, same⟩
      all_goals
        rw [same] at closes
        cases closes
      simp
  | visualBasic =>
      rw [classify, VisualBasic.classify] at closes
      rcases VisualBasic.classifyString_cases char tail with
          same | same | ⟨_, piece, later, shape, nonempty, same⟩
      all_goals
        rw [same] at closes
        cases closes
      rw [shape, List.length_append]
      exact ⟨List.length_pos_iff.mpr nonempty, Nat.le_add_right _ _⟩

/-- Length of the delimiter that opens a string or a comment. -/
def Transition.openingLength? : Transition → Option Nat
  | .openString _ length | .openComment length => some length
  | _ => none

theorem CSharp.length_of_opening
    {char : Char}
    {tail : Text}
    {length : Nat}
    (opens : (classifyCode (char :: tail)).openingLength? = some length) :
    1 ≤ length ∧ length ≤ (char :: tail).length := by
  rcases classifyCode_cases char tail with
      same | ⟨same, -⟩ | ⟨same, later, shape⟩ | ⟨_, piece, later, shape, nonempty, same⟩
  all_goals
    rw [same] at opens
    cases opens
  · rw [shape, List.length_append]
    exact ⟨Nat.succ_pos 1, Nat.le_add_right _ _⟩
  · rw [shape, List.length_append]
    exact ⟨List.length_pos_iff.mpr nonempty, Nat.le_add_right _ _⟩

/-- An opening delimiter stands at the start of what is left. -/
theorem Dialect.length_of_opening
    {dialect : Dialect}
    {state : LexicalState}
    {before : Option Char}
    {rest : Text}
    {length : Nat}
    (opens : (dialect.classify state before rest).openingLength? = some length) :
    1 ≤ length ∧ length ≤ rest.length := by
  obtain ⟨char, tail, rfl⟩ : ∃ char tail, rest = char :: tail := by
    cases rest with
    | nil =>
        rw [classify_nil] at opens
        cases opens
    | cons char tail =>
        exact ⟨char, tail, rfl⟩
  cases dialect with
  | csharp marker =>
      cases state with
      | code =>
          exact CSharp.length_of_opening opens
      | hole =>
          rw [classify, CSharp.classify] at opens
          rcases CSharp.classifyHole_cases char tail with ⟨-, same⟩ | ⟨-, same⟩ | same
          all_goals
            rw [same] at opens
          · cases opens
          · cases opens
          · exact CSharp.length_of_opening opens
      | string kind =>
          rw [classify, CSharp.classify] at opens
          rcases CSharp.classifyString_cases kind char tail with
              same | same | ⟨_, same⟩ | ⟨same, -⟩ | ⟨-, -, same⟩
          all_goals
            rw [same] at opens
            cases opens
      | comment =>
          rw [classify, CSharp.classify] at opens
          rcases CSharp.classifyComment_cases char tail with same | ⟨same, -⟩
          all_goals
            rw [same] at opens
            cases opens
  | visualBasic =>
      cases state with
      | code | hole =>
          rw [classify, VisualBasic.classify] at opens
          rcases VisualBasic.classifyCode_cases before char tail with
              same | ⟨same, -⟩ | ⟨-, same⟩ | ⟨_, _, -, -, same⟩
          all_goals
            rw [same] at opens
            cases opens
          exact ⟨Nat.le_refl 1, Nat.succ_pos _⟩
      | string kind =>
          rw [classify, VisualBasic.classify] at opens
          rcases VisualBasic.classifyString_cases char tail with
              same | same | ⟨_, _, _, -, -, same⟩
          all_goals
            rw [same] at opens
            cases opens
      | comment =>
          cases opens

/-- Only strings of C# have holes. -/
theorem Dialect.exists_csharp_of_openHole
    {dialect : Dialect}
    {kind : StringKind}
    {before : Option Char}
    {char : Char}
    {tail : Text}
    (opens : dialect.classify (.string kind) before (char :: tail) = .openHole) :
    ∃ marker, dialect = .csharp marker := by
  cases dialect with
  | csharp marker =>
      exact ⟨marker, rfl⟩
  | visualBasic =>
      rw [classify, VisualBasic.classify] at opens
      rcases VisualBasic.classifyString_cases char tail with
          same | same | ⟨_, _, _, -, -, same⟩
      all_goals
        rw [same] at opens
        cases opens

/-- What counts as a brace is one. -/
theorem Dialect.eq_of_brace
    {dialect : Dialect}
    {before : Option Char}
    {char : Char}
    {tail : Text}
    {opening : Bool}
    (counts : dialect.classify .hole before (char :: tail) = .brace opening) :
    char = if opening then '\x7b' else '\x7d' := by
  cases dialect with
  | csharp marker =>
      rw [classify, CSharp.classify] at counts
      rcases CSharp.classifyHole_cases char tail with ⟨isBrace, same⟩ | ⟨isBrace, same⟩ | same
      · rw [same] at counts
        cases counts
        exact isBrace
      · rw [same] at counts
        cases counts
        exact isBrace
      · rw [same] at counts
        have fits : Transition.Fits .code _ := CSharp.fits_classifyCode rfl char tail
        rw [counts] at fits
        cases fits
  | visualBasic =>
      rw [classify, VisualBasic.classify] at counts
      rcases VisualBasic.classifyCode_cases before char tail with
          same | ⟨same, -⟩ | ⟨-, same⟩ | ⟨_, _, -, -, same⟩
      all_goals
        rw [same] at counts
        cases counts

end LocalizationScan
