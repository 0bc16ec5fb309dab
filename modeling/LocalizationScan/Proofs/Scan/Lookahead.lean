import LocalizationScan.Proofs.Reference.Segments
import LocalizationScan.Proofs.Scan.Move

namespace LocalizationScan

/-!
# What follows an identifier character

A scan tells with every character of code what follows it in the text.  Behind
an identifier character this foretells the marks that follow: they go on with
an identifier character when the text does.
-/

/-- Whether marks go on with an identifier character. -/
def goesOn : List Mark → Bool
  | .identifier _ _ _ :: _ => true
  | _ => false

/-- Whether the marks that follow each identifier character among events go on with an
identifier character when the text behind it does. -/
def Foretells : List Event → Prop
  | [] => True
  | .code char _ next :: events =>
      (Text.isIdentifierChar char = true →
        next.any Text.isIdentifierChar = goesOn (events.filterMap Event.mark?)) ∧
        Foretells events
  | _ :: events => Foretells events

/-- Behind an identifier character, an identifier character of code begins nothing else. -/
theorem Dialect.classify_code_of_isIdentifierChar
    (dialect : Dialect)
    (holes : List Hole)
    {before char : Char}
    (later : Text)
    (behindIdentifier : Text.isIdentifierChar before = true)
    (isIdentifier : Text.isIdentifierChar char = true) :
    dialect.classify (Control.lexicalState ⟨.resting, holes⟩) (some before) (char :: later) =
      .stay := by
  have differs (others : Text) (noIdentifier : others.any Text.isIdentifierChar = false) :
      char ∉ others :=
    fun member => List.any_eq_false.mp noIdentifier char member isIdentifier
  cases dialect with
  | csharp marker =>
      have noOpening := differs ['/', '"', '\'', '@', '$'] (by decide)
      cases holes with
      | nil =>
          exact CSharp.classifyCode_of_not_mem noOpening later
      | cons hole outer =>
          have noBrace := differs ['\x7b', '\x7d'] (by decide)
          exact CSharp.classifyHole_of_not_mem noOpening noBrace later
  | visualBasic =>
      have noOpening := differs ['"', '\'', ' ', '\t'] (by decide)
      have nonBlank : ¬VisualBasic.isLineBlank char = true := by
        intro isBlank
        rcases VisualBasic.eq_of_isLineBlank isBlank with rfl | rfl <;> simp at noOpening
      have inCode : VisualBasic.classifyCode (some before) (char :: later) = .stay := by
        rw [VisualBasic.classifyCode_of_not_isLineBlank _ _ nonBlank]
        simp only [List.mem_cons, not_or] at noOpening
        simp [VisualBasic.isRemark, behindIdentifier, noOpening]
      cases holes <;> exact inCode

/-- A continuation begins with a blank. -/
theorem VisualBasic.IsContinuation.any_head?
    {piece : Text}
    (continued : VisualBasic.IsContinuation piece)
    (later : Text) :
    (piece ++ later).head?.any Text.isIdentifierChar = false := by
  cases continued with
  | @intro blanks _ _ _ separated blanksBlank =>
      cases blanks with
      | nil =>
          exact absurd rfl separated
      | cons first others =>
          have firstBlank := blanksBlank first List.mem_cons_self
          simp only [VisualBasic.isLineBlank, Bool.or_eq_true, beq_iff_eq] at firstBlank
          have noIdentifier : Text.isIdentifierChar first = false := by
            rcases firstBlank with rfl | rfl <;> decide
          simpa using noIdentifier

namespace Run

variable {dialect : Dialect} {anchor : Position} {done rest : Text} {events : List Event}

theorem goesOn_inComment
    {token : OpenToken}
    {holes : List Hole}
    (run : Run dialect anchor ⟨.inComment token, holes⟩ done rest events) :
    goesOn (events.filterMap Event.mark?) = false := by
  generalize shape : (⟨.inComment token, holes⟩ : Control) = control at run
  induction run with
  | finished =>
      rfl
  | move nonempty here behind inductionHypothesis =>
      subst shape
      cases here with
      | commentText =>
          exact inductionHypothesis rfl
      | closeComment =>
          rfl

/-- The marks behind an identifier character go on with another when the text does. -/
theorem goesOn_behindIdentifier
    {holes : List Hole}
    {char : Char}
    (run : Run dialect anchor ⟨.resting, holes⟩ (done ++ [char]) rest events)
    (isIdentifier : Text.isIdentifierChar char = true) :
    rest.head?.any Text.isIdentifierChar = goesOn (events.filterMap Event.mark?) := by
  cases run with
  | finished =>
      rfl
  | @move _ next _ piece later events laterEvents nonempty here behind =>
      rw [List.getLast?_concat] at here
      -- Behind an identifier the dialects let its characters pass, so a piece that is no
      -- character of code begins with another character.
      have noIdentifier
          (begins :
            dialect.classify (Control.lexicalState ⟨.resting, holes⟩) (some char)
                (piece ++ later) ≠
              .stay) :
          (piece ++ later).head?.any Text.isIdentifierChar = false := by
        cases piece with
        | nil =>
            exact absurd rfl nonempty
        | cons first others =>
            by_cases isFirst : Text.isIdentifierChar first = true
            · exact absurd
                (dialect.classify_code_of_isIdentifierChar holes _ isIdentifier isFirst) begins
            · simpa using isFirst
      cases here with
      | @code first _ _ classified =>
          by_cases isFirst : Text.isIdentifierChar first = true
          · simp [Event.mark?, Mark.ofChar, isFirst, goesOn]
          · by_cases isDot : first = '.' <;> by_cases isBlank : Text.isBlank first = true <;>
              simp_all [Event.mark?, Mark.ofChar, goesOn]
      | lineComment classified =>
          exact noIdentifier (by simp [classified])
      | openString classified =>
          exact noIdentifier (by simp [classified])
      | openComment =>
          exact (goesOn_inComment behind).symm
      | continuation _ continued =>
          exact continued.any_head? later
      | openBrace | closeBrace | closeHole =>
          rfl

/-- The events of a run foretell what follows identifier characters. -/
theorem foretells
    {control : Control}
    (run : Run dialect anchor control done rest events) :
    Foretells events := by
  induction run with
  | finished =>
      trivial
  | move nonempty here behind inductionHypothesis =>
      cases here with
      | code =>
          exact ⟨fun isIdentifier => goesOn_behindIdentifier behind isIdentifier,
            inductionHypothesis⟩
      | openBrace | closeBrace =>
          -- Only identifier characters foretell what follows, and a brace is none.
          exact ⟨fun isIdentifier => absurd isIdentifier (by decide), inductionHypothesis⟩
      | abandon _ noIdentifier =>
          exact ⟨fun isIdentifier => by simp [noIdentifier] at isIdentifier,
            inductionHypothesis⟩
      | _ =>
          exact inductionHypothesis

end Run

end LocalizationScan
