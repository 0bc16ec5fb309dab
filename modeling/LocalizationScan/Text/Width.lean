import LocalizationScan.Text.Sequence

namespace LocalizationScan.Text

/-!
# Width of text on a terminal

Columns that a text takes in a terminal with a fixed width font.  Characters
that extend others and ignorable ones take none, those of East Asian scripts
two.  Emoji take two columns, also when several characters make up one emoji,
and the letters of a ligature share theirs.
-/

/-- Put a character before a text that is measured. -/
def measureCons (char : Char) (behind : Int × Following) : Int × Following :=
  let (columns, following) := behind.2.add char
  (columns + behind.1, following)

/-- The columns of a text, and what the text is to a character before it. -/
def measure (text : Text) : Int × Following :=
  text.foldr measureCons (0, .nothing)

/-- Columns of a text. -/
def width (text : Text) : Nat :=
  (measure text).1.toNat

/-- A text never takes back more columns than it has. -/
theorem owed_le_measure (text : Text) :
    (measure text).2.context.owed ≤ (measure text).1 := by
  induction text with
  | nil => decide
  | cons char rest inductionHypothesis =>
      have := (measure rest).2.owed_add_le char
      change (measureCons char (measure rest)).2.context.owed ≤
        (measureCons char (measure rest)).1
      simp only [measureCons]
      omega

/-- The columns of a text are what its characters add up to. -/
theorem width_eq_measure (text : Text) : (width text : Int) = (measure text).1 := by
  have := (measure text).2.context.owed_nonneg
  have := owed_le_measure text
  exact Int.toNat_of_nonneg (by omega)

/-- Characters up to the no-break space take a column each where no carriage return is among
them. -/
theorem width_eq_length
    {text : Text}
    (narrow : ∀ char ∈ text, char.toNat ≤ 0xA0 ∧ char ≠ '\r') :
    width text = text.length := by
  have measured :
      (measure text).1 = text.length ∧
        ((measure text).2 = .nothing ∨ (measure text).2 = .ofContext .lineFeed) := by
    induction text with
    | nil => simp [measure]
    | cons char rest inductionHypothesis =>
        have ⟨columns, following⟩ :=
          inductionHypothesis fun other member => narrow other (by simp [member])
        have ⟨small, noReturn⟩ := narrow char (by simp)
        have unselected : (measure rest).2.asEmoji = false := by
          rcases following with following | following <;> rw [following] <;> rfl
        change (measureCons char (measure rest)).1 = _ ∧
          ((measureCons char (measure rest)).2 = _ ∨ (measureCons char (measure rest)).2 = _)
        by_cases lineFeed : char = '\n'
        · simp [measureCons, Following.add, unselected, Following.addUnselected, lineFeed,
            columns, Int.add_comm]
        · simp [measureCons, Following.add, unselected, Following.addUnselected, lineFeed,
            noReturn, small, columns, Int.add_comm]
  unfold width
  rw [measured.1]
  exact Int.toNat_natCast text.length

end LocalizationScan.Text
