import LocalizationScan.Text.Basic

namespace LocalizationScan

/-!
# Searches in texts

A search for a pattern ends at its first occurrence.  A pattern whose last
character stands nowhere else in it overlaps no other occurrence of itself, so
it is found behind every text that does not hold it.
-/

namespace Text

variable {test : Text → Bool} {pattern text before found : Text}

theorem after?_isSome_iff : (after? pattern text).isSome = true ↔ pattern <+: text := by
  induction pattern generalizing text with
  | nil =>
      simp [after?]
  | cons char pattern inductionHypothesis =>
      cases text with
      | nil => simp [after?]
      | cons other text =>
          rw [after?, List.cons_prefix_cons, ← inductionHypothesis]
          split <;> simp_all

/-- A search ends at a place that satisfies the test, and no place before it does. -/
theorem test_of_splitWhere?
    (split : splitWhere? test text = some (before, found)) :
    test found = true ∧
      ∀ front back, before = front ++ back → back ≠ [] → test (back ++ found) = false := by
  induction text generalizing before with
  | nil =>
      unfold splitWhere? at split
      split at split
      · next holds =>
          cases split
          refine ⟨holds, fun front back shape nonempty => ?_⟩
          exact absurd (List.append_eq_nil_iff.mp shape.symm).2 nonempty
      · cases split
  | cons char rest inductionHypothesis =>
      unfold splitWhere? at split
      split at split
      · next holds =>
          cases split
          refine ⟨holds, fun front back shape nonempty => ?_⟩
          exact absurd (List.append_eq_nil_iff.mp shape.symm).2 nonempty
      · next fails =>
          obtain ⟨⟨earlier, later⟩, splitRest, same⟩ := Option.map_eq_some_iff.mp split
          cases same
          obtain ⟨holds, first⟩ := inductionHypothesis splitRest
          refine ⟨holds, fun front back shape nonempty => ?_⟩
          cases front with
          | nil =>
              rw [List.nil_append] at shape
              rw [← shape, List.cons_append, ← append_of_splitWhere? splitRest]
              simpa using fails
          | cons other front =>
              exact first front back (List.cons.inj shape).2 nonempty

/-- A search that ends nowhere has tested all places. -/
theorem test_of_splitWhere?_eq_none
    (nowhere : splitWhere? test text = none)
    {back : Text}
    (isBack : back <:+ text) :
    test back = false := by
  induction text with
  | nil =>
      obtain rfl := List.suffix_nil.mp isBack
      unfold splitWhere? at nowhere
      split at nowhere
      · cases nowhere
      · next fails => simpa using fails
  | cons char rest inductionHypothesis =>
      unfold splitWhere? at nowhere
      split at nowhere
      · cases nowhere
      · next fails =>
          rcases List.suffix_cons_iff.mp isBack with rfl | isBack
          · simpa using fails
          · exact inductionHypothesis (Option.map_eq_none_iff.mp nowhere) isBack

/-- A search for a pattern ends at its first occurrence. -/
theorem exists_of_splitBefore?
    (split : splitBefore? pattern text = some (before, found))
    (nonempty : pattern ≠ []) :
    ∃ later, found = pattern ++ later ∧ text = before ++ (pattern ++ later) ∧
      ¬pattern <:+: before := by
  obtain ⟨holds, first⟩ := test_of_splitWhere? split
  obtain ⟨later, rfl⟩ := after?_isSome_iff.mp holds
  refine ⟨later, rfl, append_of_splitWhere? split, ?_⟩
  rintro ⟨front, back, rfl⟩
  have earlier := first front (pattern ++ back) (List.append_assoc ..) (by simp [nonempty])
  rw [← Bool.not_eq_true, after?_isSome_iff, List.append_assoc] at earlier
  exact earlier (List.prefix_append ..)

theorem not_isInfix_of_splitBefore?_eq_none
    (nowhere : splitBefore? pattern text = none) :
    ¬pattern <:+: text := by
  rintro ⟨front, back, rfl⟩
  have isBack : pattern ++ back <:+ front ++ pattern ++ back := ⟨front, by simp⟩
  have fails := test_of_splitWhere?_eq_none nowhere isBack
  rw [← Bool.not_eq_true, after?_isSome_iff] at fails
  exact fails (List.prefix_append ..)

theorem splitWhere?_of_test
    (holds : test text = true) :
    splitWhere? test text = some ([], text) := by
  cases text <;> simp [splitWhere?, holds]

/-- A pattern that ends where it is first met does not reach into a text that does not hold
it. -/
theorem not_isPrefix_append
    {stem : Text}
    {last : Char}
    (single : last ∉ stem)
    (nonempty : before ≠ [])
    (absent : ¬stem ++ [last] <:+: before)
    (later : Text) :
    ¬stem ++ [last] <+: before ++ (stem ++ last :: later) := by
  rintro ⟨tail, shape⟩
  rcases List.append_eq_append_iff.mp shape with
      ⟨middle, rfl, -⟩ | ⟨middle, patternShape, textShape⟩
  · exact absent (List.prefix_append _ middle).isInfix
  · rcases List.eq_nil_or_concat middle with rfl | ⟨inner, letter, rfl⟩
    · rw [List.append_nil] at patternShape
      exact absent (patternShape ▸ List.infix_refl _)
    · -- The pattern begins in front of its own copy, so that its last character stands in the stem.
      rw [List.concat_eq_append, ← List.append_assoc] at patternShape
      obtain ⟨rfl, same⟩ := List.append_inj' patternShape rfl
      have isFront : inner ++ [last] <+: before ++ inner := by
        refine List.prefix_of_prefix_length_le ⟨tail, ?_⟩ (List.prefix_append _ (last :: later)) ?_
        · rw [textShape, List.concat_eq_append, same]
        · have positive := List.length_pos_iff.mpr nonempty
          simp only [List.length_append, List.length_singleton]
          omega
      exact single (isFront.subset (by simp))

/-- A text that does not hold a pattern is what stands before the pattern. -/
theorem splitBefore?_append
    {stem : Text}
    {last : Char}
    (single : last ∉ stem)
    (absent : ¬stem ++ [last] <:+: before)
    (later : Text) :
    splitBefore? (stem ++ [last]) (before ++ (stem ++ last :: later)) =
      some (before, stem ++ last :: later) := by
  induction before with
  | nil =>
      refine splitWhere?_of_test (after?_isSome_iff.mpr ⟨later, by simp⟩)
  | cons char before inductionHypothesis =>
      have apart := not_isPrefix_append single (List.cons_ne_nil char before) absent later
      have behind :=
        inductionHypothesis fun holds => absent (holds.trans (List.suffix_cons char before).isInfix)
      rw [← after?_isSome_iff, Bool.not_eq_true] at apart
      unfold splitBefore? at behind ⊢
      rw [List.cons_append] at apart ⊢
      simp [splitWhere?, apart, behind]

/-- A pattern does not begin in a text that does not hold its first character. -/
theorem isInfix_of_isInfix_append
    {first : Char}
    (absent : first ∉ before)
    (holds : first :: pattern <:+: before ++ text) :
    first :: pattern <:+: text := by
  induction before with
  | nil => exact holds
  | cons char before inductionHypothesis =>
      obtain ⟨differs, absentLater⟩ := not_or.mp (mt List.mem_cons.mpr absent)
      rcases List.infix_cons_iff.mp holds with begins | later
      · exact absurd (List.cons_prefix_cons.mp begins).1 differs
      · exact inductionHypothesis absentLater later

/-- A character is first met behind a text that does not hold it. -/
theorem splitFirst?_append
    {separator : Char}
    (absent : separator ∉ before)
    (after : Text) :
    splitFirst? separator (before ++ separator :: after) = some (before, after) := by
  induction before with
  | nil => simp [splitFirst?]
  | cons char before inductionHypothesis =>
      obtain ⟨differs, absentLater⟩ := not_or.mp (mt List.mem_cons.mpr absent)
      rw [List.cons_append, splitFirst?, if_neg (Ne.symm differs),
        inductionHypothesis absentLater]
      rfl

/-- Only one text without a pattern stands before the pattern. -/
theorem eq_of_append_pattern
    (stem : Text)
    {other later behind : Text}
    {last : Char}
    (single : last ∉ stem)
    (absent : ¬stem ++ [last] <:+: before)
    (absentOther : ¬stem ++ [last] <:+: other)
    (same : before ++ (stem ++ last :: later) = other ++ (stem ++ last :: behind)) :
    before = other := by
  have split := splitBefore?_append single absent later
  rw [same, splitBefore?_append single absentOther behind] at split
  exact (Prod.mk.inj (Option.some.inj split)).1.symm

end Text

end LocalizationScan
