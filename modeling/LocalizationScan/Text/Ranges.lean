namespace LocalizationScan.Text

/-!
# Ranges of code points

A property of characters above ASCII is given as a list of closed ranges in
ascending order.
-/

/-- Whether a code point lies in one of some ascending closed ranges. -/
def inRanges (code : Nat) : List (Nat × Nat) → Bool
  | [] => false
  | (low, high) :: rest =>
      if code < low then false
      else code ≤ high || inRanges code rest

/-- Every code point that is found lies between the ends of one of the ranges. -/
theorem exists_mem_of_inRanges
    {code : Nat}
    {ranges : List (Nat × Nat)}
    (found : inRanges code ranges = true) :
    ∃ range ∈ ranges, range.1 ≤ code ∧ code ≤ range.2 := by
  induction ranges with
  | nil => simp [inRanges] at found
  | cons range rest inductionHypothesis =>
      unfold inRanges at found
      split at found
      · simp at found
      · rename_i notBelow
        simp only [Bool.or_eq_true, decide_eq_true_eq] at found
        rcases found with within | later
        · exact ⟨range, by simp, by omega, within⟩
        · obtain ⟨found, member, bounds⟩ := inductionHypothesis later
          exact ⟨found, by simp [member], bounds⟩

end LocalizationScan.Text
