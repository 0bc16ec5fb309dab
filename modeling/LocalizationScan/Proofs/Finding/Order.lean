import Mathlib
import LocalizationScan.Finding.Basic

namespace LocalizationScan

/-!
# The order of findings

Findings are compared by keys, one after the other, so the comparison is a total
preorder and sorting puts findings in its order.  Sorting is stable: it may be
done before or after some findings are left out.
-/

section Comparisons

variable {item key : Type}

/-- Comparing by a key keeps the laws of the comparison of the keys. -/
theorem transCmp_of_key
    (compareKeys : key → key → Ordering)
    [Std.TransCmp compareKeys]
    (keyOf : item → key) :
    Std.TransCmp fun first other => compareKeys (keyOf first) (keyOf other) where
  eq_swap := Std.OrientedCmp.eq_swap
  isLE_trans := Std.TransCmp.isLE_trans

namespace Text

/-- Texts are compared by their first characters, and by the rest where these are the same. -/
theorem compare_eq_compareLex (first other : Text) :
    compare first other = List.compareLex (compareOn Char.toNat) first other := by
  induction first generalizing other with
  | nil =>
      cases other <;> rfl
  | cons char rest inductionHypothesis =>
      cases other with
      | nil =>
          rfl
      | cons otherChar others =>
          rw [compare, List.compareLex_cons_cons, ← inductionHypothesis, compareOn]
          rcases Nat.lt_trichotomy char.toNat otherChar.toNat with below | same | above
          · rw [if_pos below, Nat.compare_eq_lt.mpr below]
            rfl
          · rw [same, if_neg (Nat.lt_irrefl _), if_neg (Nat.lt_irrefl _),
              Nat.compare_eq_eq.mpr rfl]
            rfl
          · rw [if_neg (Nat.lt_asymm above), if_pos above, Nat.compare_eq_gt.mpr above]
            rfl

instance : Std.TransCmp compare := by
  have same : compare = List.compareLex (compareOn Char.toNat) :=
    funext fun first => funext (compare_eq_compareLex first)
  rw [same]
  infer_instance

/-- Only a text itself is as far in the order as the text. -/
theorem compare_eq_eq_iff {first other : Text} :
    compare first other = .eq ↔ first = other := by
  constructor
  · intro same
    induction first generalizing other with
    | nil =>
        cases other with
        | nil => rfl
        | cons => cases same
    | cons char rest inductionHypothesis =>
        cases other with
        | nil => cases same
        | cons otherChar others =>
            rw [compare_eq_compareLex, List.compareLex_cons_cons, Ordering.then_eq_eq,
              ← compare_eq_compareLex] at same
            rw [inductionHypothesis same.2, Char.toNat_inj.mp (Nat.compare_eq_eq.mp same.1)]
  · rintro rfl
    exact Std.ReflCmp.compare_self

end Text

end Comparisons

section Sorting

variable {item : Type} {le : item → item → Bool}

/-- A list is cut in one way only into a part with a property and a part without it. -/
theorem eq_of_append_eq_append
    (property : item → Bool)
    {front back otherFront otherBack : List item}
    (same : front ++ back = otherFront ++ otherBack)
    (holds : ∀ value ∈ front, property value = true)
    (holdsOther : ∀ value ∈ otherFront, property value = true)
    (fails : ∀ value ∈ back, property value = false)
    (failsOther : ∀ value ∈ otherBack, property value = false) :
    front = otherFront ∧ back = otherBack := by
  have filtered := congrArg (List.filter property) same
  have sameFront : front = otherFront := by
    have nothing : back.filter property = [] := by simpa using fails
    have nothingOther : otherBack.filter property = [] := by simpa using failsOther
    rwa [List.filter_append, List.filter_append, List.filter_eq_self.mpr holds,
      List.filter_eq_self.mpr holdsOther, nothing, nothingOther, List.append_nil,
      List.append_nil] at filtered
  subst sameFront
  exact ⟨rfl, List.append_cancel_left same⟩

/-- What is left out may be left out before sorting. -/
theorem filter_mergeSort
    (trans : ∀ first second third, le first second → le second third → le first third)
    (total : ∀ first second, le first second || le second first)
    (keep : item → Bool)
    (items : List item) :
    (items.mergeSort le).filter keep = (items.filter keep).mergeSort le := by
  induction items with
  | nil =>
      simp
  | cons first rest inductionHypothesis =>
      obtain ⟨front, back, whole, others, frontBelow⟩ :=
        List.mergeSort_cons trans total first rest
      rw [others, List.filter_append] at inductionHypothesis
      rw [whole, List.filter_append]
      by_cases kept : keep first = true
      · rw [List.filter_cons_of_pos kept, List.filter_cons_of_pos kept]
        obtain ⟨keptFront, keptBack, keptWhole, keptOthers, keptFrontBelow⟩ :=
          List.mergeSort_cons trans total first (rest.filter keep)
        -- In both lists the item stands in front of the first one that is not below it.
        have above :
            ∀ {front back items},
              List.mergeSort (first :: items) le = front ++ first :: back →
                ∀ other ∈ back, (!le first other) = false := by
          intro front back items whole other member
          have sorted := List.pairwise_mergeSort trans total (first :: items)
          rw [whole] at sorted
          have le := (List.pairwise_cons.mp (List.pairwise_append.mp sorted).2.1).1 other member
          simp [le]
        rw [keptOthers] at inductionHypothesis
        obtain ⟨sameFront, sameBack⟩ :=
          eq_of_append_eq_append (fun other => !le first other) inductionHypothesis
            (fun other member => frontBelow other (List.mem_of_mem_filter member))
            keptFrontBelow
            (fun other member => above whole other (List.mem_of_mem_filter member))
            (above keptWhole)
        rw [sameFront, sameBack, keptWhole]
      · rw [List.filter_cons_of_neg kept, List.filter_cons_of_neg kept, inductionHypothesis]

end Sorting

namespace Finding

variable {findings others : List Finding}

instance : Std.TransCmp compare := by
  have byPath := transCmp_of_key Text.compare path
  have byMessage := transCmp_of_key Text.compare message
  have same :
      compare =
        compareLex (fun finding other => Text.compare finding.path other.path)
          (compareLex (compareOn line)
            (compareLex (compareOn column)
              (compareLex (compareOn fun finding => finding.rule.rank)
                fun finding other => Text.compare finding.message other.message))) :=
    rfl
  rw [same]
  infer_instance

theorem perm_sort (findings : List Finding) :
    (sort findings).Perm findings :=
  List.mergeSort_perm findings _

theorem compare_ne_gt_trans
    (first second third : Finding)
    (before : first.compare second != .gt)
    (beforeNext : second.compare third != .gt) :
    first.compare third != .gt := by
  simp only [bne_iff_ne, ne_eq, ← Ordering.isLE_iff_ne_gt] at before beforeNext ⊢
  exact Std.TransCmp.isLE_trans before beforeNext

theorem compare_ne_gt_total (first second : Finding) :
    first.compare second != .gt || second.compare first != .gt := by
  rw [@Std.OrientedCmp.eq_swap _ compare _ second first]
  cases first.compare second <;> rfl

/-- Sorted findings never go back in the order. -/
theorem pairwise_sort (findings : List Finding) :
    (sort findings).Pairwise fun finding other => (finding.compare other).isLE = true := by
  have sorted :=
    List.pairwise_mergeSort compare_ne_gt_trans compare_ne_gt_total findings
  apply sorted.imp
  intro finding other before
  simpa [Ordering.isLE_iff_ne_gt] using before

/-- Sorting keeps the findings that are left in their order. -/
theorem filter_sort (keep : Finding → Bool) (findings : List Finding) :
    (sort findings).filter keep = sort (findings.filter keep) :=
  filter_mergeSort compare_ne_gt_trans compare_ne_gt_total keep findings

/-- Findings that are told apart by the order are sorted in one way only. -/
theorem sort_eq_of_perm
    (permuted : findings.Perm others)
    (distinct :
      ∀ finding ∈ findings, ∀ other ∈ findings,
        finding.compare other = .eq → finding = other) :
    sort findings = sort others := by
  apply List.Perm.eq_of_pairwise _ (pairwise_sort findings) (pairwise_sort others)
  · exact ((perm_sort findings).trans permuted).trans (perm_sort others).symm
  · intro finding other member memberOther before behind
    apply distinct finding ((perm_sort findings).mem_iff.mp member) other
      (permuted.mem_iff.mpr ((perm_sort others).mem_iff.mp memberOther))
    exact Std.OrientedCmp.isLE_antisymm before behind

end Finding

end LocalizationScan
