import Mathlib

/-!
# Order statistics and means of a list

The elements of a sorted list at two positions are ordered as the positions are, and the mean lies between
any two bounds of the elements.
-/

namespace LatencyArb

section OrderStatistic

variable {α : Type*} [LinearOrder α] [Inhabited α] {xs : List α} {i j : Nat}

/-- The element at a position of the sorted list. -/
def orderStatistic (xs : List α) (i : Nat) : α := xs.mergeSort.getD i default

lemma orderStatistic_eq_get (h : i < xs.length) :
    orderStatistic xs i = xs.mergeSort.get ⟨i, by rw [List.length_mergeSort]; exact h⟩ :=
  List.getD_eq_getElem _ _ _

lemma orderStatistic_mem (h : i < xs.length) : orderStatistic xs i ∈ xs := by
  rw [orderStatistic_eq_get h]
  exact List.mem_mergeSort.mp (List.get_mem _ _)

lemma orderStatistic_mono (hij : i ≤ j) (hj : j < xs.length) : orderStatistic xs i ≤ orderStatistic xs j := by
  rw [orderStatistic_eq_get hj, orderStatistic_eq_get (hij.trans_lt hj)]
  rcases hij.eq_or_lt with rfl | hlt
  · exact le_refl _
  · exact List.pairwise_iff_getElem.mp (List.pairwise_mergeSort' (· ≤ ·) xs) i j _ _ hlt

/-- Of two elements, the larger one is not larger than the smaller one only where they are equal. -/
lemma orderStatistic_pair {x y : α} : orderStatistic [x, y] 1 ≤ orderStatistic [x, y] 0 ↔ x = y := by
  constructor
  · intro hle
    have hsame : orderStatistic [x, y] 0 = orderStatistic [x, y] 1 :=
      le_antisymm (orderStatistic_mono (Nat.zero_le 1) (Nat.lt_succ_self 1)) hle
    have hperm : [x, y].mergeSort.Perm [x, y] := List.mergeSort_perm _ _
    obtain ⟨a, b, hab⟩ := List.length_eq_two.mp hperm.length_eq
    unfold orderStatistic at hsame
    rw [hab] at hsame hperm
    obtain rfl : a = b := hsame
    have hx : x ∈ [a, a] := hperm.mem_iff.mpr List.mem_cons_self
    have hy : y ∈ [a, a] := hperm.mem_iff.mpr (List.mem_cons_of_mem x List.mem_cons_self)
    have hxa : x = a := by simpa using hx
    have hya : y = a := by simpa using hy
    rw [hxa, hya]
  · rintro rfl
    have hmem : ∀ i, i < [x, x].length → orderStatistic [x, x] i = x := by
      intro i hi
      simpa using orderStatistic_mem hi
    rw [hmem 1 (Nat.lt_succ_self 1), hmem 0 Nat.zero_lt_two]

end OrderStatistic

section Mean

variable {xs : List ℚ} {bound : ℚ}

lemma le_mean (hne : xs ≠ []) (h : ∀ x ∈ xs, bound ≤ x) : bound ≤ xs.sum / xs.length := by
  have hpos : (0 : ℚ) < xs.length := by exact_mod_cast List.length_pos_iff.mpr hne
  rw [le_div_iff₀ hpos, mul_comm]
  simpa using List.card_nsmul_le_sum xs bound h

lemma mean_le (hne : xs ≠ []) (h : ∀ x ∈ xs, x ≤ bound) : xs.sum / xs.length ≤ bound := by
  have hpos : (0 : ℚ) < xs.length := by exact_mod_cast List.length_pos_iff.mpr hne
  rw [div_le_iff₀ hpos, mul_comm]
  simpa using List.sum_le_card_nsmul xs bound h

end Mean

end LatencyArb
