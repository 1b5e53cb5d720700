import Mathlib

/-!
# Pages of a sorted list

The items of a list stand at least a step apart. A page is so many of those between two keys, and the next
page starts a step behind the last item of the one before.
-/

namespace LatencyArb

namespace Pagination

variable {α : Type} (key : α → ℤ)

def between (first last : ℤ) (xs : List α) : List α := xs.filter (fun x => decide (first ≤ key x ∧ key x ≤ last))

def Spaced (step : ℤ) (xs : List α) : Prop := xs.Pairwise (fun a b => key a + step ≤ key b)

variable {key} {step first last : ℤ} {xs : List α}

lemma mem_between {x : α} (h : x ∈ between key first last xs) : first ≤ key x ∧ key x ≤ last :=
  of_decide_eq_true (List.mem_filter.mp h).2

lemma between_between {later : ℤ} (h : first ≤ later) :
    between key later last (between key first last xs) = between key later last xs := by
  unfold between
  rw [List.filter_filter]
  congr 1
  funext x
  rw [← Bool.decide_and]
  exact decide_eq_decide.mpr (by omega)

/-- The request behind a page has the items that the page has left. -/
lemma between_next (hstep : 0 < step) (hspaced : Spaced key step xs) {n : Nat} {b : α}
    (hlast : ((between key first last xs).take n).getLast? = some b) :
    between key (key b + step) last xs = (between key first last xs).drop n := by
  obtain ⟨front, hfront⟩ := List.getLast?_eq_some_iff.mp hlast
  have hb : b ∈ between key first last xs := by
    apply List.mem_of_mem_take (i := n)
    rw [hfront]
    simp
  have hsplit : between key first last xs = (front ++ [b]) ++ (between key first last xs).drop n := by
    rw [← hfront, List.take_append_drop]
  have hsorted : (between key first last xs).Pairwise (fun a b => key a + step ≤ key b) :=
    hspaced.sublist List.filter_sublist
  rw [hsplit] at hsorted
  obtain ⟨hpage, -, hbehind⟩ := List.pairwise_append.mp hsorted
  rw [← between_between (by have := (mem_between hb).1; omega : first ≤ key b + step)]
  nth_rewrite 1 [hsplit]
  unfold between
  rw [List.filter_append]
  have hnone : (front ++ [b]).filter (fun x => decide (key b + step ≤ key x ∧ key x ≤ last)) = [] := by
    rw [List.filter_eq_nil_iff]
    intro x hx
    have hle : key x ≤ key b := by
      obtain hx | hx := List.mem_append.mp hx
      · have hstepLe := (List.pairwise_append.mp hpage).2.2 x hx b (by simp)
        omega
      · rw [List.mem_singleton.mp hx]
    simp only [decide_eq_true_eq]
    omega
  have hall : ∀ x ∈ (between key first last xs).drop n, decide (key b + step ≤ key x ∧ key x ≤ last) = true := by
    intro x hx
    rw [decide_eq_true_eq]
    exact ⟨hbehind b (by simp) x hx, (mem_between (List.mem_of_mem_drop hx)).2⟩
  rw [hnone, List.nil_append]
  exact List.filter_eq_self.mpr hall

end Pagination

end LatencyArb
