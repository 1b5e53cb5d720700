import Mathlib

/-!
# Sums over workers

Workers that each hold an amount, and what the step of one worker does to the sum of the amounts.
-/

namespace LatencyArb

namespace Workers

variable {n : Nat} {σ : Type} (f : σ → Nat)

def total (ws : Fin n → σ) : Nat := ∑ w, f (ws w)

variable {f}

/-- One worker changes its amount, and the sum changes by as much. -/
theorem total_update (ws : Fin n → σ) (w : Fin n) (x : σ) :
    total f (Function.update ws w x) + f (ws w) = total f ws + f x := by
  have hrest : ∀ v ∈ Finset.univ.erase w, f (Function.update ws w x v) = f (ws v) := by
    intro v hv
    rw [Function.update_of_ne (Finset.ne_of_mem_erase hv)]
  have hnew := Finset.add_sum_erase Finset.univ (fun v => f (Function.update ws w x v)) (Finset.mem_univ w)
  have hold := Finset.add_sum_erase Finset.univ (fun v => f (ws v)) (Finset.mem_univ w)
  simp only [Function.update_self, Finset.sum_congr rfl hrest] at hnew
  unfold total
  omega

lemma total_replicate {x : σ} (h : f x = 0) : total f (fun _ : Fin n => x) = 0 := by
  simp [total, h]

/-- Where the sum is positive, a worker holds some of it. -/
lemma exists_of_total_pos {ws : Fin n → σ} (h : 0 < total f ws) : ∃ w, 0 < f (ws w) := by
  obtain ⟨w, -, hw⟩ := Finset.exists_ne_zero_of_sum_ne_zero h.ne'
  exact ⟨w, Nat.pos_of_ne_zero hw⟩

/-- Workers that hold at most one each, one of them none. -/
lemma total_lt {ws : Fin n → σ} (hone : ∀ x, f x ≤ 1) {w : Fin n} (hw : f (ws w) = 0) :
    total f ws < n := by
  have hsum : total f ws < ∑ _w : Fin n, 1 := by
    apply Finset.sum_lt_sum
    · intro v _
      exact hone (ws v)
    · exact ⟨w, Finset.mem_univ w, by omega⟩
  simpa using hsum

end Workers

end LatencyArb
