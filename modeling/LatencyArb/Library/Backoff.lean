import Mathlib

/-!
# Exponential backoff

A link is begun, and then connects and fails in some order. The wait after a failure is to double from
one failure to the next, up to a bound, and to start again once the link has connected.
-/

namespace LatencyArb

inductive LinkEvent where
  | begun
  | connected
  | failed
  deriving DecidableEq, Repr

namespace LinkEvent

/-- The failures since the link last connected. -/
def consecutive (log : List LinkEvent) : Nat :=
  log.foldl (fun n e => match e with
    | .failed => n + 1
    | _ => 0) 0

/-- The failures since the link was begun. -/
def failures (log : List LinkEvent) : Nat :=
  log.foldl (fun n e => match e with
    | .begun => 0
    | .connected => n
    | .failed => n + 1) 0

variable (log : List LinkEvent)

@[simp] lemma consecutive_begun : consecutive (log ++ [.begun]) = 0 := by
  simp [consecutive]

@[simp] lemma consecutive_connected : consecutive (log ++ [.connected]) = 0 := by
  simp [consecutive]

@[simp] lemma consecutive_failed : consecutive (log ++ [.failed]) = consecutive log + 1 := by
  simp [consecutive]

@[simp] lemma failures_begun : failures (log ++ [.begun]) = 0 := by
  simp [failures]

@[simp] lemma failures_connected : failures (log ++ [.connected]) = failures log := by
  simp [failures]

@[simp] lemma failures_failed : failures (log ++ [.failed]) = failures log + 1 := by
  simp [failures]

end LinkEvent

/-- The wait after the failure that `k` failures precede. -/
def backoff (base bound : ℚ) (k : Nat) : ℚ := min (base * 2 ^ k) bound

variable {base bound : ℚ}

@[simp] lemma backoff_zero : backoff base bound 0 = min base bound := by
  simp [backoff]

/-- Doubling the wait and cutting it at the bound gives the next one. -/
lemma backoff_succ (hbound : 0 ≤ bound) (k : Nat) :
    min (backoff base bound k * 2) bound = backoff base bound (k + 1) := by
  have hle : bound ≤ bound * 2 := by linarith
  rw [backoff, min_mul_of_nonneg _ _ (by norm_num : (0 : ℚ) ≤ 2), min_assoc, min_eq_right hle, backoff,
    pow_succ, mul_assoc]

lemma backoff_scale {scale : ℚ} (hscale : 0 ≤ scale) (k : Nat) :
    backoff (base * scale) (bound * scale) k = backoff base bound k * scale := by
  rw [backoff, backoff, min_mul_of_nonneg _ _ hscale, mul_right_comm]

/-- The wait is still the base where the base is no larger than the bound and either nothing was doubled
or doubling changes nothing. -/
theorem backoff_eq_base_iff (k : Nat) :
    backoff base bound k = base ↔
      base ≤ bound ∧ (k = 0 ∨ base = 0 ∨ (0 ≤ base ∧ base = bound)) := by
  rw [backoff]
  constructor
  · intro h
    have hbound : base ≤ bound := h ▸ min_le_right _ _
    have hgrown : base ≤ base * 2 ^ k := by
      conv_lhs => rw [← h]
      exact min_le_left _ _
    refine ⟨hbound, ?_⟩
    by_cases hk : k = 0
    · exact .inl hk
    · have htwo : (2 : ℚ) ≤ 2 ^ k := le_self_pow₀ (by norm_num) hk
      have hnonneg : 0 ≤ base := by nlinarith
      by_cases hzero : base = 0
      · exact .inr (.inl hzero)
      · have hpos : 0 < base := lt_of_le_of_ne hnonneg (Ne.symm hzero)
        have hlt : base < base * 2 ^ k := by nlinarith
        refine .inr (.inr ⟨hnonneg, ?_⟩)
        by_contra hne
        have hmin : base < min (base * 2 ^ k) bound := lt_min hlt (lt_of_le_of_ne hbound hne)
        exact absurd h hmin.ne'
  · rintro ⟨hbound, rfl | rfl | ⟨hnonneg, rfl⟩⟩
    · rw [pow_zero, mul_one, min_eq_left hbound]
    · rw [zero_mul, min_eq_left hbound]
    · exact min_eq_right (le_mul_of_one_le_right hnonneg (one_le_pow₀ (by norm_num)))

end LatencyArb
