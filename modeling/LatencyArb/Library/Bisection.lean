import Mathlib

/-!
# Bisection

A search for the last of the indices `0, ..., n - 1` with a property, which the first of them has. Both
bounds belong to the range that is left, so that the lower one may pass the upper one by one at the end.
-/

namespace LatencyArb

/-- What holds of the bounds and of the index found last, whatever the property. -/
structure Bisection (p : Nat → Prop) (n lo hi ans : Nat) : Prop where
  lo_le : lo ≤ hi + 1
  hi_lt : hi < n
  ans_lt : ans < n
  first : p 0
  found : p ans

/-- What holds of them besides where the property is one of an initial segment. -/
structure Bracket (p : Nat → Prop) (n lo hi ans : Nat) : Prop where
  below : ∀ i < lo, p i
  above : ∀ i, hi < i → i < n → ¬p i
  ans_eq : 0 < lo → ans + 1 = lo

variable {p : Nat → Prop} {n lo hi ans mid : Nat}

namespace Bisection

lemma start (hn : 0 < n) (hfirst : p 0) : Bisection p n 0 (n - 1) 0 where
  lo_le := Nat.zero_le _
  hi_lt := Nat.sub_one_lt_of_lt hn
  ans_lt := hn
  first := hfirst
  found := hfirst

lemma up (h : Bisection p n lo hi ans) (hmid : mid ≤ hi) (hp : p mid) :
    Bisection p n (mid + 1) hi mid where
  lo_le := Nat.succ_le_succ hmid
  hi_lt := h.hi_lt
  ans_lt := hmid.trans_lt h.hi_lt
  first := h.first
  found := hp

/-- The upper bound is never lowered from 0. -/
lemma pos_of_not (h : Bisection p n lo hi ans) (hp : ¬p mid) : 0 < mid := by
  apply Nat.pos_of_ne_zero
  rintro rfl
  exact hp h.first

lemma down (h : Bisection p n lo hi ans) (hlo : lo ≤ mid) (hmid : mid ≤ hi) :
    Bisection p n lo (mid - 1) ans where
  lo_le := by omega
  hi_lt := by
    have hlt := h.hi_lt
    omega
  ans_lt := h.ans_lt
  first := h.first
  found := h.found

end Bisection

namespace Bracket

lemma start : Bracket p n 0 (n - 1) 0 where
  below i hi := absurd hi (Nat.not_lt_zero i)
  above i hi hin := by omega
  ans_eq h := absurd h (Nat.lt_irrefl 0)

lemma up (h : Bracket p n lo hi ans) (hp : ∀ i ≤ mid, p i) : Bracket p n (mid + 1) hi mid where
  below i hi := hp i (Nat.lt_succ_iff.mp hi)
  above := h.above
  ans_eq _ := rfl

lemma down (h : Bracket p n lo hi ans) (hp : ∀ i, mid ≤ i → i < n → ¬p i) :
    Bracket p n lo (mid - 1) ans where
  below := h.below
  above i hi hin := hp i (by omega) hin
  ans_eq := h.ans_eq

/-- Where the bounds have passed each other the index found is the last. -/
theorem last (h : Bracket p n lo hi ans) (hb : Bisection p n lo hi ans) (hend : hi < lo) :
    IsGreatest {i | i < n ∧ p i} ans := by
  have hans : ans + 1 = lo := h.ans_eq (by omega)
  refine ⟨⟨hb.ans_lt, hb.found⟩, ?_⟩
  rintro i ⟨hin, hpi⟩
  by_contra hlt
  exact h.above i (by omega) hin hpi

end Bracket

end LatencyArb
