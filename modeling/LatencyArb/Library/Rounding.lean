import LatencyArb.Library.BinaryFormat

/-!
# Rounded arithmetic

A program that computes with floating-point numbers gets the exact result of each operation, rounded. Here the
numbers are exact rationals and the rounding is a parameter: exact arithmetic is one, binary64 another.
-/

namespace LatencyArb

open Numeral

/-- A rounding to the numbers of a machine, symmetric about 0. -/
structure Rounding where
  fl : ℚ → ℚ
  mono : Monotone fl
  fl_fl : ∀ x, fl (fl x) = fl x
  fl_neg : ∀ x, fl (-x) = -fl x
  fl_one : fl 1 = 1

namespace Rounding

variable (A : Rounding)

def add (x y : ℚ) : ℚ := A.fl (x + y)

def sub (x y : ℚ) : ℚ := A.fl (x - y)

def mul (x y : ℚ) : ℚ := A.fl (x * y)

def div (x y : ℚ) : ℚ := A.fl (x / y)

/-- The machine has the number. -/
def Has (x : ℚ) : Prop := A.fl x = x

instance (x : ℚ) : Decidable (A.Has x) := inferInstanceAs (Decidable (_ = _))

/-- The change of a value against a reference, in percent. -/
def changePct (value ref : ℚ) : ℚ := A.mul (A.sub (A.div value ref) 1) 100

/-- Rounding commutes with the factor. -/
def Scales (c : ℚ) : Prop := ∀ x, A.fl (c * x) = c * A.fl x

/-! ## The laws in use -/

variable {A} {x y z w : ℚ}

@[simp] lemma fl_zero : A.fl 0 = 0 := by
  have hneg := A.fl_neg 0
  rw [neg_zero] at hneg
  linarith

lemma fl_nonneg (h : 0 ≤ x) : 0 ≤ A.fl x := by
  rw [← A.fl_zero]
  exact A.mono h

lemma fl_nonpos (h : x ≤ 0) : A.fl x ≤ 0 := by
  rw [← A.fl_zero]
  exact A.mono h

lemma abs_fl (x : ℚ) : |A.fl x| = A.fl |x| := by
  obtain h | h := le_total 0 x
  · rw [abs_of_nonneg h, abs_of_nonneg (fl_nonneg h)]
  · rw [abs_of_nonpos h, abs_of_nonpos (fl_nonpos h), A.fl_neg]

@[simp] lemma sub_same (x : ℚ) : A.sub x x = 0 := by
  rw [sub, sub_self, fl_zero]

lemma sub_mono (hx : x ≤ y) (hz : w ≤ z) : A.sub x z ≤ A.sub y w := A.mono (sub_le_sub hx hz)

lemma sub_le (hx : A.Has x) (hy : 0 ≤ y) : A.sub x y ≤ x := by
  conv_rhs => rw [← hx]
  exact A.mono (sub_le_self x hy)

lemma le_add (hx : A.Has x) (hy : 0 ≤ y) : x ≤ A.add x y := by
  conv_lhs => rw [← hx]
  exact A.mono (le_add_of_nonneg_right hy)

lemma mul_mono (hz : 0 ≤ z) (h : x ≤ y) : A.mul x z ≤ A.mul y z := A.mono (mul_le_mul_of_nonneg_right h hz)

lemma abs_changePct (value ref : ℚ) :
    |A.changePct value ref| = A.mul |A.sub (A.div value ref) 1| 100 := by
  rw [changePct, mul, abs_fl, abs_mul, abs_of_pos (by norm_num : (0 : ℚ) < 100), mul]

lemma changePct_self (h : x ≠ 0) : A.changePct x x = 0 := by
  rw [changePct, div, div_self h, A.fl_one, sub_same, mul, zero_mul, fl_zero]

lemma changePct_scale (hc : z ≠ 0) (value ref : ℚ) : A.changePct (z * value) (z * ref) = A.changePct value ref := by
  rw [changePct, div, mul_div_mul_left _ _ hc, changePct, div]

lemma changePct_nonneg (hy : 0 < y) (h : y ≤ x) : 0 ≤ A.changePct x y := by
  apply fl_nonneg
  apply mul_nonneg _ (by norm_num)
  apply fl_nonneg
  rw [sub_nonneg, ← A.fl_one]
  exact A.mono ((one_le_div hy).mpr h)

lemma changePct_nonpos (hy : 0 < y) (h : x ≤ y) : A.changePct x y ≤ 0 := by
  apply fl_nonpos
  apply mul_nonpos_of_nonpos_of_nonneg _ (by norm_num)
  apply fl_nonpos
  rw [sub_nonpos, ← A.fl_one]
  exact A.mono ((div_le_one hy).mpr h)

/-- A change that does not vanish has the sign of the move. -/
lemma changePct_pos_iff (hy : 0 < y) (h : A.changePct x y ≠ 0) : 0 < A.changePct x y ↔ y < x := by
  constructor
  · intro hpos
    by_contra hle
    exact absurd (changePct_nonpos hy (not_lt.mp hle)) hpos.not_ge
  · intro hlt
    exact lt_of_le_of_ne (changePct_nonneg hy hlt.le) h.symm

/-! ## Exact arithmetic and binary64 -/

def exact : Rounding := ⟨id, monotone_id, fun _ => rfl, fun _ => rfl, rfl⟩

@[simp] lemma exact_fl (x : ℚ) : exact.fl x = x := rfl

@[simp] lemma exact_add (x y : ℚ) : exact.add x y = x + y := rfl

@[simp] lemma exact_sub (x y : ℚ) : exact.sub x y = x - y := rfl

@[simp] lemma exact_mul (x y : ℚ) : exact.mul x y = x * y := rfl

@[simp] lemma exact_div (x y : ℚ) : exact.div x y = x / y := rfl

@[simp] lemma exact_changePct (value ref : ℚ) : exact.changePct value ref = (value / ref - 1) * 100 := rfl

lemma exact_has (x : ℚ) : exact.Has x := rfl

lemma exact_scales (c : ℚ) : exact.Scales c := fun _ => rfl

section Saturated

variable {F : BinaryFormat} {k : ℤ}

/-- The nearest number of the format, `2 ^ k` and `-2 ^ k` standing for the infinities. -/
def saturate (F : BinaryFormat) (k : ℤ) (x : ℚ) : ℚ := max (-2 ^ k) (min (2 ^ k) (F.nearest x))

lemma saturate_cases (F : BinaryFormat) (k : ℤ) (x : ℚ) :
    saturate F k x = -2 ^ k ∨ saturate F k x = 2 ^ k ∨ saturate F k x = F.nearest x := by
  unfold saturate
  rcases max_choice (-2 ^ k) (min (2 ^ k) (F.nearest x)) with h | h
  · exact .inl h
  · rw [h]
    exact .inr (min_choice _ _)

lemma saturate_mono : Monotone (saturate F k) :=
  fun _ _ h => max_le_max le_rfl (min_le_min le_rfl (BinaryFormat.nearest_mono h))

lemma saturate_saturate (hk : F.least ≤ k) (x : ℚ) : saturate F k (saturate F k x) = saturate F k x := by
  have hfixed : F.nearest (saturate F k x) = saturate F k x := by
    have htop : F.nearest (2 ^ k) = 2 ^ k := BinaryFormat.nearest_of_has (F.has_two_pow hk)
    rcases saturate_cases F k x with h | h | h
    · rw [h, BinaryFormat.nearest_neg, htop]
    · rw [h, htop]
    · rw [h, BinaryFormat.nearest_nearest]
  conv_lhs => rw [saturate, hfixed]
  have hlow : -2 ^ k ≤ saturate F k x := le_max_left _ _
  have hhigh : saturate F k x ≤ 2 ^ k := by
    have hpos : (0 : ℚ) < 2 ^ k := zpow_pos (by norm_num) k
    exact max_le (by linarith) (min_le_left _ _)
  rw [min_eq_right hhigh, max_eq_right hlow]

lemma saturate_neg (x : ℚ) : saturate F k (-x) = -saturate F k x := by
  have hpos : (0 : ℚ) < 2 ^ k := zpow_pos (by norm_num) k
  unfold saturate
  rw [BinaryFormat.nearest_neg]
  rcases le_total (F.nearest x) (2 ^ k) with h | h
  · rw [min_eq_right h]
    rcases le_total (-2 ^ k) (F.nearest x) with h' | h'
    · rw [max_eq_right h', min_eq_right (by linarith), max_eq_right (by linarith)]
    · rw [max_eq_left h', min_eq_left (by linarith), max_eq_right (by linarith), neg_neg]
  · have hlow : min (2 ^ k) (-F.nearest x) = -F.nearest x := min_eq_right (by linarith)
    rw [min_eq_left h, hlow, max_eq_left (neg_le_neg h), max_eq_right (by linarith)]

lemma saturate_one (hleast : F.least ≤ 0) (hk : 0 ≤ k) : saturate F k 1 = 1 := by
  have hone : F.nearest 1 = 1 := BinaryFormat.nearest_of_has (by simpa using F.has_two_pow hleast)
  have hle : (1 : ℚ) ≤ 2 ^ k := one_le_zpow₀ (by norm_num) hk
  rw [saturate, hone, min_eq_right hle, max_eq_right (by linarith)]

/-- The arithmetic of a format with numbers below `2 ^ k`. -/
def ofFormat (F : BinaryFormat) (k : ℤ) (hleast : F.least ≤ 0) (hk : 0 ≤ k) : Rounding where
  fl := saturate F k
  mono := saturate_mono
  fl_fl := saturate_saturate (hleast.trans hk)
  fl_neg := saturate_neg
  fl_one := saturate_one hleast hk

end Saturated

def binary64 : Rounding := ofFormat ⟨53, -1074, by decide⟩ 1024 (by decide) (by decide)

/-- A half as a percentage, one rounding short. -/
example : binary64.changePct 201 200 = 1 / 2 - 3 / 2 ^ 48 := by decide +kernel

end Rounding

end LatencyArb
