import LatencyArb.Library.BinaryFormat

/-!
# Numbers kept as binary32

What a conversion to `float` makes of an exact number, and which decimals can be told from it again.
-/

namespace LatencyArb

namespace Numeral

def binary32 : BinaryFormat := ⟨24, -149, by decide⟩

/-- The nearest binary32 number, were there no largest one. -/
def nearest32 (x : ℚ) : ℚ := binary32.nearest x

/-- The conversion to `float`. -/
def Double.toFloat : Double → Double
  | .finite x => if 2 ^ 128 - 2 ^ 103 ≤ |x| then .inf (decide (x < 0)) else .finite (nearest32 x)
  | .inf negative => .inf negative
  | .nan negative => .nan negative

/-- Decimals of so many places below a power of two are told apart, if their number is below 2 ^ 24. -/
theorem round_nearest32 {round : ℚ → ℤ} (hround : ∀ x, |(round x : ℚ) - x| ≤ 1 / 2) {places : Nat} {k : ℤ}
    {n : ℤ} (hk : -125 ≤ k) (hfine : (10 : ℚ) ^ places * 2 ^ k < 2 ^ 24) (h : |(n : ℚ) / 10 ^ places| < 2 ^ k) :
    round (nearest32 (n / 10 ^ places) * 10 ^ places) = n := by
  have hpow : (0 : ℚ) < 10 ^ places := by positivity
  have herror : |nearest32 (n / 10 ^ places) - n / 10 ^ places| ≤ 2 ^ (k - 25) := by
    have hexp : k - 25 = k - binary32.digits - 1 := by
      show k - 25 = k - (24 : ℕ) - 1
      omega
    have hleast : binary32.least + binary32.digits ≤ k := hk
    rw [hexp]
    exact BinaryFormat.nearest_error hleast h
  have herror := mul_le_mul_of_nonneg_right herror hpow.le
  have hsmall : (2 : ℚ) ^ (k - 25) * 10 ^ places < 1 / 2 := by
    have hsplit : (2 : ℚ) ^ k = 2 ^ (k - 25) * 2 ^ 25 := by
      rw [← zpow_natCast, ← zpow_add₀ (by norm_num)]
      congr 1
      push_cast
      omega
    rw [hsplit] at hfine
    nlinarith
  apply eq_of_near (hround _)
  have hscaled : nearest32 (n / 10 ^ places) * 10 ^ places - n =
      (nearest32 (n / 10 ^ places) - n / 10 ^ places) * 10 ^ places := by
    rw [sub_mul, div_mul_cancel₀ _ hpow.ne']
  rw [hscaled, abs_mul, abs_of_pos hpow]
  linarith

end Numeral

end LatencyArb
