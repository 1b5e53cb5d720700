import LatencyArb.Library.GeneralFormat

/-!
# Binary floating point

The numbers of a format with so many significant binary digits and a least exponent, were there no largest
one, and the nearest of them to an exact number, ties going to the even significand.
-/

namespace LatencyArb

namespace Numeral

/-! ## Roundings to integers -/

lemma roundEven_near (x : ℚ) : |(roundEven x : ℚ) - x| ≤ 1 / 2 := by
  have hlow := Int.floor_le x
  have hhigh := Int.lt_floor_add_one x
  unfold roundEven
  rw [abs_le]
  dsimp only
  split_ifs
  · constructor <;> linarith
  · push_cast
    constructor <;> linarith
  · constructor <;> linarith
  · push_cast
    constructor <;> linarith

lemma roundTo_near (places : Nat) (x : ℚ) : |roundTo places x - x| ≤ 1 / 2 / 10 ^ places := by
  have hpow : (0 : ℚ) < 10 ^ places := by positivity
  have hscaled : roundTo places x - x = (roundEven (x * 10 ^ places) - x * 10 ^ places) / 10 ^ places := by
    rw [sub_div, mul_div_cancel_right₀ _ hpow.ne', roundTo]
  rw [hscaled, abs_div, abs_of_pos hpow]
  exact div_le_div_of_nonneg_right (roundEven_near _) hpow.le

lemma eq_of_near {m n : ℤ} {x : ℚ} (hm : |(m : ℚ) - x| ≤ 1 / 2) (hn : |x - n| < 1 / 2) : m = n := by
  obtain ⟨hmlow, hmhigh⟩ := abs_le.mp hm
  obtain ⟨hnlow, hnhigh⟩ := abs_lt.mp hn
  have hlow : ((n : ℚ) - 1) < m := by linarith
  have hhigh : (m : ℚ) < n + 1 := by linarith
  have hlow : n - 1 < m := by exact_mod_cast hlow
  have hhigh : m < n + 1 := by exact_mod_cast hhigh
  omega

lemma roundEven_mono {x y : ℚ} (h : x ≤ y) : roundEven x ≤ roundEven y := by
  obtain hlt | heq := lt_or_eq_of_le (Int.floor_le_floor h)
  · have hx := (roundEven_between x).2
    have hy := (roundEven_between y).1
    omega
  · unfold roundEven
    dsimp only
    rw [heq]
    split_ifs
    all_goals first | omega | (exfalso; linarith)

lemma floor_neg_of_ne {x : ℚ} (hx : (⌊x⌋ : ℚ) ≠ x) : ⌊-x⌋ = -⌊x⌋ - 1 := by
  have hlow := lt_of_le_of_ne (Int.floor_le x) hx
  have hhigh := Int.lt_floor_add_one x
  rw [Int.floor_eq_iff]
  push_cast
  constructor <;> linarith

lemma roundEven_neg (x : ℚ) : roundEven (-x) = -roundEven x := by
  by_cases hx : (⌊x⌋ : ℚ) = x
  · rw [← hx, ← Int.cast_neg, roundEven_intCast, roundEven_intCast]
  · -- the two fractions add up to one, so that a tie is a tie on both sides
    unfold roundEven
    rw [floor_neg_of_ne hx]
    push_cast
    split_ifs
    all_goals first | omega | (exfalso; linarith)

/-! ## Formats -/

structure BinaryFormat where
  digits : Nat
  least : ℤ
  digits_ne_zero : digits ≠ 0

namespace BinaryFormat

variable (F : BinaryFormat)

/-- The distance between the numbers of the size of `x`. -/
def spacing (x : ℚ) : ℚ := 2 ^ max (Int.log 2 |x| + 1 - F.digits) F.least

def nearest (x : ℚ) : ℚ := roundEven (x / F.spacing x) * F.spacing x

/-- The numbers of the format. -/
def Has (x : ℚ) : Prop := ∃ m e : ℤ, |m| ≤ 2 ^ F.digits ∧ F.least ≤ e ∧ x = m * 2 ^ e

variable {F} {x y : ℚ} {k : ℤ}

lemma spacing_pos (F : BinaryFormat) (x : ℚ) : 0 < F.spacing x := zpow_pos (by norm_num) _

lemma spacing_neg (x : ℚ) : F.spacing (-x) = F.spacing x := by
  unfold spacing
  rw [abs_neg]

lemma spacing_eq (hk : F.least + F.digits ≤ k + 1) (hlow : 2 ^ k ≤ |x|) (hhigh : |x| < 2 ^ (k + 1)) :
    F.spacing x = 2 ^ (k + 1 - F.digits) := by
  have hpos : 0 < |x| := (zpow_pos (by norm_num) k).trans_le hlow
  have hle : k ≤ Int.log 2 |x| := (Int.zpow_le_iff_le_log (by norm_num) hpos).mp (by exact_mod_cast hlow)
  have hlt : Int.log 2 |x| < k + 1 := (Int.lt_zpow_iff_log_lt (by norm_num) hpos).mp (by exact_mod_cast hhigh)
  unfold spacing
  congr 1
  omega

lemma spacing_le (hx : x ≠ 0) (hk : F.least + F.digits ≤ k) (h : |x| < 2 ^ k) :
    F.spacing x ≤ 2 ^ (k - F.digits) := by
  have hlog : Int.log 2 |x| < k := (Int.lt_zpow_iff_log_lt (by norm_num) (abs_pos.mpr hx)).mp (by exact_mod_cast h)
  unfold spacing
  apply zpow_le_zpow_right₀ (by norm_num)
  omega

@[simp] lemma nearest_zero : F.nearest 0 = 0 := by
  unfold nearest
  rw [zero_div, show roundEven 0 = 0 by decide +kernel, Int.cast_zero, zero_mul]

lemma nearest_neg (x : ℚ) : F.nearest (-x) = -F.nearest x := by
  unfold nearest
  rw [spacing_neg, neg_div, roundEven_neg, Int.cast_neg, neg_mul]

lemma nearest_near (x : ℚ) : |F.nearest x - x| ≤ F.spacing x / 2 := by
  have hpos := F.spacing_pos x
  have hscaled : F.nearest x - x = (roundEven (x / F.spacing x) - x / F.spacing x) * F.spacing x := by
    rw [sub_mul, div_mul_cancel₀ x hpos.ne', nearest]
  rw [hscaled, abs_mul, abs_of_pos hpos]
  have hround := mul_le_mul_of_nonneg_right (roundEven_near (x / F.spacing x)) hpos.le
  linarith

/-- The error of a number below a power of two. -/
lemma nearest_error (hk : F.least + F.digits ≤ k) (h : |x| < 2 ^ k) :
    |F.nearest x - x| ≤ 2 ^ (k - F.digits - 1) := by
  by_cases hx : x = 0
  · rw [hx, nearest_zero, sub_zero, abs_zero]
    positivity
  · have hnear := F.nearest_near x
    have hspacing := spacing_le hx hk h
    have hhalf : (2 : ℚ) ^ (k - F.digits) = 2 ^ (k - F.digits - 1) * 2 := by
      rw [← zpow_add_one₀ (by norm_num)]
      congr 1
      omega
    linarith

lemma lt_spacing (F : BinaryFormat) (hx : 0 < x) : x < 2 ^ F.digits * F.spacing x := by
  have hlog : x < 2 ^ (Int.log 2 x + 1) := by exact_mod_cast Int.lt_zpow_succ_log_self (by norm_num : 1 < 2) x
  apply hlog.trans_le
  unfold spacing
  rw [abs_of_pos hx, ← zpow_natCast, ← zpow_add₀ (by norm_num)]
  apply zpow_le_zpow_right₀ (by norm_num)
  omega

lemma nearest_nonneg (hx : 0 ≤ x) : 0 ≤ F.nearest x := by
  have hpos := F.spacing_pos x
  apply mul_nonneg _ hpos.le
  exact_mod_cast roundEven_nonneg (div_nonneg hx hpos.le)

/-- Rounding stays on the side of a multiple of the spacing. -/
lemma nearest_le_of_le {m : ℤ} (h : x ≤ m * F.spacing x) : F.nearest x ≤ m * F.spacing x := by
  have hpos := F.spacing_pos x
  apply mul_le_mul_of_nonneg_right _ hpos.le
  have hle := roundEven_mono ((div_le_iff₀ hpos).mpr h)
  rw [roundEven_intCast] at hle
  exact_mod_cast hle

lemma le_nearest_of_le {m : ℤ} (h : m * F.spacing x ≤ x) : m * F.spacing x ≤ F.nearest x := by
  have hpos := F.spacing_pos x
  apply mul_le_mul_of_nonneg_right _ hpos.le
  have hle := roundEven_mono ((le_div_iff₀ hpos).mpr h)
  rw [roundEven_intCast] at hle
  exact_mod_cast hle

lemma nearest_mono_of_nonneg (hx : 0 ≤ x) (h : x ≤ y) : F.nearest x ≤ F.nearest y := by
  obtain rfl | hx := hx.eq_or_lt
  · rw [nearest_zero]
    exact nearest_nonneg h
  have hy : 0 < y := hx.trans_le h
  have hlog : Int.log 2 x ≤ Int.log 2 y := Int.log_mono_right hx h
  by_cases hsame : max (Int.log 2 x + 1 - F.digits) F.least = max (Int.log 2 y + 1 - F.digits) F.least
  · have hspacing : F.spacing x = F.spacing y := by
      unfold spacing
      rw [abs_of_pos hx, abs_of_pos hy, hsame]
    unfold nearest
    rw [hspacing]
    apply mul_le_mul_of_nonneg_right _ (F.spacing_pos y).le
    exact_mod_cast roundEven_mono (div_le_div_of_nonneg_right h (F.spacing_pos y).le)
  · -- a power of two that both spacings divide lies between the numbers
    obtain ⟨d, hd⟩ : ∃ d, F.digits = d + 1 := Nat.exists_eq_succ_of_ne_zero F.digits_ne_zero
    have hbelow : F.nearest x ≤ 2 ^ F.digits * F.spacing x := by
      have hle : x ≤ ((2 ^ F.digits : ℤ) : ℚ) * F.spacing x := by
        push_cast
        exact (F.lt_spacing hx).le
      have hround := nearest_le_of_le hle
      push_cast at hround
      exact hround
    have hhalf : 2 ^ F.digits * F.spacing x ≤ 2 ^ d * F.spacing y := by
      unfold spacing
      rw [abs_of_pos hx, abs_of_pos hy, ← zpow_natCast, ← zpow_natCast, ← zpow_add₀ (by norm_num),
        ← zpow_add₀ (by norm_num)]
      apply zpow_le_zpow_right₀ (by norm_num)
      omega
    have habove : 2 ^ d * F.spacing y ≤ F.nearest y := by
      have hself : (2 : ℚ) ^ Int.log 2 y ≤ y := by exact_mod_cast Int.zpow_log_le_self (by norm_num : 1 < 2) hy
      have hle : ((2 ^ d : ℤ) : ℚ) * F.spacing y ≤ y := by
        refine le_trans (le_of_eq ?_) hself
        unfold spacing
        rw [abs_of_pos hy]
        push_cast
        rw [← zpow_natCast, ← zpow_add₀ (by norm_num)]
        congr 1
        omega
      have hround := le_nearest_of_le hle
      push_cast at hround
      exact hround
    exact hbelow.trans (hhalf.trans habove)

/-- The order is kept. -/
theorem nearest_mono (h : x ≤ y) : F.nearest x ≤ F.nearest y := by
  by_cases hx : 0 ≤ x
  · exact nearest_mono_of_nonneg hx h
  · by_cases hy : 0 ≤ y
    · have hneg : 0 ≤ F.nearest (-x) := nearest_nonneg (by linarith)
      rw [nearest_neg] at hneg
      exact (neg_nonneg.mp hneg).trans (nearest_nonneg hy)
    · have hneg := nearest_mono_of_nonneg (F := F) (by linarith : 0 ≤ -y) (neg_le_neg h)
      rw [nearest_neg, nearest_neg] at hneg
      exact neg_le_neg_iff.mp hneg

/-- What is rounded to is a number of the format. -/
lemma has_nearest (x : ℚ) : F.Has (F.nearest x) := by
  refine ⟨roundEven (x / F.spacing x), max (Int.log 2 |x| + 1 - F.digits) F.least, ?_, le_max_right _ _, rfl⟩
  have hpos := F.spacing_pos x
  obtain rfl | hx := eq_or_ne x 0
  · rw [zero_div, show roundEven 0 = 0 by decide +kernel, abs_zero]
    positivity
  · have hsize : |x / F.spacing x| ≤ ((2 ^ F.digits : ℕ) : ℚ) := by
      rw [abs_div, abs_of_pos hpos, div_le_iff₀ hpos]
      have hlt := F.lt_spacing (abs_pos.mpr hx)
      have habs : F.spacing |x| = F.spacing x := by
        unfold spacing
        rw [abs_abs]
      rw [habs] at hlt
      push_cast
      exact hlt.le
    obtain ⟨hlow, hhigh⟩ := abs_le.mp hsize
    have hupper := roundEven_mono hhigh
    have hlower := roundEven_mono hlow
    rw [← Int.cast_natCast, roundEven_intCast] at hupper
    rw [← Int.cast_natCast, ← Int.cast_neg, roundEven_intCast] at hlower
    push_cast at hupper hlower
    exact abs_le.mpr ⟨hlower, hupper⟩

/-- A number of the format is not changed. -/
lemma nearest_of_has (h : F.Has x) : F.nearest x = x := by
  have hwhole : ∀ n : ℤ, x = n * F.spacing x → F.nearest x = x := by
    intro n hn
    have hpos := F.spacing_pos x
    have hquot : x / F.spacing x = n := by rw [div_eq_iff hpos.ne', ← hn]
    rw [nearest, hquot, roundEven_intCast, ← hn]
  obtain ⟨m, e, hm, he, hx⟩ := h
  obtain rfl | hne := eq_or_ne x 0
  · exact nearest_zero
  have hpow : (0 : ℚ) < 2 ^ e := zpow_pos (by norm_num) e
  have habs : |x| = |m| * 2 ^ e := by
    rw [hx, abs_mul, abs_of_pos hpow, Int.cast_abs]
  -- a spacing that is a smaller power of two divides it
  have hdivides : ∀ s : ℤ, s ≤ e → F.spacing x = 2 ^ s → F.nearest x = x := by
    intro s hs hspacing
    apply hwhole (m * 2 ^ (e - s).toNat)
    rw [hspacing, hx]
    push_cast
    rw [mul_assoc, ← zpow_natCast, ← zpow_add₀ (by norm_num)]
    congr 2
    omega
  rcases hm.eq_or_lt with hfull | hless
  · -- the significand carries over into the next power of two
    obtain ⟨d, hd⟩ : ∃ d, F.digits = d + 1 := Nat.exists_eq_succ_of_ne_zero F.digits_ne_zero
    have hsize : |x| = 2 ^ (F.digits + e) := by
      rw [habs, hfull]
      push_cast
      rw [← zpow_natCast, ← zpow_add₀ (by norm_num)]
    have hspacing : F.spacing x = 2 ^ (e + 1) := by
      have hexp : F.digits + e + 1 - F.digits = e + 1 := by omega
      rw [← hexp]
      apply spacing_eq (by omega) hsize.ge
      rw [hsize]
      exact zpow_lt_zpow_right₀ (by norm_num) (by omega)
    have hsign : m = 2 ^ F.digits ∨ m = -2 ^ F.digits := abs_eq (by positivity) |>.mp hfull
    obtain ⟨n, hn⟩ : ∃ n : ℤ, m = n * 2 := by
      rcases hsign with h | h
      · exact ⟨2 ^ d, by rw [h, hd, pow_succ]⟩
      · exact ⟨-2 ^ d, by rw [h, hd, pow_succ]; ring⟩
    apply hwhole n
    rw [hspacing, hx, hn, zpow_add_one₀ (by norm_num)]
    push_cast
    ring
  · obtain ⟨s, hs⟩ : ∃ s, s = max (Int.log 2 |x| + 1 - F.digits) F.least := ⟨_, rfl⟩
    have hlog : Int.log 2 |x| < F.digits + e := by
      apply (Int.lt_zpow_iff_log_lt (by norm_num) (abs_pos.mpr hne)).mp
      rw [habs]
      have hcast : ((|m| : ℤ) : ℚ) < 2 ^ F.digits := by exact_mod_cast hless
      push_cast at hcast ⊢
      rw [zpow_add₀ (by norm_num), zpow_natCast]
      exact mul_lt_mul_of_pos_right hcast hpow
    exact hdivides s (by omega) (by rw [hs]; rfl)

theorem nearest_nearest (x : ℚ) : F.nearest (F.nearest x) = F.nearest x := nearest_of_has (has_nearest x)

lemma has_two_pow (F : BinaryFormat) (hk : F.least ≤ k) : F.Has (2 ^ k) := by
  refine ⟨1, k, ?_, hk, by rw [Int.cast_one, one_mul]⟩
  rw [abs_one]
  exact one_le_pow₀ (by norm_num)

end BinaryFormat

end Numeral

end LatencyArb
