import LatencyArb.Backtest.CsvConvert
import LatencyArb.Library.Binary32
import LatencyArb.Strategy

/-!
# The prices of a tick record (`BinaryTick`, `include/backtest/tick_binary.hpp`)

A record keeps its prices as `float`. The strategy widens them and rounds them to four decimals.
-/

namespace LatencyArb

open Numeral

/-- The record as it stands in the file: `convert` casts the prices and the volume to `float`. -/
def CsvTick.stored (t : CsvTick) : CsvTick :=
  { t with bid := t.bid.toFloat, ask := t.ask.toFloat, volume := t.volume.toFloat }

/-- The strategy rounds the stored price to the price of the row. -/
def PriceKept (cfg : Config) (price : ℚ) (stored : Double) : Prop :=
  ∃ x, stored = .finite x ∧ Strategy.round4 cfg x = price

/-- In the records of all rows with prices of four decimals below the bound both prices are kept, and so is
their order. -/
def FourDecimalsKept (cfg : Config) (bound : Nat) : Prop :=
  ∀ (t : CsvTick) (bid ask : Nat), bid < bound → ask < bound →
    t.bid = .finite (bid / 10000) → t.ask = .finite (ask / 10000) →
      PriceKept cfg (bid / 10000) t.stored.bid ∧ PriceKept cfg (ask / 10000) t.stored.ask ∧
        (bid ≤ ask → ∃ b a, t.stored.bid = .finite b ∧ t.stored.ask = .finite a ∧ b ≤ a)

lemma toFloat_of_lt {x : ℚ} (h : |x| < 2 ^ 127) : (Double.finite x).toFloat = .finite (nearest32 x) := by
  have hlarge : (2 : ℚ) ^ 127 ≤ 2 ^ 128 - 2 ^ 103 := by norm_num
  exact if_neg (not_le.mpr (h.trans_le hlarge))

/-- Above 1024 the records are too far apart for the price 1024.0003. -/
lemma round4_1024_0003 : ((roundAway (nearest32 (10240003 / 10000) * 10000) : ℤ) : ℚ) / 10000 ≠ 10240003 / 10000 := by
  decide +kernel

lemma nearest32_0_0001 : nearest32 (1 / 10000) ≠ 1 / 10000 := by
  decide +kernel

/-- With the rounding all prices below 1024.0003 are kept, and those of the size of 1024 just so. -/
lemma round4_kept {n : Nat} (h : n < 10240003) :
    ((roundAway (nearest32 (n / 10000) * 10000) : ℤ) : ℚ) / 10000 = n / 10000 := by
  by_cases hsmall : n < 10240000
  · have hsize : |((n : ℤ) : ℚ) / 10 ^ 4| < 2 ^ (10 : ℤ) := by
      rw [abs_of_nonneg (by positivity), div_lt_iff₀ (by positivity)]
      norm_num
      exact_mod_cast hsmall
    have hround : roundAway (nearest32 ((n : ℤ) / 10 ^ 4) * 10 ^ 4) = n :=
      round_nearest32 roundAway_near (by norm_num) (by norm_num) hsize
    norm_num at hround ⊢
    rw [hround, Int.cast_natCast]
  · have hcases : n = 10240000 ∨ n = 10240001 ∨ n = 10240002 := by omega
    obtain rfl | rfl | rfl := hcases
    all_goals decide +kernel

lemma round4_of_rounding {cfg : Config} (h : cfg.roundFourDecimals = true) (x : ℚ) :
    Strategy.round4 cfg x = roundAway (x * 10000) / 10000 := by
  unfold Strategy.round4
  rw [h]
  rfl

lemma round4_of_not_rounding {cfg : Config} (h : ¬cfg.roundFourDecimals = true) (x : ℚ) :
    Strategy.round4 cfg x = x := by
  unfold Strategy.round4
  rw [Bool.not_eq_true] at h
  rw [h]
  rfl

lemma stored_price {n : Nat} (h : n ≤ 10240003) :
    (Double.finite (n / 10000)).toFloat = .finite (nearest32 (n / 10000)) := by
  have hle : (n : ℚ) ≤ 10240003 := by exact_mod_cast h
  apply toFloat_of_lt
  rw [abs_of_nonneg (by positivity), div_lt_iff₀ (by norm_num)]
  exact hle.trans_lt (by norm_num)

/-- The prices of rows that are told apart. -/
lemma FourDecimalsKept.round4_eq {cfg : Config} {bound n : Nat} (h : FourDecimalsKept cfg bound) (hn : n < bound)
    (hsmall : n ≤ 10240003) : Strategy.round4 cfg (nearest32 (n / 10000)) = n / 10000 := by
  obtain ⟨⟨x, hx, hround⟩, -⟩ := h ⟨0, .finite (n / 10000), .finite (n / 10000), .finite 0, 1⟩ n n hn hn rfl rfl
  rw [CsvTick.stored, stored_price hsmall, Double.finite.injEq] at hx
  rw [hx, hround]

lemma fourDecimalsKept_of {cfg : Config} {bound : Nat} (hbound : bound ≤ 10240003)
    (h : ∀ n : Nat, n < bound → Strategy.round4 cfg (nearest32 (n / 10000)) = n / 10000) :
    FourDecimalsKept cfg bound := by
  intro t bid ask hbid hask htbid htask
  have hstored : t.stored.bid = .finite (nearest32 (bid / 10000)) ∧
      t.stored.ask = .finite (nearest32 (ask / 10000)) := by
    unfold CsvTick.stored
    rw [htbid, htask, stored_price (by omega), stored_price (by omega)]
    exact ⟨rfl, rfl⟩
  refine ⟨⟨_, hstored.1, h bid hbid⟩, ⟨_, hstored.2, h ask hask⟩, fun hle => ⟨_, _, hstored.1, hstored.2, ?_⟩⟩
  apply BinaryFormat.nearest_mono
  exact div_le_div_of_nonneg_right (by exact_mod_cast hle) (by norm_num)

/-- The records keep the prices of four decimals below a bound if and only if it is at most 1024.0003, and without
the rounding of the strategy if and only if it is at most 0.0001. -/
theorem four_decimals_kept_iff (cfg : Config) (bound : Nat) :
    FourDecimalsKept cfg bound ↔ bound ≤ if cfg.roundFourDecimals then 10240003 else 1 := by
  by_cases hfour : cfg.roundFourDecimals = true
  · rw [if_pos hfour]
    constructor
    · intro h
      by_contra hlarge
      have hkept := h.round4_eq (n := 10240003) (by omega) le_rfl
      rw [round4_of_rounding hfour] at hkept
      exact round4_1024_0003 (by exact_mod_cast hkept)
    · intro h
      apply fourDecimalsKept_of h
      intro n hn
      rw [round4_of_rounding hfour]
      exact round4_kept (hn.trans_le h)
  · rw [if_neg hfour]
    constructor
    · intro h
      by_contra hlarge
      have hkept := h.round4_eq (n := 1) (by omega) (by norm_num)
      rw [round4_of_not_rounding hfour] at hkept
      exact nearest32_0_0001 (by exact_mod_cast hkept)
    · intro h
      apply fourDecimalsKept_of (h.trans (by norm_num))
      intro n hn
      obtain rfl : n = 0 := by omega
      rw [round4_of_not_rounding hfour, Nat.cast_zero, zero_div, nearest32, BinaryFormat.nearest_zero]

end LatencyArb
