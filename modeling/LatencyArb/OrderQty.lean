import LatencyArb.FixClient
import LatencyArb.Library.Strtod

/-!
# The quantity of an order (`FixClient::new_order_single`)

OrderQty is written as an integer. A fractional amount loses its fraction, and one below 1 is written
as 0.
-/

namespace LatencyArb

open Numeral

/-- The number that OrderQty stands for. -/
def FixFrame.QtyIs (frame : FixFrame) (x : ℚ) : Prop :=
  ∃ text, frame.value 38 = some text ∧ strtod (bytesOf text) = .finite x

lemma toLong_bounds (x : ℚ) : -2 ^ 63 ≤ toLong x ∧ toLong x < 2 ^ 63 := by
  unfold toLong
  dsimp only
  split
  · assumption
  · norm_num

lemma toLong_of_pos {x : ℚ} (hpos : 0 < x) : toLong x = if x < 2 ^ 63 then ⌊x⌋ else -2 ^ 63 := by
  have hfloor : 0 ≤ ⌊x⌋ := Int.floor_nonneg.mpr hpos.le
  have hbound : ⌊x⌋ < 2 ^ 63 ↔ x < 2 ^ 63 := by
    rw [Int.floor_lt]
    norm_num
  unfold toLong truncZero
  rw [if_pos hpos.le]
  dsimp only
  by_cases hx : x < 2 ^ 63
  · rw [if_pos hx, if_pos ⟨by omega, hbound.mpr hx⟩]
  · rw [if_neg hx, if_neg (fun h => hx (hbound.mp h.2))]

/-- The text of a `long` is read back as it is. -/
lemma strtod_toLong (x : ℚ) : strtod (bytesOf (toString (toLong x))) = .finite (toLong x) := by
  obtain ⟨hlow, hhigh⟩ := toLong_bounds x
  rw [← IntNumeral.ofInt_text, IntNumeral.strtod_text, IntNumeral.ofInt_value]
  apply Double.ofRat_eq
  · rw [abs_lt]
    constructor
    · calc (-10 ^ 21 : ℚ) < ((-2 ^ 63 : ℤ) : ℚ) := by norm_num
        _ ≤ (toLong x : ℚ) := by exact_mod_cast hlow
    · calc ((toLong x : ℤ) : ℚ) < ((2 ^ 63 : ℤ) : ℚ) := by exact_mod_cast hhigh
        _ < 10 ^ 21 := by norm_num
  · by_cases hzero : toLong x = 0
    · left
      exact_mod_cast hzero
    · right
      have hone : (1 : ℤ) ≤ |toLong x| := Int.one_le_abs hzero
      have hone' : (1 : ℚ) ≤ |((toLong x : ℤ) : ℚ)| := by exact_mod_cast hone
      refine le_trans ?_ hone'
      norm_num

lemma qtyIs_iff (cfg : Config) (s : Signal) (seq : Int) (sendingTime : String) (hpos : 0 < cfg.tradeAmount)
    (x : ℚ) : (newOrderSingle cfg s seq sendingTime).QtyIs x ↔ (toLong cfg.tradeAmount : ℚ) = x := by
  have hvalue : (newOrderSingle cfg s seq sendingTime).value 38 =
      some (toString (toLong cfg.tradeAmount)) := by
    have hfield : (newOrderSingle cfg s seq sendingTime).value 38 =
        some (toString (toLong (if 0 < cfg.tradeAmount then cfg.tradeAmount else 1))) := rfl
    rw [hfield, if_pos hpos]
  unfold FixFrame.QtyIs
  rw [hvalue]
  constructor
  · rintro ⟨text, htext, hread⟩
    obtain rfl := Option.some.inj htext
    rw [strtod_toLong] at hread
    exact Double.finite.inj hread
  · rintro rfl
    exact ⟨_, rfl, strtod_toLong cfg.tradeAmount⟩

/-- A positive amount below 1 is written as 0. -/
theorem qty_zero_iff (cfg : Config) (s : Signal) (seq : Int) (sendingTime : String)
    (hpos : 0 < cfg.tradeAmount) :
    (newOrderSingle cfg s seq sendingTime).QtyIs 0 ↔ cfg.tradeAmount < 1 := by
  rw [qtyIs_iff cfg s seq sendingTime hpos, Int.cast_eq_zero, toLong_of_pos hpos]
  split
  · rw [Int.floor_eq_zero_iff, Set.mem_Ico]
    exact and_iff_right hpos.le
  · rename_i hbig
    constructor
    · intro h
      exact absurd h (by norm_num)
    · intro h
      exact absurd (h.trans (by norm_num)) hbig

/-- For a positive amount OrderQty is the amount, and so not zero, exactly when the amount is an integer in
the range of `long`. -/
theorem qty_exact_iff (cfg : Config) (s : Signal) (seq : Int) (sendingTime : String)
    (hpos : 0 < cfg.tradeAmount) :
    ((newOrderSingle cfg s seq sendingTime).QtyIs cfg.tradeAmount ∧
      ¬(newOrderSingle cfg s seq sendingTime).QtyIs 0) ↔
      ∃ n : ℤ, cfg.tradeAmount = n ∧ n < 2 ^ 63 := by
  rw [qtyIs_iff cfg s seq sendingTime hpos, qtyIs_iff cfg s seq sendingTime hpos]
  constructor
  · rintro ⟨hexact, -⟩
    exact ⟨toLong cfg.tradeAmount, hexact.symm, (toLong_bounds cfg.tradeAmount).2⟩
  · rintro ⟨n, hn, hbound⟩
    have hlt : cfg.tradeAmount < 2 ^ 63 := by
      rw [hn]
      exact_mod_cast hbound
    have hexact : (toLong cfg.tradeAmount : ℚ) = cfg.tradeAmount := by
      rw [toLong_of_pos hpos, if_pos hlt, hn, Int.floor_intCast]
    refine ⟨hexact, ?_⟩
    rw [hexact]
    exact hpos.ne'

def goldSignal : Signal where
  side := .buy
  lead := 2400
  brokerBid := 2399
  brokerAsk := 2399
  threshold := 1 / 2
  edge := 1
  tsMs := 1000
  symbol := "XAU/USD"
  reason := "lead_lag"

/-- An amount of 3. -/
theorem three_units_exact :
    ((newOrderSingle { tradeAmount := 3 } goldSignal 2 "").QtyIs 3 ∧
      ¬(newOrderSingle { tradeAmount := 3 } goldSignal 2 "").QtyIs 0) ↔
      ∃ n : ℤ, (3 : ℚ) = n ∧ n < 2 ^ 63 :=
  qty_exact_iff { tradeAmount := 3 } goldSignal 2 "" (by norm_num)

/-- The order for the amount of the default configuration, 0.001, says 0. -/
theorem default_amount_zero :
    (newOrderSingle {} goldSignal 2 "").value 38 = some "0" ∧
    ¬∀ (cfg : Config) (s : Signal) (seq : Int) (sendingTime : String), 0 < cfg.tradeAmount →
      (newOrderSingle cfg s seq sendingTime).QtyIs cfg.tradeAmount := by
  refine ⟨by decide +kernel, ?_⟩
  intro h
  have hexact := h {} goldSignal 2 "" (by norm_num)
  rw [qtyIs_iff {} goldSignal 2 "" (by norm_num)] at hexact
  revert hexact
  decide +kernel

end LatencyArb
