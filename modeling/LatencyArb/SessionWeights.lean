import LatencyArb.ArrivalOrder

/-!
# The session and the weights of a composite lead (`Aggregator::in_us_hours`, `weights`)

The operator sets two weights for each session and `weights` normalizes them under the guard
`s > 0` alone. The session is read from the host's local time.
-/

namespace LatencyArb

namespace Aggregator

/-! ## The lead between the venue prices -/

/-- The two weights the operator configured for a session, Deribit's first. -/
def sessionWeights (cfg : Config) (us : Bool) : ℚ × ℚ :=
  (if us then cfg.deribitWeightUs else cfg.deribitWeightAsia,
    if us then cfg.binanceWeightUs else cfg.binanceWeightAsia)

/-- The lead from the two mids, both positive. -/
def composite (cfg : Config) (us : Bool) (b d : ℚ) : ℚ :=
  let v := d * (weights cfg us).1 + b * (weights cfg us).2
  if cfg.roundFourDecimals then round4 v else v

lemma lead_of_pos (cfg : Config) (utcOffsetS nowMs : Int) {agg : Aggregator}
    (hb : 0 < latestMid agg.binance) (hd : 0 < latestMid agg.deribit) :
    agg.lead cfg utcOffsetS nowMs = some (composite cfg (inUsHours cfg utcOffsetS nowMs)
      (latestMid agg.binance) (latestMid agg.deribit)) := by
  unfold lead
  dsimp only
  rw [if_neg (fun h => absurd hb (not_lt.mpr h.1)), if_neg (not_le.mpr hb), if_neg (not_le.mpr hd)]
  rfl

def roundingError (cfg : Config) : ℚ := if cfg.roundFourDecimals then 1 / 20000 else 0

lemma round4_near (v : ℚ) : |round4 v - v| ≤ 1 / 20000 := by
  have hscaled := abs_le.mp (roundAway_near (v * 10000))
  have hv : v = v * 10000 / 10000 := by ring
  rw [round4, abs_le]
  constructor <;> linarith [hscaled.1, hscaled.2]

lemma composite_near (cfg : Config) (us : Bool) (b d : ℚ) :
    |composite cfg us b d - (d * (weights cfg us).1 + b * (weights cfg us).2)| ≤
      roundingError cfg := by
  unfold composite roundingError
  dsimp only
  split
  · exact round4_near _
  · rw [sub_self, abs_zero]

/-- `lead` lies between the mids `b` and `d`, up to the rounding. -/
def Between (cfg : Config) (b d lead : ℚ) : Prop :=
  min b d - roundingError cfg ≤ lead ∧ lead ≤ max b d + roundingError cfg

/-- The weights can be normalized to fractions of one. -/
def Fractions (w : ℚ × ℚ) : Prop := 0 ≤ w.1 ∧ 0 ≤ w.2 ∧ 0 < w.1 + w.2

lemma weights_of_pos {cfg : Config} {us : Bool}
    (h : 0 < (sessionWeights cfg us).1 + (sessionWeights cfg us).2) :
    weights cfg us = ((sessionWeights cfg us).1 / ((sessionWeights cfg us).1 + (sessionWeights cfg us).2),
      (sessionWeights cfg us).2 / ((sessionWeights cfg us).1 + (sessionWeights cfg us).2)) :=
  if_pos h

lemma weights_of_nonpos {cfg : Config} {us : Bool}
    (h : ¬0 < (sessionWeights cfg us).1 + (sessionWeights cfg us).2) :
    weights cfg us = sessionWeights cfg us :=
  if_neg h

/-- Normalized weights move the lead from the Binance mid towards the Deribit mid. -/
lemma mix_eq {cfg : Config} {us : Bool}
    (h : 0 < (sessionWeights cfg us).1 + (sessionWeights cfg us).2) (b d : ℚ) :
    d * (weights cfg us).1 + b * (weights cfg us).2 = b + (d - b) * (weights cfg us).1 ∧
      d * (weights cfg us).1 + b * (weights cfg us).2 = d + (b - d) * (weights cfg us).2 := by
  have hsum : (weights cfg us).1 + (weights cfg us).2 = 1 := by
    rw [weights_of_pos h, ← add_div, div_self h.ne']
  constructor
  · rw [eq_sub_of_add_eq' hsum]
    ring
  · rw [eq_sub_of_add_eq hsum]
    ring

lemma between_of_fractions {cfg : Config} {us : Bool} (h : Fractions (sessionWeights cfg us)) (b d : ℚ) :
    Between cfg b d (composite cfg us b d) := by
  obtain ⟨hd, hb, hsum⟩ := h
  have hnear := abs_le.mp (composite_near cfg us b d)
  have hwd : 0 ≤ (weights cfg us).1 := by
    rw [weights_of_pos hsum]
    exact div_nonneg hd hsum.le
  have hwb : 0 ≤ (weights cfg us).2 := by
    rw [weights_of_pos hsum]
    exact div_nonneg hb hsum.le
  obtain ⟨hfrom, hto⟩ := mix_eq hsum b d
  obtain hle | hle := le_total b d
  · have hlow := mul_nonneg (sub_nonneg.mpr hle) hwd
    have hhigh := mul_nonneg (sub_nonneg.mpr hle) hwb
    rw [Between, min_eq_left hle, max_eq_right hle]
    constructor <;> linarith [hnear.1, hnear.2]
  · have hlow := mul_nonneg (sub_nonneg.mpr hle) hwb
    have hhigh := mul_nonneg (sub_nonneg.mpr hle) hwd
    rw [Between, min_eq_right hle, max_eq_left hle]
    constructor <;> linarith [hnear.1, hnear.2]

lemma roundingError_le (cfg : Config) : roundingError cfg ≤ 1 / 20000 := by
  unfold roundingError
  split <;> norm_num

/-- Weights that are no fractions of one put the lead outside some pair of prices. -/
lemma exists_outside {cfg : Config} {us : Bool} (h : ¬Fractions (sessionWeights cfg us)) :
    ∃ b d, 0 < b ∧ 0 < d ∧ ¬Between cfg b d (composite cfg us b d) := by
  have herror := roundingError_le cfg
  by_cases hsum : 0 < (sessionWeights cfg us).1 + (sessionWeights cfg us).2
  · by_cases hd : 0 ≤ (sessionWeights cfg us).1
    · have hb : (sessionWeights cfg us).2 < 0 := by
        by_contra hb
        exact h ⟨hd, not_lt.mp hb, hsum⟩
      have hw : (weights cfg us).2 < 0 := by
        rw [weights_of_pos hsum]
        exact div_neg_of_neg_of_pos hb hsum
      -- a Deribit mid this far above the Binance mid is overshot by one
      refine ⟨1, 1 - 1 / (weights cfg us).2, by norm_num, ?_, ?_⟩
      · linarith [one_div_neg.mpr hw]
      · rintro ⟨-, hle⟩
        have hnear := abs_le.mp (composite_near cfg us 1 (1 - 1 / (weights cfg us).2))
        have hmix := (mix_eq hsum 1 (1 - 1 / (weights cfg us).2)).2
        have hone : (1 - (1 - 1 / (weights cfg us).2)) * (weights cfg us).2 = 1 := by
          rw [sub_sub_cancel, one_div_mul_cancel hw.ne]
        rw [max_eq_right (by linarith [one_div_neg.mpr hw])] at hle
        linarith [hnear.1]
    · have hw : (weights cfg us).1 < 0 := by
        rw [weights_of_pos hsum]
        exact div_neg_of_neg_of_pos (not_le.mp hd) hsum
      refine ⟨1 - 1 / (weights cfg us).1, 1, ?_, by norm_num, ?_⟩
      · linarith [one_div_neg.mpr hw]
      · rintro ⟨-, hle⟩
        have hnear := abs_le.mp (composite_near cfg us (1 - 1 / (weights cfg us).1) 1)
        have hmix := (mix_eq hsum (1 - 1 / (weights cfg us).1) 1).1
        have hone : (1 - (1 - 1 / (weights cfg us).1)) * (weights cfg us).1 = 1 := by
          rw [sub_sub_cancel, one_div_mul_cancel hw.ne]
        rw [max_eq_left (by linarith [one_div_neg.mpr hw])] at hle
        linarith [hnear.1]
  · -- two equal prices weighted by a sum that is not positive
    refine ⟨1, 1, by norm_num, by norm_num, ?_⟩
    rintro ⟨hle, -⟩
    have hnear := abs_le.mp (composite_near cfg us 1 1)
    rw [weights_of_nonpos hsum] at hnear
    rw [min_self] at hle
    linarith [hnear.2, not_lt.mp hsum]

/-- One quote of each venue, popped at its own stamp. -/
def quotesAt (nowMs : Int) (b d : ℚ) : UpdateCall :=
  ⟨[tickAt nowMs b], [{ tickAt nowMs d with venue := .deribit }], nowMs⟩

lemma ingest_one (nowMs : Int) (t : Tick) (hvalid : t.isValid = true) (hts : t.tsMs = nowMs) :
    ingest [t] [] nowMs = [t] := by
  have hfresh : isStale nowMs t = false := by
    rw [isStale, hts, decide_eq_false_iff_not, sub_self]
    exact fun h => absurd h.2 (by decide)
  rw [ingest, foldl_ingestTick, List.nil_append, List.filter_cons_of_pos (by rw [hvalid, hfresh]; rfl),
    List.filter_nil, pruneOld, List.dropWhile_cons_of_neg (by rw [hfresh]; decide)]

lemma update_quotesAt (cfg : Config) (utcOffsetS nowMs : Int) (b d : ℚ) :
    (update cfg utcOffsetS {} (quotesAt nowMs b d)).2 =
      ⟨[tickAt nowMs b], [{ tickAt nowMs d with venue := .deribit }]⟩ := by
  unfold update quotesAt
  dsimp only
  rw [ingest_one nowMs (tickAt nowMs b) rfl rfl, ingest_one nowMs _ rfl rfl]

lemma latestMid_tickAt (nowMs : Int) (price : ℚ) (venue : Venue) :
    latestMid [{ tickAt nowMs price with venue }] = price := by
  simp [latestMid, tickAt, Tick.mid]

/-- For every configuration, host and instant: whatever ticks arrived and whatever updates ran, the lead
of an update at that instant with two positive mids lies between them, exactly when the weights of
the session are not negative and not both zero. -/
theorem leads_between_venues_iff (cfg : Config) (utcOffsetS nowMs : Int) :
    (∀ pre c, c.nowMs = nowMs →
      let r := update cfg utcOffsetS (updates cfg utcOffsetS pre) c
      0 < latestMid r.2.binance → 0 < latestMid r.2.deribit →
        ∃ v, r.1 = some v ∧ Between cfg (latestMid r.2.binance) (latestMid r.2.deribit) v) ↔
      Fractions (sessionWeights cfg (inUsHours cfg utcOffsetS nowMs)) := by
  constructor
  · intro h
    by_contra hw
    obtain ⟨b, d, hb, hd, hout⟩ := exists_outside hw
    have hcall := h [] (quotesAt nowMs b d) rfl
    have hagg : (update cfg utcOffsetS (updates cfg utcOffsetS []) (quotesAt nowMs b d)).2 =
        ⟨[tickAt nowMs b], [{ tickAt nowMs d with venue := .deribit }]⟩ :=
      update_quotesAt cfg utcOffsetS nowMs b d
    have hmidb : latestMid [tickAt nowMs b] = b := latestMid_tickAt nowMs b .binance
    have hmidd := latestMid_tickAt nowMs d .deribit
    have hlead : (update cfg utcOffsetS (updates cfg utcOffsetS []) (quotesAt nowMs b d)).1 =
        lead cfg utcOffsetS (update cfg utcOffsetS (updates cfg utcOffsetS []) (quotesAt nowMs b d)).2
          nowMs := rfl
    dsimp only at hcall
    rw [hlead, hagg, lead_of_pos cfg utcOffsetS nowMs (by rw [hmidb]; exact hb) (by rw [hmidd]; exact hd),
      hmidb, hmidd] at hcall
    obtain ⟨v, hv, hbetween⟩ := hcall hb hd
    rw [Option.some.injEq] at hv
    exact hout (hv ▸ hbetween)
  · intro h pre c hnow r hb hd
    have hlead : r.1 = lead cfg utcOffsetS r.2 nowMs := by rw [← hnow]; rfl
    exact ⟨_, hlead.trans (lead_of_pos cfg utcOffsetS nowMs hb hd), between_of_fractions h _ _⟩

/-- A session with both weights zero: two venues at 100 and a lead of zero. -/
theorem zeroWeights_lead_outside :
    (update { deribitWeightUs := 0, binanceWeightUs := 0, deribitWeightAsia := 0, binanceWeightAsia := 0 }
        0 {} (quotesAt 1000 100 100)).1 = some 0 ∧
      ¬Between { deribitWeightUs := 0, binanceWeightUs := 0, deribitWeightAsia := 0, binanceWeightAsia := 0 }
        100 100 0 := by
  refine ⟨by decide +kernel, ?_⟩
  norm_num [Between, roundingError]

/-! ## The session and the host's zone -/

/-- The UTC time of day is in the window. -/
def utcInWindow (cfg : Config) (nowMs : Int) : Bool :=
  decide (cfg.usOpenHourUtc * 3600000 ≤ nowMs % 86400000 ∧ nowMs % 86400000 < cfg.usCloseHourUtc * 3600000)

/-- The window, in seconds of a day. -/
def InWindow (cfg : Config) (second : Int) : Prop :=
  cfg.usOpenHourUtc * 3600 ≤ second ∧ second < cfg.usCloseHourUtc * 3600

lemma inUsHours_iff (cfg : Config) (utcOffsetS nowMs : Int) :
    inUsHours cfg utcOffsetS nowMs = true ↔ InWindow cfg ((nowMs.tdiv 1000 + utcOffsetS) % 86400) := by
  unfold inUsHours InWindow
  dsimp only
  rw [decide_eq_true_eq]
  generalize hsecond : (nowMs.tdiv 1000 + utcOffsetS) % 86400 = second
  have hnonneg : 0 ≤ second := hsecond ▸ Int.emod_nonneg _ (by decide)
  omega

lemma utcInWindow_iff (cfg : Config) {nowMs : Int} (h : 0 ≤ nowMs) :
    utcInWindow cfg nowMs = true ↔ InWindow cfg (nowMs.tdiv 1000 % 86400) := by
  unfold utcInWindow InWindow
  rw [decide_eq_true_eq, Int.tdiv_eq_ediv_of_nonneg h]
  omega

/-- The zone makes no difference: whole days of offset, or a window that holds none of the day or all
of it. -/
def ZoneFree (cfg : Config) (utcOffsetS : Int) : Prop :=
  (86400 : Int) ∣ utcOffsetS ∨ cfg.usCloseHourUtc ≤ cfg.usOpenHourUtc ∨ cfg.usCloseHourUtc ≤ 0 ∨
    24 ≤ cfg.usOpenHourUtc ∨ (cfg.usOpenHourUtc ≤ 0 ∧ 24 ≤ cfg.usCloseHourUtc)

lemma inWindow_of_zoneFree {cfg : Config} {utcOffsetS : Int} (h : ZoneFree cfg utcOffsetS) (second : Int) :
    InWindow cfg ((second + utcOffsetS) % 86400) ↔ InWindow cfg (second % 86400) := by
  unfold InWindow
  obtain ⟨days, rfl⟩ | h := h
  · rw [Int.add_mul_emod_self_left]
  · omega

/-- A day's window that a turn of the clock leaves in place is trivial, or the turn is. -/
lemma zoneFree_of_inWindow {cfg : Config} {utcOffsetS : Int}
    (h : ∀ second, 0 ≤ second →
      (InWindow cfg ((second + utcOffsetS) % 86400) ↔ InWindow cfg (second % 86400))) :
    ZoneFree cfg utcOffsetS := by
  -- the second at which the window opens, and the one before it
  have hopen := h (max cfg.usOpenHourUtc 0 * 3600 + 86400)
  have hbefore := h (max cfg.usOpenHourUtc 0 * 3600 + 86399)
  unfold InWindow at hopen hbefore
  unfold ZoneFree
  omega

/-- For every window and every host: at every instant the code's session is the one of UTC, and every
lead the one that a host on UTC computes, exactly when the zone makes no difference. -/
theorem session_follows_utc_iff (cfg : Config) (utcOffsetS : Int) :
    (∀ nowMs, 0 ≤ nowMs → inUsHours cfg utcOffsetS nowMs = utcInWindow cfg nowMs ∧
      ∀ agg, lead cfg utcOffsetS agg nowMs = lead cfg 0 agg nowMs) ↔ ZoneFree cfg utcOffsetS := by
  constructor
  · intro h
    apply zoneFree_of_inWindow
    intro second hsecond
    have hsession := (h (second * 1000) (by omega)).1
    have hutc : utcInWindow cfg (second * 1000) = true ↔
        InWindow cfg ((second * 1000).tdiv 1000 % 86400) := utcInWindow_iff cfg (by omega)
    rw [← hsession, inUsHours_iff, Int.mul_tdiv_cancel _ (by decide)] at hutc
    exact hutc
  · intro h nowMs hnow
    have hutc : inUsHours cfg utcOffsetS nowMs = utcInWindow cfg nowMs := by
      rw [Bool.eq_iff_iff, inUsHours_iff, utcInWindow_iff cfg hnow]
      exact inWindow_of_zoneFree h _
    have hzero : inUsHours cfg 0 nowMs = utcInWindow cfg nowMs := by
      rw [Bool.eq_iff_iff, inUsHours_iff, utcInWindow_iff cfg hnow, add_zero]
    refine ⟨hutc, fun agg => ?_⟩
    unfold lead
    rw [hutc, hzero]

/-- An hour east of Greenwich at half past noon UTC, the default window being 13 to 20 hours: the code
weighs the venues as in the US session. -/
theorem eastOfGreenwich_other_session :
    inUsHours {} 3600 45000000 = true ∧ utcInWindow {} 45000000 = false ∧
      lead {} 3600 ⟨[tickAt 45000000 100], [tickAt 45000000 200]⟩ 45000000 = some 160 ∧
      lead {} 0 ⟨[tickAt 45000000 100], [tickAt 45000000 200]⟩ 45000000 = some 140 := by
  decide +kernel

end Aggregator

end LatencyArb
