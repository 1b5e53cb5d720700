import LatencyArb.Trader.MomentumSignal

/-!
# What the trigger makes of prices

The trigger is to see percentages only, so that a venue quoting in another unit gives the same signals.
The averages start at the first price and are never warmed up, so that the first change of the price is
a crossover. Both are so in exact arithmetic; with roundings the averages can drift apart at one price.
-/

namespace LatencyArb

namespace Trader

/-! ## Prices in another unit -/

def scaleTick (c : ℚ) (e : PriceTick) : PriceTick := (e.1, c * e.2)

/-- The signal for prices in a unit `c` times smaller: a crossover reports the price as its change. -/
def Signal.scale (c : ℚ) (x : Signal) : Signal :=
  { x with
    refPrice := c * x.refPrice
    changePct := match x.reason with
      | .momentum => x.changePct
      | .emaCross => c * x.changePct }

def MomentumSignal.scale (c : ℚ) (s : MomentumSignal) : MomentumSignal where
  buf := s.buf.map (scaleTick c)
  lastTradeTs := s.lastTradeTs
  emaFast := s.emaFast.map (c * ·)
  emaSlow := s.emaSlow.map (c * ·)
  prevFast := s.prevFast.map (c * ·)
  prevSlow := s.prevSlow.map (c * ·)

/-- The answer of a call and the state it leaves, for prices in the other unit. -/
def scaleReply (c : ℚ) (r : Option Signal × MomentumSignal) : Option Signal × MomentumSignal :=
  (r.1.map (Signal.scale c), r.2.scale c)

section Scale

variable {A : Rounding} {cfg : TradingConfig} {c : ℚ}

lemma prune_scale (now : ℚ) (buf : List PriceTick) :
    prune A cfg now (buf.map (scaleTick c)) = (prune A cfg now buf).map (scaleTick c) := by
  rw [prune, List.dropWhile_map]
  rfl

lemma priceAt_scale (buf : List PriceTick) (cutoff : ℚ) :
    priceAt (buf.map (scaleTick c)) cutoff = c * priceAt buf cutoff := by
  have hfind : (buf.map (scaleTick c)).find? (fun e => decide (cutoff ≤ e.1)) =
      (buf.find? (fun e => decide (cutoff ≤ e.1))).map (scaleTick c) := by
    rw [List.find?_map]
    rfl
  rw [priceAt, hfind, priceAt]
  cases buf.find? (fun e => decide (cutoff ≤ e.1)) with
  | some e => rfl
  | none =>
    cases buf with
    | nil => simp
    | cons front rest => rfl

lemma emaNext_scale (hscale : A.Scales c) (value : ℚ) (prev : Option ℚ) (period : Int) :
    emaNext A (c * value) (prev.map (c * ·)) period = c * emaNext A value prev period := by
  have hmul : ∀ x y, A.mul (c * x) y = c * A.mul x y := by
    intro x y
    rw [Rounding.mul, mul_assoc, hscale, Rounding.mul]
  have hadd : ∀ x y, A.add (c * x) (c * y) = c * A.add x y := by
    intro x y
    rw [Rounding.add, ← mul_add, hscale, Rounding.add]
  cases prev with
  | none => rfl
  | some p =>
    dsimp only [emaNext, Option.map_some]
    rw [hmul, hmul, hadd]

lemma ema_scale (hscale : A.Scales c) (value : ℚ) (prev : Option ℚ) (period : Int) :
    ema A (c * value) (prev.map (c * ·)) period = (ema A value prev period).map (c * ·) := by
  rw [ema, ema, emaNext_scale hscale]
  split <;> rfl

lemma crossing_scale (hc : 0 < c) (prevFast prevSlow fast slow : ℚ) :
    crossing (c * prevFast) (c * prevSlow) (c * fast) (c * slow) =
      crossing prevFast prevSlow fast slow := by
  unfold crossing
  simp only [mul_lt_mul_iff_right₀ hc, mul_le_mul_iff_right₀ hc]

lemma shiftEmas_scale (hscale : A.Scales c) (s : MomentumSignal) (price : ℚ) :
    (s.scale c).shiftEmas A cfg (c * price) = (s.shiftEmas A cfg price).map (MomentumSignal.scale c) := by
  rw [MomentumSignal.shiftEmas, MomentumSignal.shiftEmas]
  split
  · dsimp only [MomentumSignal.scale]
    rw [ema_scale hscale, ema_scale hscale]
    cases ema A price s.emaFast cfg.emaFast with
    | error _ => rfl
    | ok fast =>
      cases ema A price s.emaSlow cfg.emaSlow with
      | error _ => rfl
      | ok slow => rfl
  · rfl

lemma crossed_scale (hc : 0 < c) (s : MomentumSignal) (now : ℚ) :
    (s.scale c).crossed A cfg now = s.crossed A cfg now := by
  have hcool : (s.scale c).inCooldown A cfg now = s.inCooldown A cfg now := rfl
  rw [MomentumSignal.crossed, MomentumSignal.crossed, hcool]
  split
  · dsimp only [MomentumSignal.scale]
    cases s.prevFast <;> cases s.prevSlow <;> cases s.emaFast <;> cases s.emaSlow <;> try rfl
    simp only [Option.map_some, crossing_scale hc]
  · rfl

lemma momentum_scale (hc : 0 < c) (s : MomentumSignal) (now price : ℚ) :
    (s.scale c).momentum A cfg now (c * price) = (s.momentum A cfg now price).map (scaleReply c) := by
  have hcool : (s.scale c).inCooldown A cfg now = s.inCooldown A cfg now := rfl
  have hbuf : (s.scale c).buf = s.buf.map (scaleTick c) := rfl
  have hhead : (s.buf.map (scaleTick c)).head?.any (fun e => decide (e.1 ≤ A.sub now cfg.windowSeconds)) =
      s.buf.head?.any (fun e => decide (e.1 ≤ A.sub now cfg.windowSeconds)) := by
    cases s.buf <;> rfl
  rw [MomentumSignal.momentum, MomentumSignal.momentum, hcool, hbuf]
  dsimp only
  rw [hhead, List.length_map, priceAt_scale, Rounding.changePct_scale hc.ne']
  by_cases hspans : 2 ≤ s.buf.length ∧
      s.buf.head?.any (fun e => decide (e.1 ≤ A.sub now cfg.windowSeconds)) = true
  · rw [if_pos hspans, if_pos hspans]
    by_cases hzero : priceAt s.buf (A.sub now cfg.windowSeconds) = 0
    · rw [if_pos hzero, if_pos (by rw [hzero, mul_zero])]
      rfl
    · rw [if_neg hzero, if_neg (mul_ne_zero hc.ne' hzero)]
      split <;> rfl
  · rw [if_neg hspans, if_neg hspans]
    rfl

lemma update_scale (hc : 0 < c) (hscale : A.Scales c) (s : MomentumSignal) (now price : ℚ) :
    (s.scale c).update A cfg now (c * price) = (s.update A cfg now price).map (scaleReply c) := by
  have hbuf : { s.scale c with buf := prune A cfg now ((s.scale c).buf ++ [(now, c * price)]) } =
      { s with buf := prune A cfg now (s.buf ++ [(now, price)]) }.scale c := by
    have hbuffer : (s.scale c).buf ++ [(now, c * price)] =
        (s.buf ++ [(now, price)]).map (scaleTick c) := by
      rw [List.map_append]
      rfl
    rw [hbuffer, prune_scale]
    rfl
  have hscaled : { s.scale c with buf := prune A cfg now ((s.scale c).buf ++ [(now, c * price)]) }.shiftEmas
      A cfg (c * price) =
      ({ s with buf := prune A cfg now (s.buf ++ [(now, price)]) }.shiftEmas A cfg price).map
        (MomentumSignal.scale c) := by
    rw [hbuf, shiftEmas_scale hscale]
  cases hshift : { s with buf := prune A cfg now (s.buf ++ [(now, price)]) }.shiftEmas A cfg price with
  | error raised =>
    rw [hshift] at hscaled
    rw [update_of_raised hshift, update_of_raised hscaled]
    rfl
  | ok s₁ =>
    rw [hshift] at hscaled
    have hsame : (s₁.scale c).crossed A cfg now = s₁.crossed A cfg now := crossed_scale hc s₁ now
    cases hcross : s₁.crossed A cfg now with
    | some direction =>
      rw [update_of_crossed hshift hcross, update_of_crossed hscaled (hsame.trans hcross)]
      rfl
    | none =>
      rw [update_of_not_crossed hshift hcross, update_of_not_crossed hscaled (hsame.trans hcross)]
      exact momentum_scale hc s₁ now price

/-- For every run whatsoever, in exact arithmetic as in any other whose rounding commutes with the factor: with
all prices multiplied by the same positive number the trigger emits the same signals at the same times, in the
same directions and for the same reasons, and raises where it did. -/
theorem history_scale (A : Rounding) (cfg : TradingConfig) (hc : 0 < c) (hscale : A.Scales c)
    (ticks : List PriceTick) :
    history A cfg (ticks.map (scaleTick c)) = (history A cfg ticks).map (fun r =>
      (r.1.scale c, r.2.map (fun e => (e.1, e.2.scale c)))) := by
  induction ticks using List.reverseRecOn with
  | nil => rfl
  | append_singleton ticks e ih =>
    rw [List.map_append, List.map_singleton, history_concat, history_concat, ih]
    cases history A cfg ticks with
    | error _ => rfl
    | ok r =>
      dsimp only [Except.map, Except.bind, scaleTick]
      rw [update_scale hc hscale]
      cases r.1.update A cfg e.1 e.2 with
      | error _ => rfl
      | ok reply =>
        dsimp only [Except.map, Except.bind, scaleReply]
        rw [List.map_append]
        cases reply.1 <;> rfl

theorem history_scale_cents :
    history .exact {} ([((1 : ℚ), (100 : ℚ)), (2, 101)].map (scaleTick 100)) =
      (history .exact {} [(1, 100), (2, 101)]).map (fun r =>
        (r.1.scale 100, r.2.map (fun e => (e.1, e.2.scale 100)))) :=
  history_scale .exact {} (by norm_num) (Rounding.exact_scales 100) _

end Scale

/-! ## The first change of the price -/

section FirstChange

variable {cfg : TradingConfig} {calm : List PriceTick} {p : ℚ}

lemma emaNext_exact (value p : ℚ) (period : Int) : emaNext .exact value (some p) period =
    value * (2 / ((period : ℚ) + 1)) + p * (1 - 2 / ((period : ℚ) + 1)) := rfl

lemma emaOver_calm (period : Int) (hcalm : ∀ t ∈ calm, t.2 = p) (hne : calm ≠ []) :
    emaOver .exact period (calm.map Prod.snd) = some p := by
  induction calm using List.reverseRecOn with
  | nil => exact absurd rfl hne
  | append_singleton calm e ih =>
    have he : e.2 = p := hcalm e (by simp)
    rw [List.map_append, List.map_singleton, emaOver_concat, he]
    by_cases hcalm' : calm = []
    · rw [hcalm']
      rfl
    · rw [ih (fun t ht => hcalm t (List.mem_append_left _ ht)) hcalm']
      rw [emaNext_exact]
      ring_nf

lemma windowPrice_calm (hwindow : 0 ≤ cfg.windowSeconds) (hcalm : ∀ t ∈ calm, t.2 = p) (now : ℚ) :
    windowPrice .exact cfg (calm ++ [(now, p)]) now = p := by
  obtain ⟨-, e, he, hprice⟩ :=
    priceAt_prune (Rounding.exact_has _) hwindow (Rounding.exact_has now) calm p
  rw [hprice]
  obtain he | he := List.mem_append.mp he
  · exact hcalm e he
  · rw [List.mem_singleton.mp he]

/-- While the price stands still there is nothing to trade. -/
lemma emissions_calm (hwindow : 0 ≤ cfg.windowSeconds) (hthreshold : 0 < cfg.thresholdPct) (hp : 0 < p)
    (hcalm : ∀ t ∈ calm, t.2 = p) : emissions .exact cfg calm = [] := by
  induction calm using List.reverseRecOn with
  | nil => rfl
  | append_singleton calm e ih =>
    obtain ⟨now, price⟩ := e
    obtain rfl : price = p := hcalm (now, price) (by simp)
    have hbefore : ∀ t ∈ calm, t.2 = price := fun t ht => hcalm t (List.mem_append_left _ ht)
    have hcross : crossesAt .exact cfg (calm.map Prod.snd) price = none := by
      rw [crossesAt]
      split
      · by_cases hne : calm = []
        · rw [hne]
          rfl
        · rw [emaOver_calm _ hbefore hne, emaOver_calm _ hbefore hne]
          have hsame : ∀ period, emaNext .exact price (some price) period = price := by
            intro period
            rw [emaNext_exact]
            ring
          dsimp only
          rw [hsame, hsame]
          simp [crossing]
      · rfl
    have hverdict : verdict .exact cfg calm [] now price = none := by
      by_cases hrested : Rested .exact cfg [] now
      · rw [verdict_of_not_crosses hrested hcross]
        dsimp only
        rw [windowPrice_calm hwindow hbefore, Rounding.changePct_self hp.ne', abs_zero]
        rw [if_neg (fun h => hthreshold.not_ge h.2)]
      · exact verdict_eq_none_of_not_rested hrested
    rw [emissions_concat, ih hbefore, hverdict]
    rfl

/-- The faster average moves further towards the new price. -/
lemma crossing_of_change (hfast : 0 ≤ cfg.emaFast) (hslow : cfg.emaFast < cfg.emaSlow) {q : ℚ} (hq : q ≠ p) :
    crossing p p (emaNext .exact q (some p) cfg.emaFast) (emaNext .exact q (some p) cfg.emaSlow) =
      some (if p < q then .buy else .sell) := by
  have hfast' : (0 : ℚ) ≤ cfg.emaFast := by exact_mod_cast hfast
  have hslow' : (cfg.emaFast : ℚ) < cfg.emaSlow := by exact_mod_cast hslow
  have hweight : 2 / ((cfg.emaSlow : ℚ) + 1) < 2 / ((cfg.emaFast : ℚ) + 1) :=
    div_lt_div_of_pos_left (by norm_num) (by linarith) (by linarith)
  have hvalue : ∀ period, emaNext .exact q (some p) period = p + 2 / ((period : ℚ) + 1) * (q - p) := by
    intro period
    rw [emaNext_exact]
    ring
  rw [hvalue, hvalue]
  unfold crossing
  obtain hlt | hlt := lt_or_gt_of_ne hq
  · have hdown : p + 2 / ((cfg.emaFast : ℚ) + 1) * (q - p) < p + 2 / ((cfg.emaSlow : ℚ) + 1) * (q - p) := by
      have := mul_lt_mul_of_neg_right hweight (sub_neg.mpr hlt)
      linarith
    rw [if_neg (fun h => absurd h.1 hdown.le.not_gt), if_pos ⟨hdown, le_rfl⟩, if_neg hlt.le.not_gt]
  · have hup : p + 2 / ((cfg.emaSlow : ℚ) + 1) * (q - p) < p + 2 / ((cfg.emaFast : ℚ) + 1) * (q - p) := by
      have := mul_lt_mul_of_pos_right hweight (sub_pos.mpr hlt)
      linarith
    rw [if_pos ⟨hup, le_rfl⟩, if_pos hlt]

lemma emissions_prefix (ticks later : List PriceTick) :
    emissions .exact cfg ticks <+: emissions .exact cfg (ticks ++ later) := by
  induction later using List.reverseRecOn with
  | nil => rw [List.append_nil]
  | append_singleton later e ih =>
    rw [← List.append_assoc, emissions_concat]
    exact ih.trans (List.prefix_append _ _)

/-- In exact arithmetic, with the averages in use, there is no warming up: in every run, the first tick whose
price differs from the first price is a crossover in the direction of the change, however small it is, and it
is the first signal of the run. -/
theorem first_change_fires (cfg : TradingConfig) (hema : cfg.useEma = true) (hfast : 0 ≤ cfg.emaFast)
    (hslow : cfg.emaFast < cfg.emaSlow) (hwindow : 0 ≤ cfg.windowSeconds) (hthreshold : 0 < cfg.thresholdPct)
    (hp : 0 < p) (calm : List PriceTick) (hne : calm ≠ []) (hcalm : ∀ t ∈ calm, t.2 = p) (now q : ℚ)
    (hq : q ≠ p) (hstart : cfg.cooldownSeconds ≤ now + 1000000000) (rest : List PriceTick)
    (hsorted : (calm ++ (now, q) :: rest).Pairwise (fun a b => a.1 ≤ b.1))
    (hprices : ∀ t ∈ calm ++ (now, q) :: rest, 0 < t.2) :
    ∃ s later, history .exact cfg (calm ++ (now, q) :: rest) =
      .ok (s, (now, ⟨if p < q then .buy else .sell, .emaCross, q, q⟩) :: later) := by
  have hperiod : ∀ period : Int, 0 ≤ period → (period : ℚ) + 1 ≠ 0 := by
    intro period hnonneg
    have hcast : (0 : ℚ) ≤ period := by exact_mod_cast hnonneg
    linarith
  have hperiods : Averages .exact cfg := fun _ => ⟨hperiod _ hfast, hperiod _ (hfast.trans hslow.le)⟩
  obtain ⟨s, hs, -⟩ := history_follows (Rounding.exact_has _) hwindow hperiods _
    (fun t _ => Rounding.exact_has t.1) hsorted hprices
  have hrested : Rested .exact cfg [] now := by
    refine ⟨?_, by simp⟩
    rw [Rounding.exact_sub, sub_neg_eq_add]
    exact hstart
  have hcross : crossesAt .exact cfg (calm.map Prod.snd) q = some (if p < q then .buy else .sell) := by
    rw [crossesAt, if_pos hema, emaOver_calm _ hcalm hne, emaOver_calm _ hcalm hne]
    exact crossing_of_change hfast hslow hq
  have hfirst : emissions .exact cfg (calm ++ [(now, q)]) =
      [(now, ⟨if p < q then .buy else .sell, .emaCross, q, q⟩)] := by
    rw [emissions_concat, emissions_calm hwindow hthreshold hp hcalm, verdict_of_crosses hrested hcross]
    rfl
  obtain ⟨later, hlater⟩ := emissions_prefix (calm ++ [(now, q)]) rest
  rw [hfirst, List.append_assoc] at hlater
  refine ⟨s, later, ?_⟩
  rw [hs]
  exact congrArg (fun l => Except.ok (s, l)) hlater.symm

/-- A rise by a hundredth of a basis point. -/
theorem first_change_fires_tiny : ∃ s later,
    history .exact {} ([((1 : ℚ), (100 : ℚ)), (2, 100)] ++ ((3, 100 + 1 / 10000) :: [])) =
      .ok (s, ((3 : ℚ), ⟨.buy, .emaCross, 100 + 1 / 10000, 100 + 1 / 10000⟩) :: later) := by
  have hup : (100 : ℚ) < 100 + 1 / 10000 := by norm_num
  have hfires := first_change_fires (p := 100) {} rfl (by decide) (by decide) (by norm_num) (by decide +kernel)
    (by norm_num) [(1, 100), (2, 100)] (by simp) (by simp) 3 (100 + 1 / 10000) hup.ne' (by norm_num) []
    (by decide +kernel) (by decide +kernel)
  rwa [if_pos hup] at hfires

end FirstChange

end Trader

end LatencyArb
