import LatencyArb.LeadLag.Momentum
import LatencyArb.Trader.MomentumSignal

/-!
# The Python trigger and the C++ generator

The two programs implement one strategy, one on whole nanoseconds and one on seconds, which roundings can
tell apart. In exact arithmetic, the crossover apart, they differ in one test: the Python trigger wants a
buffered tick from before the window, and keeps ticks for a second margin, while the generator of
`src/lead_lag.cpp` takes the earliest tick it has.
-/

namespace LatencyArb

namespace Trader

open LeadLag SignalGenerator Numeral

variable (cfg : TradingConfig)

/-- The same settings for the C++ generator. -/
def cppConfig : SignalConfig := ⟨cfg.windowSeconds, cfg.thresholdPct, cfg.cooldownSeconds⟩

/-- A tick of `steady_clock` as one of `time.monotonic()`. -/
def seconds (e : Nat × ℚ) : PriceTick := (e.1 / nanosPerSecond, e.2)

/-- A signal with the texts of `src/lead_lag.cpp`. -/
def Signal.texts (x : Signal) : LeadLag.Signal where
  direction := match x.direction with
    | .buy => bytesOf "buy"
    | .sell => bytesOf "sell"
  reason := match x.reason with
    | .momentum => bytesOf "momentum"
    | .emaCross => bytesOf "ema_cross"
  refPrice := x.refPrice
  changePct := x.changePct

/-- The signals of the C++ generator, with their times in seconds. -/
def cppSignals (ticks : List (Nat × ℚ)) : List (ℚ × LeadLag.Signal) :=
  (ticks.foldl (fun s e =>
    let r := SignalGenerator.update .exact (cppConfig cfg) s.1 e.1 e.2
    (r.2, s.2 ++ (r.1.map (((e.1 : ℚ) / nanosPerSecond), ·)).toList)) (({} : SignalGenerator), [])).2

/-- The answer of the C++ generator at a tick, after the ticks before it. -/
def cppAnswer (pre : List (Nat × ℚ)) (e : Nat × ℚ) : Option LeadLag.Signal :=
  ((SignalGenerator.history .exact (cppConfig cfg) pre).1.update .exact (cppConfig cfg) e.1 e.2).1

/-- The price of the earliest tick in the window of a tick. -/
def refAt (pre : List (Nat × ℚ)) (e : Nat × ℚ) : ℚ :=
  windowPrice .exact cfg ((pre ++ [e]).map seconds) (e.1 / nanosPerSecond)

/-- The signals of the Python trigger on the same ticks. -/
def pySignals (ticks : List (Nat × ℚ)) : Except Raised (List (ℚ × LeadLag.Signal)) :=
  (Trader.history .exact cfg (ticks.map seconds)).map (fun r => r.2.map (fun e => (e.1, e.2.texts)))

variable {cfg}

lemma cppSignals_concat (ticks : List (Nat × ℚ)) (e : Nat × ℚ) :
    cppSignals cfg (ticks ++ [e]) = cppSignals cfg ticks ++
      ((cppAnswer cfg ticks e).map (((e.1 : ℚ) / nanosPerSecond), ·)).toList := by
  have hstate : ∀ (l : List (Nat × ℚ)), (l.foldl (fun s e =>
      let r := SignalGenerator.update .exact (cppConfig cfg) s.1 e.1 e.2
      (r.2, s.2 ++ (r.1.map (((e.1 : ℚ) / nanosPerSecond), ·)).toList))
        (({} : SignalGenerator), ([] : List (ℚ × LeadLag.Signal)))).1 =
      (SignalGenerator.history .exact (cppConfig cfg) l).1 := by
    intro l
    induction l using List.reverseRecOn with
    | nil => rfl
    | append_singleton l b ih =>
      rw [List.foldl_append, List.foldl_cons, List.foldl_nil, SignalGenerator.history_concat, ← ih]
  rw [cppSignals, List.foldl_append, List.foldl_cons, List.foldl_nil, hstate, ← cppSignals]
  rfl

lemma cppSignals_times (ticks : List (Nat × ℚ)) :
    (cppSignals cfg ticks).map Prod.fst =
      (SignalGenerator.history .exact (cppConfig cfg) ticks).2.map (fun t : Nat => (t : ℚ) / nanosPerSecond) := by
  induction ticks using List.reverseRecOn with
  | nil => rfl
  | append_singleton ticks e ih =>
    rw [cppSignals_concat, SignalGenerator.history_concat, List.map_append, ih]
    unfold cppAnswer
    cases ((SignalGenerator.history .exact (cppConfig cfg) ticks).1.update .exact (cppConfig cfg) e.1 e.2).1 with
    | none => simp
    | some x => simp

lemma seconds_le_iff (a b : Nat × ℚ) : (seconds a).1 ≤ (seconds b).1 ↔ a.1 ≤ b.1 := by
  rw [seconds, seconds, div_le_div_iff_of_pos_right nanos_pos, Nat.cast_le]

/-- The earliest tick of the window is the same on the two clocks. -/
lemma windowPrice_seconds {ticks : List (Nat × ℚ)} {now : Nat} {ref : Nat × ℚ}
    (href : windowStart .exact (cppConfig cfg) ticks now = some ref) :
    windowPrice .exact cfg (ticks.map seconds) (now / nanosPerSecond) = ref.2 := by
  have hfind : (ticks.map seconds).find?
      (fun e => decide (Rounding.exact.sub (now / nanosPerSecond) cfg.windowSeconds ≤ e.1)) =
        some (seconds ref) := by
    have hsame : ((fun e : PriceTick =>
        decide (Rounding.exact.sub (now / nanosPerSecond) cfg.windowSeconds ≤ e.1)) ∘ seconds) =
          fun e : Nat × ℚ => decide ((now : ℚ) - windowNanos .exact (cppConfig cfg) ≤ e.1) := by
      funext e
      apply decide_eq_decide.mpr
      have hpos := nanos_pos
      dsimp only [seconds]
      rw [Rounding.exact_sub, le_div_iff₀ hpos, sub_mul, div_mul_cancel₀ _ hpos.ne']
      rfl
    rw [List.find?_map, hsame]
    exact congrArg (Option.map seconds) href
  rw [windowPrice, priceAt, hfind]
  rfl

/-- The C++ generator decides against the earliest price of the window. -/
lemma cpp_answer (hwindow : 0 ≤ cfg.windowSeconds) (hthreshold : 0 < cfg.thresholdPct)
    (pre : List (Nat × ℚ)) (now : Nat) (price : ℚ)
    (hsorted : (pre ++ [(now, price)]).Pairwise (fun a b => a.1 ≤ b.1)) (hprice : 0 < price) :
    cppAnswer cfg pre (now, price) = signalFrom .exact (cppConfig cfg) (refAt cfg pre (now, price))
      (SignalGenerator.history .exact (cppConfig cfg) pre).1.lastSignal now price := by
  have hpositive : 0 < (cppConfig cfg).thresholdPct := hthreshold
  obtain ⟨ref, href, hon⟩ := signalOn_eq hwindow hpositive pre
    (SignalGenerator.history .exact (cppConfig cfg) pre).1.lastSignal now hprice
  rw [refAt, windowPrice_seconds href, ← hon,
    ← signalOn_dropWhile (Rounding.exact_has _) hwindow hpositive pre _ now hprice,
    ← buf_eq pre (now, price) hsorted]
  rfl

/-- Where the two have emitted at the same times, their cooldowns end together. -/
lemma rested_iff (hcooldown : cfg.cooldownSeconds ≤ 1000000000) (pre : List (Nat × ℚ)) (now : Nat)
    (hsorted : pre.Pairwise (fun a b => a.1 ≤ b.1)) {emitted : List (ℚ × Signal)}
    (hsame : emitted.map Prod.fst = (cppSignals cfg pre).map Prod.fst) :
    Rested .exact cfg emitted (now / nanosPerSecond) ↔
      SignalGenerator.inCooldown .exact (cppConfig cfg)
        (SignalGenerator.history .exact (cppConfig cfg) pre).1.lastSignal now = false := by
  have hpos := nanos_pos
  have hstart : cfg.cooldownSeconds ≤ Rounding.exact.sub (now / nanosPerSecond) (-1000000000) := by
    have hnonneg : (0 : ℚ) ≤ (now : ℚ) / nanosPerSecond := by positivity
    rw [Rounding.exact_sub]
    linarith
  have htimes : (∀ e ∈ emitted, cfg.cooldownSeconds ≤ Rounding.exact.sub (now / nanosPerSecond) e.1) ↔
      ∀ t ∈ emitted.map Prod.fst, cfg.cooldownSeconds ≤ Rounding.exact.sub (now / nanosPerSecond) t := by
    rw [List.forall_mem_map]
  rw [SignalGenerator.inCooldown_eq_false_iff pre now hsorted, Rested, htimes, hsame, cppSignals_times,
    List.forall_mem_map, and_iff_right hstart]
  apply forall₂_congr
  intro t _
  rw [Rounding.exact_sub, ← sub_div, le_div_iff₀ hpos]
  rfl

/-- The answer of the C++ generator is the momentum signal of the Python one, without its test of the
window. -/
lemma cpp_answer_eq (hwindow : 0 ≤ cfg.windowSeconds) (hthreshold : 0 < cfg.thresholdPct)
    (hcooldown : cfg.cooldownSeconds ≤ 1000000000) (pre : List (Nat × ℚ)) (now : Nat) (price : ℚ)
    (hsorted : (pre ++ [(now, price)]).Pairwise (fun a b => a.1 ≤ b.1)) (hprice : 0 < price)
    {emitted : List (ℚ × Signal)} (hsame : emitted.map Prod.fst = (cppSignals cfg pre).map Prod.fst) :
    cppAnswer cfg pre (now, price) =
      let ref := refAt cfg pre (now, price)
      let changePct := Rounding.exact.changePct price ref
      if Rested .exact cfg emitted (now / nanosPerSecond) ∧ cfg.thresholdPct ≤ |changePct| then
        some (Signal.texts ⟨if 0 < changePct then .buy else .sell, .momentum, ref, changePct⟩)
      else none := by
  have hrested := rested_iff hcooldown pre now (List.pairwise_append.mp hsorted).1 hsame
  rw [cpp_answer hwindow hthreshold pre now price hsorted hprice, signalFrom]
  dsimp only
  obtain ⟨change, hchange⟩ : ∃ change, change =
    Rounding.exact.changePct price (refAt cfg pre (now, price)) := ⟨_, rfl⟩
  have hcond : (!SignalGenerator.inCooldown .exact (cppConfig cfg)
        (SignalGenerator.history .exact (cppConfig cfg) pre).1.lastSignal now &&
      decide ((cppConfig cfg).thresholdPct ≤ |change|)) = true ↔
      Rested .exact cfg emitted (now / nanosPerSecond) ∧ cfg.thresholdPct ≤ |change| := by
    rw [Bool.and_eq_true, Bool.not_eq_true', decide_eq_true_eq, ← hrested]
    rfl
  rw [← hchange]
  by_cases hmove : Rested .exact cfg emitted (now / nanosPerSecond) ∧ cfg.thresholdPct ≤ |change|
  · rw [if_pos (hcond.mpr hmove), if_pos hmove, Signal.texts]
    dsimp only
    split <;> rfl
  · rw [if_neg (fun h => hmove (hcond.mp h)), if_neg hmove]

/-- The answer of the Python trigger at the same tick. -/
lemma py_answer_eq (hema : cfg.useEma = false) (pre : List (Nat × ℚ)) (now : Nat) (price : ℚ)
    (emitted : List (ℚ × Signal)) :
    verdict .exact cfg (pre.map seconds) emitted (now / nanosPerSecond) price =
      let ref := refAt cfg pre (now, price)
      let changePct := Rounding.exact.changePct price ref
      if Spans .exact cfg (pre.map seconds) (now / nanosPerSecond) ∧
          Rested .exact cfg emitted (now / nanosPerSecond) ∧ cfg.thresholdPct ≤ |changePct| then
        some ⟨if 0 < changePct then .buy else .sell, .momentum, ref, changePct⟩
      else none := by
  have hcross : crossesAt .exact cfg ((pre.map seconds).map Prod.snd) price = none := by
    rw [crossesAt, hema, if_neg Bool.false_ne_true]
  have href : refAt cfg pre (now, price) = windowPrice .exact cfg
      (pre.map seconds ++ [((now : ℚ) / nanosPerSecond, price)]) (now / nanosPerSecond) := by
    rw [refAt, List.map_append, List.map_singleton, seconds]
  rw [href]
  by_cases hrested : Rested .exact cfg emitted (now / nanosPerSecond)
  · rw [verdict_of_not_crosses hrested hcross]
    simp only [hrested, true_and]
  · rw [verdict_eq_none_of_not_rested hrested]
    simp only [hrested, false_and, and_false, if_false]

/-- The signals of the specification of the Python trigger, as the C++ generator would log them. -/
def loggedEmissions (cfg : TradingConfig) (ticks : List (Nat × ℚ)) : List (ℚ × LeadLag.Signal) :=
  (emissions .exact cfg (ticks.map seconds)).map (fun e => (e.1, e.2.texts))

lemma loggedEmissions_concat (ticks : List (Nat × ℚ)) (e : Nat × ℚ) :
    loggedEmissions cfg (ticks ++ [e]) = loggedEmissions cfg ticks ++
      ((verdict .exact cfg (ticks.map seconds) (emissions .exact cfg (ticks.map seconds))
        (e.1 / nanosPerSecond) e.2).map (fun x => ((e.1 : ℚ) / nanosPerSecond, x.texts))).toList := by
  rw [loggedEmissions, List.map_append, List.map_singleton, emissions_concat, List.map_append,
    ← loggedEmissions]
  cases hverdict : verdict .exact cfg (ticks.map seconds) (emissions .exact cfg (ticks.map seconds)) (seconds e).1
      (seconds e).2 with
  | none =>
    dsimp only [seconds] at hverdict
    rw [hverdict]
    rfl
  | some x =>
    dsimp only [seconds] at hverdict
    rw [hverdict]
    rfl

/-- One more tick keeps two equal logs equal exactly when the C++ generator's signal there, if any, comes
with a tick from before the window. -/
lemma agree_concat_iff (hema : cfg.useEma = false) (hwindow : 0 ≤ cfg.windowSeconds)
    (hthreshold : 0 < cfg.thresholdPct) (hcooldown : cfg.cooldownSeconds ≤ 1000000000)
    (pre : List (Nat × ℚ)) (e : Nat × ℚ) (hsorted : (pre ++ [e]).Pairwise (fun a b => a.1 ≤ b.1))
    (hprice : 0 < e.2) (hagree : loggedEmissions cfg pre = cppSignals cfg pre) :
    loggedEmissions cfg (pre ++ [e]) = cppSignals cfg (pre ++ [e]) ↔
      ((cppAnswer cfg pre e).isSome = true → Spans .exact cfg (pre.map seconds) (e.1 / nanosPerSecond)) := by
  obtain ⟨now, price⟩ := e
  have hsame : (emissions .exact cfg (pre.map seconds)).map Prod.fst = (cppSignals cfg pre).map Prod.fst := by
    rw [← hagree, loggedEmissions, List.map_map]
    rfl
  rw [loggedEmissions_concat, cppSignals_concat, hagree, List.append_cancel_left_eq]
  rw [cpp_answer_eq hwindow hthreshold hcooldown pre now price hsorted hprice hsame, py_answer_eq hema]
  dsimp only
  obtain ⟨change, hchange⟩ : ∃ change, change =
    Rounding.exact.changePct price (refAt cfg pre (now, price)) := ⟨_, rfl⟩
  rw [← hchange]
  by_cases hmove : Rested .exact cfg (emissions .exact cfg (pre.map seconds)) (now / nanosPerSecond) ∧
      cfg.thresholdPct ≤ |change|
  · by_cases hspans : Spans .exact cfg (pre.map seconds) (now / nanosPerSecond)
    · rw [if_pos ⟨hspans, hmove⟩, if_pos hmove]
      simp [hspans]
    · rw [if_neg (fun h => hspans h.1), if_pos hmove]
      simp [hspans]
  · rw [if_neg (fun h => hmove h.2), if_neg hmove]
    simp

/-- In exact arithmetic and without the crossover, the two programs emit the same signals at every point of a
feed (the same directions, reference prices and changes at the same times) exactly when each signal of the C++
generator comes at a tick that has an earlier one between the oldest kept and the start of the window: the
generator also trades on a feed that has just begun, or come back, and on less than a window of prices. -/
theorem generators_agree_iff (cfg : TradingConfig) (hema : cfg.useEma = false)
    (hwindow : 0 ≤ cfg.windowSeconds) (hthreshold : 0 < cfg.thresholdPct)
    (hcooldown : cfg.cooldownSeconds ≤ 1000000000) (ticks : List (Nat × ℚ))
    (hsorted : ticks.Pairwise (fun a b => a.1 ≤ b.1)) (hprices : ∀ t ∈ ticks, 0 < t.2) :
    (∀ pre, pre <+: ticks → pySignals cfg pre = .ok (cppSignals cfg pre)) ↔
      ∀ pre e, pre ++ [e] <+: ticks → (cppAnswer cfg pre e).isSome = true →
        Spans .exact cfg (pre.map seconds) (e.1 / nanosPerSecond) := by
  have hpy : ∀ pre, pre <+: ticks →
      (pySignals cfg pre = .ok (cppSignals cfg pre) ↔ loggedEmissions cfg pre = cppSignals cfg pre) := by
    intro pre hpre
    obtain ⟨s, hs, -⟩ := history_follows (Rounding.exact_has _) hwindow
      (fun h => absurd h (by rw [hema]; decide)) (pre.map seconds) (fun t _ => Rounding.exact_has t.1)
      (List.pairwise_map.mpr ((hsorted.sublist hpre.sublist).imp
        (fun {a b} h => (seconds_le_iff a b).mpr h)))
      (List.forall_mem_map.mpr (fun t ht => hprices t (hpre.subset ht)))
    rw [pySignals, hs]
    exact ⟨fun h => Except.ok.inj h, fun h => congrArg Except.ok h⟩
  have hstep : ∀ pre e, pre ++ [e] <+: ticks → loggedEmissions cfg pre = cppSignals cfg pre → _ :=
    fun pre e hpre => agree_concat_iff hema hwindow hthreshold hcooldown pre e
      (hsorted.sublist hpre.sublist) (hprices e (hpre.subset (by simp)))
  constructor
  · intro hagree pre e hpre
    have hbefore : pre <+: ticks := (List.prefix_append pre [e]).trans hpre
    exact (hstep pre e hpre ((hpy pre hbefore).mp (hagree pre hbefore))).mp
      ((hpy _ hpre).mp (hagree _ hpre))
  · intro hspans pre hpre
    rw [hpy pre hpre]
    induction pre using List.reverseRecOn with
    | nil => rfl
    | append_singleton pre e ih =>
      exact (hstep pre e hpre (ih ((List.prefix_append pre [e]).trans hpre))).mpr (hspans pre e hpre)

/-- One percent up within a second of the first tick. -/
def youngTicks : List (Nat × ℚ) := [(0, 100), (1000000000, 101)]

theorem generators_agree_iff_youngTicks :
    ¬∀ pre, pre <+: youngTicks →
      pySignals { useEma := false } pre = .ok (cppSignals { useEma := false } pre) := by
  rw [generators_agree_iff { useEma := false } rfl (by norm_num) (by decide +kernel) (by norm_num) youngTicks
    (by decide) (by decide +kernel)]
  intro h
  have hspans := h [(0, 100)] (1000000000, 101) (by decide) (by decide +kernel)
  revert hspans
  decide +kernel

end Trader

end LatencyArb
