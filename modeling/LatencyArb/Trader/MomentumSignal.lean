import LatencyArb.Library.Rounding
import LatencyArb.Library.TimeWindow

/-!
# The trigger of the Python trader (`MomentumSignal`, `src/lead_lag_trader.py`)

`time.monotonic()` counts seconds; the ticks of a run are the times and prices with which `update` is
called. Numbers are floats, in an arithmetic `A` that rounds. `verdict` says what a call is to answer, from
all the ticks and signals before it: it has no buffer and no averages of its own, and `history_eq` is what
the buffer and the averages amount to.
-/

namespace LatencyArb

namespace Trader

/-- The fields of `TradingConfig` that the trigger, the executor and the feed read. -/
structure TradingConfig where
  windowSeconds : ℚ := 2
  thresholdPct : ℚ := Rounding.binary64.fl (1 / 20)
  useEma : Bool := true
  emaFast : Int := 3
  emaSlow : Int := 12
  cooldownSeconds : ℚ := 30
  fxcmToken : String := ""
  fxcmSymbol : String := "BTC/USD"
  tradeAmount : ℚ := Rounding.binary64.fl (1 / 1000)
  stopLossPips : Int := 50
  takeProfitPips : Int := 100
  maxOpenPositions : Int := 1
  dryRun : Bool := true
  reconnectDelay : ℚ := 2
  maxReconnectDelay : ℚ := 60

inductive Direction where
  | buy
  | sell
  deriving DecidableEq, Repr

inductive Reason where
  | momentum
  | emaCross
  deriving DecidableEq, Repr

structure Signal where
  direction : Direction
  reason : Reason
  refPrice : ℚ
  changePct : ℚ
  deriving DecidableEq, Repr

/-- The exceptions that can leave `update`. -/
inductive Raised where
  | zeroDivision
  deriving DecidableEq, Repr

abbrev PriceTick := ℚ × ℚ

structure MomentumSignal where
  buf : List PriceTick := []
  lastTradeTs : ℚ := -1000000000
  emaFast : Option ℚ := none
  emaSlow : Option ℚ := none
  prevFast : Option ℚ := none
  prevSlow : Option ℚ := none

variable (A : Rounding) (cfg : TradingConfig)

def keepFor : ℚ := A.add (max cfg.windowSeconds 5) 1

def outdated (now : ℚ) (e : PriceTick) : Bool := decide (e.1 < A.sub now (keepFor A cfg))

def prune (now : ℚ) (buf : List PriceTick) : List PriceTick := buf.dropWhile (outdated A cfg now)

def priceAt (buf : List PriceTick) (cutoff : ℚ) : ℚ :=
  match buf.find? (fun e => decide (cutoff ≤ e.1)) with
  | some e => e.2
  | none => (buf.head?.map Prod.snd).getD 0

/-- The value `_ema` returns where `period + 1.0` is not zero. -/
def emaNext (value : ℚ) (prev : Option ℚ) (period : Int) : ℚ :=
  let k := A.div 2 (A.add (A.fl period) 1)
  match prev with
  | none => value
  | some p => A.add (A.mul value k) (A.mul p (A.sub 1 k))

def ema (value : ℚ) (prev : Option ℚ) (period : Int) : Except Raised ℚ :=
  if A.add (A.fl period) 1 = 0 then .error .zeroDivision else .ok (emaNext A value prev period)

def crossing (prevFast prevSlow fast slow : ℚ) : Option Direction :=
  if slow < fast ∧ prevFast ≤ prevSlow then some .buy
  else if fast < slow ∧ prevSlow ≤ prevFast then some .sell
  else none

namespace MomentumSignal

variable (s : MomentumSignal)

def inCooldown (now : ℚ) : Bool := decide (A.sub now s.lastTradeTs < cfg.cooldownSeconds)

def emit (now : ℚ) (direction : Direction) (reason : Reason) (ref pct : ℚ) :
    Option Signal × MomentumSignal :=
  (some ⟨direction, reason, ref, pct⟩, { s with lastTradeTs := now })

/-- The averages after a price, the ones before it kept as `_prev_fast` and `_prev_slow`. -/
def shiftEmas (price : ℚ) : Except Raised MomentumSignal :=
  if cfg.useEma then do
    let fast ← ema A price s.emaFast cfg.emaFast
    let slow ← ema A price s.emaSlow cfg.emaSlow
    pure { s with prevFast := s.emaFast, prevSlow := s.emaSlow, emaFast := some fast, emaSlow := some slow }
  else pure s

/-- The direction of the crossover trigger. -/
def crossed (now : ℚ) : Option Direction :=
  if cfg.useEma then
    match s.prevFast, s.prevSlow, s.emaFast, s.emaSlow with
    | some prevFast, some prevSlow, some fast, some slow =>
      if s.inCooldown A cfg now then none else crossing prevFast prevSlow fast slow
    | _, _, _, _ => none
  else none

/-- The percentage-change trigger. -/
def momentum (now price : ℚ) : Except Raised (Option Signal × MomentumSignal) :=
  let cutoff := A.sub now cfg.windowSeconds
  if 2 ≤ s.buf.length ∧ (s.buf.head?.any fun e => decide (e.1 ≤ cutoff)) = true then
    let ref := priceAt s.buf cutoff
    if ref = 0 then .error .zeroDivision
    else
      let changePct := A.changePct price ref
      if cfg.thresholdPct ≤ |changePct| ∧ s.inCooldown A cfg now = false then
        .ok (s.emit now (if 0 < changePct then .buy else .sell) .momentum ref changePct)
      else .ok (none, s)
  else .ok (none, s)

def update (now price : ℚ) : Except Raised (Option Signal × MomentumSignal) := do
  let s := { s with buf := prune A cfg now (s.buf ++ [(now, price)]) }
  let s ← s.shiftEmas A cfg price
  match s.crossed A cfg now with
  | some direction => pure (s.emit now direction .emaCross price price)
  | none => s.momentum A cfg now price

end MomentumSignal

/-- The trigger after the ticks, and the signals it has emitted with their times. -/
def history (ticks : List PriceTick) : Except Raised (MomentumSignal × List (ℚ × Signal)) :=
  ticks.foldlM (fun s e => do
    let r ← s.1.update A cfg e.1 e.2
    pure (r.2, s.2 ++ (r.1.map (e.1, ·)).toList)) ({}, [])

/-! ## What a call is to answer -/

/-- The average after the prices. -/
def emaOver (period : Int) (prices : List ℚ) : Option ℚ :=
  prices.foldl (fun prev value => some (emaNext A value prev period)) none

/-- Every signal so far is at least a cooldown old. The trigger starts as if it had emitted one long
before the clock's epoch. -/
def Rested (emitted : List (ℚ × Signal)) (now : ℚ) : Prop :=
  cfg.cooldownSeconds ≤ A.sub now (-1000000000) ∧ ∀ e ∈ emitted, cfg.cooldownSeconds ≤ A.sub now e.1

instance (emitted : List (ℚ × Signal)) (now : ℚ) : Decidable (Rested A cfg emitted now) :=
  inferInstanceAs (Decidable (_ ∧ _))

/-- The direction in which the averages cross at a price, if they are used. -/
def crossesAt (prices : List ℚ) (price : ℚ) : Option Direction :=
  if cfg.useEma then
    match emaOver A cfg.emaFast prices, emaOver A cfg.emaSlow prices with
    | some prevFast, some prevSlow =>
      crossing prevFast prevSlow (emaNext A price (some prevFast) cfg.emaFast)
        (emaNext A price (some prevSlow) cfg.emaSlow)
    | _, _ => none
  else none

/-- Some tick lies between the oldest one kept and the start of the window. -/
def Spans (ticks : List PriceTick) (now : ℚ) : Prop :=
  ∃ e ∈ ticks, A.sub now (keepFor A cfg) ≤ e.1 ∧ e.1 ≤ A.sub now cfg.windowSeconds

instance (ticks : List PriceTick) (now : ℚ) : Decidable (Spans A cfg ticks now) :=
  inferInstanceAs (Decidable (∃ e ∈ ticks, _))

/-- The price at the start of the window, in all the ticks. -/
def windowPrice (ticks : List PriceTick) (now : ℚ) : ℚ := priceAt ticks (A.sub now cfg.windowSeconds)

def verdict (ticks : List PriceTick) (emitted : List (ℚ × Signal)) (now price : ℚ) : Option Signal :=
  if Rested A cfg emitted now then
    match crossesAt A cfg (ticks.map Prod.snd) price with
    | some direction => some ⟨direction, .emaCross, price, price⟩
    | none =>
      let ref := windowPrice A cfg (ticks ++ [(now, price)]) now
      let changePct := A.changePct price ref
      if Spans A cfg ticks now ∧ cfg.thresholdPct ≤ |changePct| then
        some ⟨if 0 < changePct then .buy else .sell, .momentum, ref, changePct⟩
      else none
  else none

/-- The signals of a run, told from its ticks alone. -/
def emissions (ticks : List PriceTick) : List (ℚ × Signal) :=
  (ticks.foldl (fun s e => (s.1 ++ [e], s.2 ++ ((verdict A cfg s.1 s.2 e.1 e.2).map (e.1, ·)).toList))
    (([] : List PriceTick), [])).2

variable {A cfg}

lemma outdated_mono {now now' : ℚ} (h : now ≤ now') (e : PriceTick) (he : outdated A cfg now e = true) :
    outdated A cfg now' e = true := by
  unfold outdated at he ⊢
  rw [decide_eq_true_eq] at he ⊢
  exact he.trans_le (Rounding.sub_mono h le_rfl)

lemma keepFor_nonneg : 0 ≤ keepFor A cfg := by
  apply Rounding.fl_nonneg
  have hfive : 5 ≤ max cfg.windowSeconds 5 := le_max_right _ _
  linarith

lemma window_le_keepFor (hdouble : A.Has cfg.windowSeconds) : cfg.windowSeconds ≤ keepFor A cfg := by
  have hround : A.fl cfg.windowSeconds ≤ keepFor A cfg := by
    apply A.mono
    have hwindow : cfg.windowSeconds ≤ max cfg.windowSeconds 5 := le_max_left _ _
    linarith
  exact hdouble ▸ hround

lemma not_outdated_now {now : ℚ} (htime : A.Has now) (price : ℚ) : outdated A cfg now (now, price) = false := by
  unfold outdated
  rw [decide_eq_false_iff_not, not_lt]
  exact Rounding.sub_le htime keepFor_nonneg

lemma outdated_eq_false_iff (now : ℚ) (e : PriceTick) :
    outdated A cfg now e = false ↔ A.sub now (keepFor A cfg) ≤ e.1 := by
  rw [outdated, decide_eq_false_iff_not, not_lt]

lemma emaOver_concat (period : Int) (prices : List ℚ) (price : ℚ) :
    emaOver A period (prices ++ [price]) = some (emaNext A price (emaOver A period prices) period) := by
  rw [emaOver, List.foldl_append, List.foldl_cons, List.foldl_nil, ← emaOver]

lemma emissions_concat (ticks : List PriceTick) (e : PriceTick) :
    emissions A cfg (ticks ++ [e]) = emissions A cfg ticks ++
      ((verdict A cfg ticks (emissions A cfg ticks) e.1 e.2).map (e.1, ·)).toList := by
  have hticks : ∀ (l : List PriceTick), (l.foldl (fun s e => (s.1 ++ [e],
      s.2 ++ ((verdict A cfg s.1 s.2 e.1 e.2).map (e.1, ·)).toList)) (([] : List PriceTick), [])).1 = l := by
    intro l
    induction l using List.reverseRecOn with
    | nil => rfl
    | append_singleton l b ih => rw [List.foldl_append, List.foldl_cons, List.foldl_nil, ih]
  rw [emissions, List.foldl_append, List.foldl_cons, List.foldl_nil, hticks, ← emissions]

lemma emissions_sublist (ticks : List PriceTick) :
    ((emissions A cfg ticks).map Prod.fst).Sublist (ticks.map Prod.fst) := by
  induction ticks using List.reverseRecOn with
  | nil => exact List.Sublist.refl []
  | append_singleton ticks e ih =>
    rw [emissions_concat, List.map_append, List.map_append]
    apply ih.append
    cases verdict A cfg ticks (emissions A cfg ticks) e.1 e.2 with
    | none => exact List.nil_sublist _
    | some x => exact List.Sublist.refl _

/-! ## What a call does -/

section Update

variable {s s₁ : MomentumSignal} {now price : ℚ}

lemma update_of_raised {raised : Raised}
    (hshift : { s with buf := prune A cfg now (s.buf ++ [(now, price)]) }.shiftEmas A cfg price = .error raised) :
    s.update A cfg now price = .error raised := by
  rw [MomentumSignal.update, hshift]
  rfl

lemma update_of_crossed {direction : Direction}
    (hshift : { s with buf := prune A cfg now (s.buf ++ [(now, price)]) }.shiftEmas A cfg price = .ok s₁)
    (hcross : s₁.crossed A cfg now = some direction) :
    s.update A cfg now price = .ok (s₁.emit now direction .emaCross price price) := by
  rw [MomentumSignal.update, hshift]
  dsimp only [bind, Except.bind]
  rw [hcross]
  rfl

lemma update_of_not_crossed
    (hshift : { s with buf := prune A cfg now (s.buf ++ [(now, price)]) }.shiftEmas A cfg price = .ok s₁)
    (hcross : s₁.crossed A cfg now = none) : s.update A cfg now price = s₁.momentum A cfg now price := by
  rw [MomentumSignal.update, hshift]
  dsimp only [bind, Except.bind]
  rw [hcross]

end Update

/-! ## The buffer -/

section Buffer

variable {ticks : List PriceTick} {now price : ℚ}

lemma prune_concat (htime : A.Has now) :
    prune A cfg now (ticks ++ [(now, price)]) = prune A cfg now ticks ++ [(now, price)] :=
  dropWhile_concat_of_fresh (not_outdated_now htime price)

/-- The size and age tests of the buffer, told from all the ticks. -/
lemma spans_iff (htime : A.Has now) (hsorted : ticks.Pairwise (fun a b => a.1 ≤ b.1)) :
    (2 ≤ (prune A cfg now (ticks ++ [(now, price)])).length ∧
      ((prune A cfg now (ticks ++ [(now, price)])).head?.any
        fun e => decide (e.1 ≤ A.sub now cfg.windowSeconds)) = true) ↔ Spans A cfg ticks now := by
  rw [prune_concat htime]
  have hkept : (prune A cfg now ticks).Pairwise (fun a b => a.1 ≤ b.1) :=
    hsorted.sublist (List.dropWhile_sublist _)
  constructor
  · rintro ⟨hlength, hhead⟩
    cases hprune : prune A cfg now ticks with
    | nil =>
      rw [hprune] at hlength
      simp at hlength
    | cons front rest =>
      rw [hprune] at hhead
      have hold : front.1 ≤ A.sub now cfg.windowSeconds := by simpa using hhead
      have hmem : front ∈ prune A cfg now ticks := by simp [hprune]
      have hfresh : outdated A cfg now front = false := by
        have hnot := List.head?_dropWhile_not (outdated A cfg now) ticks
        rw [prune] at hprune
        simpa only [hprune, List.head?_cons] using hnot
      exact ⟨front, (List.dropWhile_sublist _).subset hmem, (outdated_eq_false_iff now front).mp hfresh, hold⟩
  · rintro ⟨e, he, hkeep, hold⟩
    have hmem : e ∈ prune A cfg now ticks :=
      mem_dropWhile_of_fresh he ((outdated_eq_false_iff now e).mpr hkeep)
    cases hprune : prune A cfg now ticks with
    | nil =>
      rw [hprune] at hmem
      cases hmem
    | cons front rest =>
      rw [hprune] at hmem hkept
      have hfront : front.1 ≤ e.1 := by
        obtain rfl | hrest := List.mem_cons.mp hmem
        · exact le_rfl
        · exact (List.pairwise_cons.mp hkept).1 e hrest
      refine ⟨by simp, ?_⟩
      have hle : front.1 ≤ A.sub now cfg.windowSeconds := hfront.trans hold
      simpa using hle

/-- The reference price is the same in the buffer as in all the ticks, and it is the price of one. -/
lemma priceAt_prune (hdouble : A.Has cfg.windowSeconds) (hwindow : 0 ≤ cfg.windowSeconds) (htime : A.Has now)
    (ticks : List PriceTick) (price : ℚ) :
    priceAt (prune A cfg now (ticks ++ [(now, price)])) (A.sub now cfg.windowSeconds) =
        windowPrice A cfg (ticks ++ [(now, price)]) now ∧
      ∃ e ∈ ticks ++ [(now, price)], windowPrice A cfg (ticks ++ [(now, price)]) now = e.2 := by
  have hfind : (prune A cfg now (ticks ++ [(now, price)])).find?
        (fun e => decide (A.sub now cfg.windowSeconds ≤ e.1)) =
      (ticks ++ [(now, price)]).find? (fun e => decide (A.sub now cfg.windowSeconds ≤ e.1)) := by
    apply find?_dropWhile_of_expired
    intro e _ he
    unfold outdated at he
    rw [decide_eq_true_eq] at he
    rw [decide_eq_false_iff_not, not_le]
    exact he.trans_le (Rounding.sub_mono le_rfl (window_le_keepFor hdouble))
  have hsome : ((ticks ++ [(now, price)]).find?
      (fun e => decide (A.sub now cfg.windowSeconds ≤ e.1))).isSome = true := by
    rw [List.find?_isSome]
    exact ⟨(now, price), by simp, decide_eq_true (Rounding.sub_le htime hwindow)⟩
  obtain ⟨ref, href⟩ := Option.isSome_iff_exists.mp hsome
  refine ⟨?_, ref, List.mem_of_find?_eq_some href, ?_⟩
  · rw [windowPrice, priceAt, priceAt, hfind, href]
  · rw [windowPrice, priceAt, href]

end Buffer

/-! ## A run -/

/-- The state of the trigger after the ticks. -/
structure Follows (A : Rounding) (cfg : TradingConfig) (ticks : List PriceTick) (s : MomentumSignal) : Prop where
  buf : ∀ now, (∀ t ∈ ticks, t.1 ≤ now) → ∀ later,
    prune A cfg now (s.buf ++ later) = prune A cfg now (ticks ++ later)
  lastTradeTs : s.lastTradeTs = (emissions A cfg ticks).getLast?.elim (-1000000000) Prod.fst
  emaFast : cfg.useEma = true → s.emaFast = emaOver A cfg.emaFast (ticks.map Prod.snd)
  emaSlow : cfg.useEma = true → s.emaSlow = emaOver A cfg.emaSlow (ticks.map Prod.snd)

lemma verdict_eq_none_of_not_rested {ticks : List PriceTick} {emitted : List (ℚ × Signal)} {now price : ℚ}
    (h : ¬Rested A cfg emitted now) : verdict A cfg ticks emitted now price = none := by
  rw [verdict, if_neg h]

lemma verdict_of_crosses {ticks : List PriceTick} {emitted : List (ℚ × Signal)} {now price : ℚ}
    {direction : Direction} (h : Rested A cfg emitted now)
    (hd : crossesAt A cfg (ticks.map Prod.snd) price = some direction) :
    verdict A cfg ticks emitted now price = some ⟨direction, .emaCross, price, price⟩ := by
  rw [verdict, if_pos h, hd]

lemma verdict_of_not_crosses {ticks : List PriceTick} {emitted : List (ℚ × Signal)} {now price : ℚ}
    (h : Rested A cfg emitted now) (hd : crossesAt A cfg (ticks.map Prod.snd) price = none) :
    verdict A cfg ticks emitted now price =
      let ref := windowPrice A cfg (ticks ++ [(now, price)]) now
      let changePct := A.changePct price ref
      if Spans A cfg ticks now ∧ cfg.thresholdPct ≤ |changePct| then
        some ⟨if 0 < changePct then .buy else .sell, .momentum, ref, changePct⟩
      else none := by
  rw [verdict, if_pos h, hd]

/-- Every signal was emitted at a tick, when the ones before it were a cooldown old. -/
lemma emissions_start {ticks : List PriceTick} {e : ℚ × Signal} (he : e ∈ emissions A cfg ticks) :
    cfg.cooldownSeconds ≤ A.sub e.1 (-1000000000) := by
  induction ticks using List.reverseRecOn with
  | nil => cases he
  | append_singleton ticks b ih =>
    rw [emissions_concat] at he
    obtain he | he := List.mem_append.mp he
    · exact ih he
    · obtain ⟨x, hx, rfl⟩ : ∃ x, verdict A cfg ticks (emissions A cfg ticks) b.1 b.2 = some x ∧
          (b.1, x) = e := by
        simpa using he
      by_cases hrested : Rested A cfg (emissions A cfg ticks) b.1
      · exact hrested.1
      · rw [verdict_eq_none_of_not_rested hrested] at hx
        cases hx

/-- The cooldown test looks at the last signal only. -/
lemma inCooldown_eq_false_iff {ticks : List PriceTick} {s : MomentumSignal} {now : ℚ}
    (hlast : s.lastTradeTs = (emissions A cfg ticks).getLast?.elim (-1000000000) Prod.fst)
    (hsorted : ticks.Pairwise (fun a b => a.1 ≤ b.1)) (hnow : ∀ t ∈ ticks, t.1 ≤ now) :
    s.inCooldown A cfg now = false ↔ Rested A cfg (emissions A cfg ticks) now := by
  have htimes : ((emissions A cfg ticks).map Prod.fst).Pairwise (· ≤ ·) :=
    (List.pairwise_map.mpr hsorted).sublist (emissions_sublist ticks)
  have hpast : ∀ e ∈ emissions A cfg ticks, e.1 ≤ now := by
    intro e he
    obtain ⟨t, ht, heq⟩ := List.mem_map.mp ((emissions_sublist ticks).subset (List.mem_map_of_mem he))
    rw [← heq]
    exact hnow t ht
  rw [MomentumSignal.inCooldown, decide_eq_false_iff_not, not_lt, hlast, Rested]
  cases hl : (emissions A cfg ticks).getLast? with
  | none =>
    rw [List.getLast?_eq_none_iff] at hl
    rw [hl, Option.elim_none]
    simp
  | some last =>
    have hmem : last ∈ emissions A cfg ticks := List.mem_of_getLast? hl
    rw [Option.elim_some]
    constructor
    · intro h
      refine ⟨(emissions_start hmem).trans (Rounding.sub_mono (hpast last hmem) le_rfl), ?_⟩
      intro e he
      obtain ⟨earlier, hearlier⟩ : ∃ earlier, emissions A cfg ticks = earlier ++ [last] :=
        ⟨_, (List.dropLast_append_getLast? last hl).symm⟩
      have hle : e.1 ≤ last.1 := by
        rw [hearlier, List.map_append] at htimes
        rw [hearlier] at he
        obtain he | he := List.mem_append.mp he
        · exact (List.pairwise_append.mp htimes).2.2 e.1 (List.mem_map_of_mem he) last.1 (by simp)
        · rw [List.mem_singleton.mp he]
      exact h.trans (Rounding.sub_mono le_rfl hle)
    · intro h
      exact h.2 last hmem

/-- The periods with which the averages are defined. -/
def Averages (A : Rounding) (cfg : TradingConfig) : Prop :=
  cfg.useEma = true → A.add (A.fl cfg.emaFast) 1 ≠ 0 ∧ A.add (A.fl cfg.emaSlow) 1 ≠ 0

section Call

variable {ticks : List PriceTick} {now price : ℚ} {s : MomentumSignal}

/-- The state after the pruning and the averages of a call, and what the crossover says there. -/
lemma shiftEmas_spec (h : Follows A cfg ticks s) (hperiods : Averages A cfg) (buf : List PriceTick) :
    ∃ s', { s with buf := buf }.shiftEmas A cfg price = .ok s' ∧ s'.buf = buf ∧
      s'.lastTradeTs = s.lastTradeTs ∧
      (cfg.useEma = true → s'.emaFast = emaOver A cfg.emaFast (ticks.map Prod.snd ++ [price]) ∧
        s'.emaSlow = emaOver A cfg.emaSlow (ticks.map Prod.snd ++ [price])) ∧
      s'.crossed A cfg now =
        if s.inCooldown A cfg now then none else crossesAt A cfg (ticks.map Prod.snd) price := by
  by_cases hema : cfg.useEma = true
  · obtain ⟨hfast, hslow⟩ := hperiods hema
    refine ⟨{ s with
      buf := buf
      prevFast := s.emaFast
      prevSlow := s.emaSlow
      emaFast := some (emaNext A price s.emaFast cfg.emaFast)
      emaSlow := some (emaNext A price s.emaSlow cfg.emaSlow) }, ?_, rfl, rfl, fun _ => ⟨?_, ?_⟩, ?_⟩
    · rw [MomentumSignal.shiftEmas, if_pos hema]
      dsimp only
      rw [ema, if_neg hfast, ema, if_neg hslow]
      rfl
    · rw [emaOver_concat, h.emaFast hema]
    · rw [emaOver_concat, h.emaSlow hema]
    · rw [MomentumSignal.crossed, if_pos hema, crossesAt, if_pos hema]
      dsimp only
      rw [h.emaFast hema, h.emaSlow hema]
      cases emaOver A cfg.emaFast (ticks.map Prod.snd) <;> cases emaOver A cfg.emaSlow (ticks.map Prod.snd)
      · simp
      · simp
      · simp
      · rfl
  · refine ⟨{ s with buf := buf }, if_neg hema, rfl, rfl, fun h => absurd h hema, ?_⟩
    rw [MomentumSignal.crossed, if_neg hema, crossesAt, if_neg hema, ite_self]

/-- The percentage trigger on the buffer is the one on all the ticks. -/
lemma momentum_spec (hdouble : A.Has cfg.windowSeconds) (hwindow : 0 ≤ cfg.windowSeconds) (htime : A.Has now)
    (hsorted : ticks.Pairwise (fun a b => a.1 ≤ b.1))
    (hprices : ∀ e ∈ ticks ++ [(now, price)], 0 < e.2)
    (hbuf : s.buf = prune A cfg now (ticks ++ [(now, price)])) :
    s.momentum A cfg now price =
      let ref := windowPrice A cfg (ticks ++ [(now, price)]) now
      let changePct := A.changePct price ref
      if Spans A cfg ticks now ∧ cfg.thresholdPct ≤ |changePct| ∧ s.inCooldown A cfg now = false then
        .ok (s.emit now (if 0 < changePct then .buy else .sell) .momentum ref changePct)
      else .ok (none, s) := by
  obtain ⟨href, e, he, hprice⟩ := priceAt_prune hdouble hwindow htime ticks price
  have hpos : windowPrice A cfg (ticks ++ [(now, price)]) now ≠ 0 := by
    rw [hprice]
    exact (hprices e he).ne'
  rw [MomentumSignal.momentum]
  dsimp only
  rw [hbuf, href, if_neg hpos]
  by_cases hspans : Spans A cfg ticks now
  · rw [if_pos ((spans_iff htime hsorted).mpr hspans)]
    simp only [hspans, true_and]
  · rw [if_neg (fun h => hspans ((spans_iff htime hsorted).mp h)), if_neg (fun h => hspans h.1)]

end Call

/-- What a call has to leave for the state to follow. -/
lemma Follows.concat {ticks : List PriceTick} {e : PriceTick} {s s' : MomentumSignal}
    (h : Follows A cfg ticks s)
    (hbuf : s'.buf = prune A cfg e.1 (ticks ++ [e]))
    (hlast : s'.lastTradeTs =
      if (verdict A cfg ticks (emissions A cfg ticks) e.1 e.2).isSome then e.1 else s.lastTradeTs)
    (hemas : cfg.useEma = true → s'.emaFast = emaOver A cfg.emaFast (ticks.map Prod.snd ++ [e.2]) ∧
      s'.emaSlow = emaOver A cfg.emaSlow (ticks.map Prod.snd ++ [e.2])) :
    Follows A cfg (ticks ++ [e]) s' where
  buf := by
    intro now hnow later
    have hle : e.1 ≤ now := hnow e (by simp)
    rw [hbuf]
    exact dropWhile_dropWhile_append (fun t _ => outdated_mono hle t) later
  lastTradeTs := by
    rw [hlast, emissions_concat]
    cases verdict A cfg ticks (emissions A cfg ticks) e.1 e.2 with
    | none => simpa using h.lastTradeTs
    | some x => simp
  emaFast hema := by
    rw [List.map_append]
    exact (hemas hema).1
  emaSlow hema := by
    rw [List.map_append]
    exact (hemas hema).2

/-- One call of `update` in a run: the answer is the verdict, and the state follows. -/
lemma update_follows (hdouble : A.Has cfg.windowSeconds) (hwindow : 0 ≤ cfg.windowSeconds)
    (hperiods : Averages A cfg) {ticks : List PriceTick} {e : PriceTick} {s : MomentumSignal}
    (h : Follows A cfg ticks s) (htime : A.Has e.1)
    (hsorted : (ticks ++ [e]).Pairwise (fun a b => a.1 ≤ b.1)) (hprices : ∀ t ∈ ticks ++ [e], 0 < t.2) :
    ∃ s', s.update A cfg e.1 e.2 = .ok (verdict A cfg ticks (emissions A cfg ticks) e.1 e.2, s') ∧
      Follows A cfg (ticks ++ [e]) s' := by
  obtain ⟨now, price⟩ := e
  obtain ⟨hticks, -, hlast⟩ := List.pairwise_append.mp hsorted
  have hnow : ∀ t ∈ ticks, t.1 ≤ now := fun t ht => hlast t ht (now, price) (by simp)
  have hcool := inCooldown_eq_false_iff h.lastTradeTs hticks hnow
  obtain ⟨s₁, hshift, hbuf, hts, hemas, hcross⟩ := shiftEmas_spec h hperiods
    (prune A cfg now (s.buf ++ [(now, price)]))
  rw [h.buf now hnow] at hbuf
  have hcool₁ : s₁.inCooldown A cfg now = s.inCooldown A cfg now := by
    rw [MomentumSignal.inCooldown, MomentumSignal.inCooldown, hts]
  by_cases hrested : Rested A cfg (emissions A cfg ticks) now
  · have hfree : s.inCooldown A cfg now = false := hcool.mpr hrested
    rw [hfree, if_neg Bool.false_ne_true] at hcross
    cases hd : crossesAt A cfg (ticks.map Prod.snd) price with
    | some direction =>
      have hverdict := verdict_of_crosses hrested hd
      rw [update_of_crossed hshift (hcross.trans hd)]
      refine ⟨{ s₁ with lastTradeTs := now }, by rw [hverdict]; rfl, h.concat hbuf ?_ hemas⟩
      rw [hverdict]
      rfl
    | none =>
      have hverdict := verdict_of_not_crosses hrested hd
      rw [update_of_not_crossed hshift (hcross.trans hd),
        momentum_spec hdouble hwindow htime hticks hprices hbuf, hcool₁, hfree]
      dsimp only at hverdict ⊢
      by_cases hmove : Spans A cfg ticks now ∧
          cfg.thresholdPct ≤ |A.changePct price (windowPrice A cfg (ticks ++ [(now, price)]) now)|
      · rw [if_pos hmove] at hverdict
        rw [if_pos ⟨hmove.1, hmove.2, rfl⟩, hverdict]
        refine ⟨{ s₁ with lastTradeTs := now }, rfl, h.concat hbuf ?_ hemas⟩
        rw [hverdict]
        rfl
      · rw [if_neg hmove] at hverdict
        rw [if_neg (fun hall => hmove ⟨hall.1, hall.2.1⟩), hverdict]
        refine ⟨s₁, rfl, h.concat hbuf ?_ hemas⟩
        rw [hverdict, hts]
        rfl
  · have hheld : s.inCooldown A cfg now = true := by
      rw [← Bool.not_eq_false]
      exact fun hfree => hrested (hcool.mp hfree)
    rw [hheld, if_pos rfl] at hcross
    rw [update_of_not_crossed hshift hcross,
      momentum_spec hdouble hwindow htime hticks hprices hbuf, hcool₁, hheld,
      verdict_eq_none_of_not_rested hrested]
    dsimp only
    rw [if_neg (fun hall => absurd hall.2.2 (by decide))]
    refine ⟨s₁, rfl, h.concat hbuf ?_ hemas⟩
    rw [verdict_eq_none_of_not_rested hrested, hts]
    rfl

lemma history_concat (ticks : List PriceTick) (e : PriceTick) :
    history A cfg (ticks ++ [e]) = (history A cfg ticks).bind (fun s =>
      (s.1.update A cfg e.1 e.2).bind (fun r => .ok (r.2, s.2 ++ (r.1.map (e.1, ·)).toList))) := by
  rw [history, List.foldlM_append, ← history]
  congr 1
  funext s
  rw [List.foldlM_cons]
  simp only [List.foldlM_nil, bind_pure]
  rfl

lemma history_follows (hdouble : A.Has cfg.windowSeconds) (hwindow : 0 ≤ cfg.windowSeconds)
    (hperiods : Averages A cfg) (ticks : List PriceTick) (htimes : ∀ t ∈ ticks, A.Has t.1)
    (hsorted : ticks.Pairwise (fun a b => a.1 ≤ b.1)) (hprices : ∀ t ∈ ticks, 0 < t.2) :
    ∃ s, history A cfg ticks = .ok (s, emissions A cfg ticks) ∧ Follows A cfg ticks s := by
  induction ticks using List.reverseRecOn with
  | nil => exact ⟨{}, rfl, fun _ _ _ => rfl, rfl, fun _ => rfl, fun _ => rfl⟩
  | append_singleton ticks e ih =>
    obtain ⟨s, hs, hfollows⟩ := ih (fun t ht => htimes t (List.mem_append_left _ ht))
      (List.pairwise_append.mp hsorted).1 (fun t ht => hprices t (List.mem_append_left _ ht))
    obtain ⟨s', hs', hfollows'⟩ :=
      update_follows hdouble hwindow hperiods hfollows (htimes e (by simp)) hsorted hprices
    refine ⟨s', ?_, hfollows'⟩
    rw [history_concat, hs, emissions_concat]
    dsimp only [Except.bind]
    rw [hs']

/-- For every run with positive prices at nondecreasing times, in whatever arithmetic the floats have: no call
raises, and the signals emitted are the ones that the whole history calls for, although the buffer keeps only
its last part. -/
theorem history_eq (A : Rounding) (cfg : TradingConfig) (hdouble : A.Has cfg.windowSeconds)
    (hwindow : 0 ≤ cfg.windowSeconds) (hperiods : Averages A cfg) (ticks : List PriceTick)
    (htimes : ∀ t ∈ ticks, A.Has t.1) (hsorted : ticks.Pairwise (fun a b => a.1 ≤ b.1))
    (hprices : ∀ t ∈ ticks, 0 < t.2) :
    ∃ s, history A cfg ticks = .ok (s, emissions A cfg ticks) := by
  obtain ⟨s, hs, -⟩ := history_follows hdouble hwindow hperiods ticks htimes hsorted hprices
  exact ⟨s, hs⟩

/-- The price 60000.01 twice, and forty seconds later one percent more. -/
def stillPrices : List PriceTick :=
  [(1, Rounding.binary64.fl (6000001 / 100)), (2, Rounding.binary64.fl (6000001 / 100)), (42, 60600)]

/-- In binary64 the averages of a price that stands still can already cross. -/
theorem history_eq_stillPrices :
    (emissions .binary64 {} stillPrices).map (fun e => (e.1, e.2.direction, e.2.reason)) =
        [(2, .sell, .emaCross), (42, .buy, .emaCross)] ∧
      ∃ s, history .binary64 {} stillPrices = .ok (s, emissions .binary64 {} stillPrices) :=
  ⟨by decide +kernel, history_eq .binary64 {} (by decide +kernel) (by norm_num)
    (fun _ => by decide +kernel) stillPrices (by decide +kernel) (by decide +kernel) (by decide +kernel)⟩

end Trader

end LatencyArb
