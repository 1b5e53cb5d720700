import LatencyArb.Backtest.Mirror

/-!
# Replays at another quantity

The capital, the commissions and the loss limit carry the quantity of the orders, but the difference of
the prices of a round trip does not. So a replay at `k` times the quantity follows the replay step by step
until a round trip gains or loses by its prices; from there on they have parted.
-/

namespace LatencyArb

open Books

section Scale

variable (k : ℚ)

def ExecutionParams.scale (params : ExecutionParams) : ExecutionParams :=
  { params with quantity := k * params.quantity }

def Config.scale (cfg : Config) : Config := { cfg with maxDailyLoss := k * cfg.maxDailyLoss }

def Strategy.scale (s : Strategy) : Strategy := { s with dayPnl := k * s.dayPnl }

def ExecutionSimulator.scale (sim : ExecutionSimulator) : ExecutionSimulator :=
  { sim with params := sim.params.scale k }

def Fill.scale (f : Fill) : Fill := { f with commission := k * f.commission }

def Trade.scale (t : Trade) : Trade := { t with pnl := k * t.pnl, equityAfter := k * t.equityAfter }

def OpenPosition.scale (p : OpenPosition) : OpenPosition := { p with comm := k * p.comm }

/-- The amounts of money of a result, at another quantity. -/
def BacktestResult.scale (r : BacktestResult) : BacktestResult :=
  { r with
    initialCapital := k * r.initialCapital
    finalEquity := k * r.finalEquity
    totalPnl := k * r.totalPnl
    grossProfit := k * r.grossProfit
    grossLoss := k * r.grossLoss
    maxDrawdown := k * r.maxDrawdown
    trades := r.trades.map (Trade.scale k) }

def Replay.scale (s : Replay) : Replay :=
  { s with
    strategy := s.strategy.scale k
    sim := s.sim.scale k
    equity := k * s.equity
    peak := k * s.peak
    grossP := k * s.grossP
    grossL := k * s.grossL
    held := s.held.map (OpenPosition.scale k)
    out := s.out.scale k }

end Scale

variable {k : ℚ}

/-! ## The strategy and the simulator -/

/-- The loss limit is reached at the same time. -/
lemma Strategy.canTradeNow_scale (hk : 0 < k) (cfg : Config) (s : Strategy) (nowMs : Int) :
    (s.scale k).canTradeNow (cfg.scale k) nowMs = s.canTradeNow cfg nowMs := by
  have hlimit : k * s.dayPnl ≤ -(k * cfg.maxDailyLoss) ↔ s.dayPnl ≤ -cfg.maxDailyLoss := by
    rw [← mul_neg, mul_le_mul_iff_right₀ hk]
  unfold canTradeNow
  exact if_congr Iff.rfl rfl (if_congr hlimit rfl rfl)

lemma Strategy.maybeEmit_scale (hk : 0 < k) (cfg : Config) (s : Strategy) (d : Decision) (lead : ℚ)
    (q : BrokerQuote) (nowMs : Int) :
    (s.scale k).maybeEmit (cfg.scale k) d lead q nowMs =
      ((s.maybeEmit cfg d lead q nowMs).1, (s.maybeEmit cfg d lead q nowMs).2.scale k) := by
  have hlast : (s.scale k).lastSignalMs = s.lastSignalMs := rfl
  have hinterval : (cfg.scale k).intervalSeconds = cfg.intervalSeconds := rfl
  unfold maybeEmit
  rw [canTradeNow_scale hk, hlast, hinterval]
  split
  · rfl
  split
  · rfl
  split <;> rfl

lemma Strategy.onOrderClosed_scale (s : Strategy) (pnl comm : ℚ) :
    (s.scale k).onOrderClosed (k * pnl) (k * comm) = (s.onOrderClosed pnl comm).scale k := by
  have hday : k * s.dayPnl + (k * pnl - k * comm) = k * (s.dayPnl + (pnl - comm)) := by ring
  unfold onOrderClosed scale
  dsimp only
  rw [hday]

lemma ExecutionSimulator.atFill_scale (sim : ExecutionSimulator) (nowMs : Int) (bid ask : ℚ) :
    (sim.scale k).atFill nowMs bid ask =
      ((sim.atFill nowMs bid ask).1.scale k, (sim.atFill nowMs bid ask).2.map (Fill.scale k)) := by
  have hcommission : (sim.scale k).params.commissionPerLot * (sim.scale k).params.quantity =
      k * (sim.params.commissionPerLot * sim.params.quantity) := by
    simp only [scale, ExecutionParams.scale]
    ring
  have hpending : (sim.scale k).pending = sim.pending := rfl
  unfold atFill
  rw [hcommission, hpending]
  cases sim.pending with
  | none => rfl
  | some order =>
    dsimp only
    have hprice : modelPrice (sim.scale k).params order.side bid ask =
        modelPrice sim.params order.side bid ask := rfl
    have hcap : (sim.scale k).params.spreadCapPts = sim.params.spreadCapPts := rfl
    have hslip : (sim.scale k).params.slippageCapPts = sim.params.slippageCapPts := rfl
    have hpts : (sim.scale k).params.slippagePts = sim.params.slippagePts := rfl
    rw [hprice, hcap, hslip, hpts]
    split
    · rfl
    split
    · simp [Fill.scale, scale]
    split
    · rfl
    split <;> rfl

lemma ExecutionSimulator.submit_scale (sim : ExecutionSimulator) (side : Side) (signalTsMs : Int)
    (signalMid lagBid lagAsk : ℚ) :
    (sim.scale k).submit side signalTsMs signalMid lagBid lagAsk =
      ((sim.submit side signalTsMs signalMid lagBid lagAsk).1.scale k,
        (sim.submit side signalTsMs signalMid lagBid lagAsk).2) := by
  have hpending : (sim.scale k).pending = sim.pending := rfl
  unfold submit
  rw [hpending]
  split
  · rfl
  split
  · rfl
  split <;> rfl

/-! ## The money -/

/-- The two lists of trades differ by more than the factor at some trade. -/
def Parted (k : ℚ) (b b' : Books) : Prop :=
  ∃ (i : Nat) (tr tr' : Trade), b.trades[i]? = some tr ∧ b'.trades[i]? = some tr' ∧ tr'.pnl ≠ k * tr.pnl

/-- What has parted stays so. -/
lemma Parted.grown {b b' c c' : Books} (h : Parted k b b') (hb : Grown b c) (hb' : Grown b' c') :
    Parted k c c' := by
  obtain ⟨i, tr, tr', htr, htr', hne⟩ := h
  obtain ⟨more, hmore⟩ := hb.trades
  obtain ⟨more', hmore'⟩ := hb'.trades
  have hi := (List.getElem?_eq_some_iff.mp htr).1
  have hi' := (List.getElem?_eq_some_iff.mp htr').1
  refine ⟨i, tr, tr', ?_, ?_, hne⟩
  · rw [← hmore, List.getElem?_append_left hi, htr]
  · rw [← hmore', List.getElem?_append_left hi', htr']

namespace Replay

/-- The two functions that close a round trip book its trade in this way. -/
def bookTrade (s : Replay) (tr : Trade) (comm : ℚ) : Replay :=
  ((s.realize tr.pnl).recordTrade tr).orderClosed tr.pnl comm

lemma recordTrade_scale (hk : 0 < k) (s : Replay) (tr : Trade) :
    (s.scale k).recordTrade (tr.scale k) = (s.recordTrade tr).scale k := by
  have hpeak : max (k * s.peak) (k * s.equity) = k * max s.peak s.equity :=
    (mul_max_of_nonneg _ _ hk.le).symm
  have hdd : k * max s.peak s.equity - k * s.equity = k * (max s.peak s.equity - s.equity) := by ring
  have hdeeper : k * s.out.maxDrawdown < k * (max s.peak s.equity - s.equity) ↔
      s.out.maxDrawdown < max s.peak s.equity - s.equity := mul_lt_mul_iff_right₀ hk
  have htop : 0 < k * max s.peak s.equity ↔ 0 < max s.peak s.equity := mul_pos_iff_of_pos_left hk
  have hpct : k * (max s.peak s.equity - s.equity) / (k * max s.peak s.equity) =
      (max s.peak s.equity - s.equity) / max s.peak s.equity := mul_div_mul_left _ _ hk.ne'
  unfold recordTrade
  by_cases hlow : s.out.maxDrawdown < max s.peak s.equity - s.equity
  · simp [scale, BacktestResult.scale, Trade.scale, hpeak, hdd, hdeeper, htop, hpct, hlow]
  · simp [scale, BacktestResult.scale, Trade.scale, hpeak, hdd, hdeeper, hlow]

lemma realize_scale (hk : 0 < k) (s : Replay) (pnl : ℚ) :
    (s.scale k).realize (k * pnl) = (s.realize pnl).scale k := by
  have hwon : 0 ≤ k * pnl ↔ 0 ≤ pnl := mul_nonneg_iff_of_pos_left hk
  unfold realize
  by_cases h : 0 ≤ pnl
  · simp [scale, BacktestResult.scale, hwon, h, mul_add]
  · simp [scale, BacktestResult.scale, hwon, h, mul_add]

lemma orderClosed_scale (s : Replay) (pnl comm : ℚ) :
    (s.scale k).orderClosed (k * pnl) (k * comm) = (s.orderClosed pnl comm).scale k :=
  congrArg (fun strategy => ({ s.scale k with strategy := strategy } : Replay))
    (s.strategy.onOrderClosed_scale pnl comm)

lemma bookTrade_scale (hk : 0 < k) (s : Replay) (tr : Trade) (comm : ℚ) :
    (s.scale k).bookTrade (tr.scale k) (k * comm) = (s.bookTrade tr comm).scale k := by
  have hpnl : (tr.scale k).pnl = k * tr.pnl := rfl
  unfold bookTrade
  rw [hpnl, realize_scale hk, recordTrade_scale hk, orderClosed_scale]

lemma bookTrade_trades (s : Replay) (tr : Trade) (comm : ℚ) : (s.bookTrade tr comm).out.trades =
    s.out.trades ++ [{ tr with equityAfter := s.equity + tr.pnl }] :=
  congrArg Books.trades (realize_books s tr comm)

/-- A trade whose P&L does not carry the factor parts the two replays. -/
lemma bookTrade_parted (s : Replay) {tr tr' : Trade} (comm comm' : ℚ) (hne : tr'.pnl ≠ k * tr.pnl) :
    Parted k (s.bookTrade tr comm).books ((s.scale k).bookTrade tr' comm').books := by
  have htrades : (s.bookTrade tr comm).books.trades =
      s.out.trades ++ [{ tr with equityAfter := s.equity + tr.pnl }] := bookTrade_trades s tr comm
  have htrades' : ((s.scale k).bookTrade tr' comm').books.trades =
      s.out.trades.map (Trade.scale k) ++
        [{ tr' with equityAfter := (s.scale k).equity + tr'.pnl }] :=
    bookTrade_trades (s.scale k) tr' comm'
  refine ⟨s.out.trades.length, { tr with equityAfter := s.equity + tr.pnl },
    { tr' with equityAfter := (s.scale k).equity + tr'.pnl }, ?_, ?_, hne⟩
  · rw [htrades, List.getElem?_concat_length]
  · rw [htrades', ← List.length_map (Trade.scale k), List.getElem?_concat_length]

/-- The replay `s'` at another quantity follows `s` as long as the condition holds, else they have parted. -/
def Follows (k : ℚ) (free : Prop) (s s' : Replay) : Prop :=
  (free ∧ s' = s.scale k) ∨ (¬free ∧ Parted k s.books s'.books)

lemma Follows.of_iff {free free' : Prop} {s s' : Replay} (h : Follows k free s s') (hiff : free ↔ free') :
    Follows k free' s s' := by
  rwa [Follows, hiff] at h

/-- The P&L of a round trip carries the factor exactly when its prices gained nothing, for the commission
does. -/
lemma carries_iff (gain comm : ℚ) : gain - k * comm = k * (gain - comm) ↔ k = 1 ∨ gain = 0 := by
  have hsplit : gain - k * comm = k * (gain - comm) ↔ (k - 1) * gain = 0 := by
    constructor <;> intro h <;> linarith
  rw [hsplit, mul_eq_zero, sub_eq_zero]

lemma bookTrade_follows (hk : 0 < k) (s : Replay) (tr : Trade) (gain comm : ℚ)
    (htr : tr.equityAfter = 0) :
    Follows k (k = 1 ∨ gain = 0) (s.bookTrade { tr with pnl := gain - comm } comm)
      ((s.scale k).bookTrade { tr with pnl := gain - k * comm } (k * comm)) := by
  by_cases hfree : k = 1 ∨ gain = 0
  · have htrade : ({ tr with pnl := gain - k * comm } : Trade) =
        ({ tr with pnl := gain - comm } : Trade).scale k := by
      simp [Trade.scale, (carries_iff gain comm).mpr hfree, htr]
    refine .inl ⟨hfree, ?_⟩
    rw [htrade, bookTrade_scale hk]
  · refine .inr ⟨hfree, bookTrade_parted s comm (k * comm) ?_⟩
    exact (carries_iff gain comm).not.mpr hfree

variable (cfg : Config) (params : ExecutionParams)

/-! ## The calls that close round trips -/

/-- What the prices alone gain if the position is closed at this quote. -/
def priceGain (p : OpenPosition) (curBid curAsk : ℚ) : ℚ :=
  roundTrip p.side p.price (exitPrice params p curBid curAsk)

lemma closed_follows (hk : 0 < k) (s : Replay) (p : OpenPosition) (nowMs : Int) (curBid curAsk : ℚ) :
    Follows k (k = 1 ∨ priceGain params p curBid curAsk = 0) (s.closed params p nowMs curBid curAsk)
      ((s.scale k).closed (params.scale k) (p.scale k) nowMs curBid curAsk) := by
  have hclosed : ∀ (t : Replay) (comm : ℚ),
      t.closed params { p with comm := comm } nowMs curBid curAsk =
        { t.bookTrade { signalTsMs := p.sigTs, fillTsMs := nowMs, side := p.side, signalMark := p.mark
                        fillPrice := p.price
                        pnl := priceGain params p curBid curAsk - comm } comm with held := none } :=
    fun _ _ => rfl
  have hscaled : (s.scale k).closed (params.scale k) (p.scale k) nowMs curBid curAsk =
      (s.scale k).closed params { p with comm := k * p.comm } nowMs curBid curAsk := rfl
  have hbook := bookTrade_follows hk s { signalTsMs := p.sigTs, fillTsMs := nowMs, side := p.side
                                         signalMark := p.mark, fillPrice := p.price }
    (priceGain params p curBid curAsk) p.comm rfl
  rw [hscaled, hclosed (s.scale k), hclosed s p.comm]
  obtain ⟨hfree, hsame⟩ | ⟨hno, hparted⟩ := hbook
  · refine .inl ⟨hfree, ?_⟩
    rw [hsame]
    rfl
  · exact .inr ⟨hno, hparted⟩

lemma closeOpen_follows (hk : 0 < k) (s : Replay) (nowMs : Int) (curLead curBid curAsk : ℚ)
    (force : Bool) :
    Follows k (∀ p, s.held = some p → mustClose params p nowMs curLead curBid curAsk force = true →
        k = 1 ∨ priceGain params p curBid curAsk = 0)
      (s.closeOpen params nowMs curLead curBid curAsk force)
      ((s.scale k).closeOpen (params.scale k) nowMs curLead curBid curAsk force) := by
  cases hh : s.held with
  | none =>
    have hnone : (s.scale k).held = none := by rw [scale, hh]; rfl
    refine .inl ⟨by simp, ?_⟩
    unfold closeOpen
    rw [hh, hnone]
  | some p =>
    have hsome : (s.scale k).held = some (p.scale k) := by rw [scale, hh]; rfl
    have hmust : mustClose (params.scale k) (p.scale k) nowMs curLead curBid curAsk force =
        mustClose params p nowMs curLead curBid curAsk force := rfl
    rw [closeOpen_eq params hh, closeOpen_eq (params.scale k) hsome, hmust]
    cases hclose : mustClose params p nowMs curLead curBid curAsk force with
    | false => exact .inl ⟨by simp [hclose], rfl⟩
    | true =>
      rw [if_pos rfl, if_pos rfl]
      apply (closed_follows params hk s p nowMs curBid curAsk).of_iff
      simp [hclose]

lemma ride_follows (hk : 0 < k) (s : Replay) (nowMs : Int) :
    Follows k (∀ p, s.held = some p →
        mustClose params p nowMs s.leadMid s.lagBid s.lagAsk false = true →
          k = 1 ∨ priceGain params p s.lagBid s.lagAsk = 0)
      (s.ride params nowMs) ((s.scale k).ride (params.scale k) nowMs) := by
  have hheld : (s.scale k).held.isSome = s.held.isSome := Option.isSome_map ..
  have hmodel : (params.scale k).pnlModel = params.pnlModel := rfl
  unfold ride
  rw [hheld, hmodel]
  split
  case isTrue => exact closeOpen_follows params hk s nowMs s.leadMid s.lagBid s.lagAsk false
  case isFalse hno =>
    have hnone : s.held = none := by simpa using (not_or.mp hno).1
    exact .inl ⟨by simp [hnone], rfl⟩

/-- The quote that a position is closed at by force. -/
def forceQuote (s : Replay) (p : OpenPosition) : ℚ × ℚ :=
  if s.lastBid ≤ 0 ∨ s.lastAsk ≤ 0 then (p.price, p.price) else (s.lastBid, s.lastAsk)

lemma forceClose_eq {s : Replay} {p : OpenPosition} (hp : s.held = some p) (nowMs : Int) :
    s.forceClose params nowMs =
      ({ s with lastBid := (s.forceQuote p).1, lastAsk := (s.forceQuote p).2 } : Replay).closeOpen params
        nowMs s.lastLead (s.forceQuote p).1 (s.forceQuote p).2 true := by
  unfold forceClose forceQuote
  split
  case h_1 hnone =>
    rw [hp] at hnone
    cases hnone
  case h_2 q hq =>
    obtain rfl := Option.some.inj (hp.symm.trans hq)
    dsimp only
    split <;> rfl

lemma forceClose_follows (hk : 0 < k) (s : Replay) (nowMs : Int) :
    Follows k (∀ p, s.held = some p →
        k = 1 ∨ priceGain params p (s.forceQuote p).1 (s.forceQuote p).2 = 0)
      (s.forceClose params nowMs) ((s.scale k).forceClose (params.scale k) nowMs) := by
  cases hh : s.held with
  | none =>
    have hnone : (s.scale k).held = none := by rw [scale, hh]; rfl
    refine .inl ⟨by simp, ?_⟩
    unfold forceClose
    rw [hh, hnone]
  | some p =>
    have hsome : (s.scale k).held = some (p.scale k) := by rw [scale, hh]; rfl
    have hquote : (s.scale k).forceQuote (p.scale k) = s.forceQuote p := rfl
    rw [forceClose_eq params hh, forceClose_eq (params.scale k) hsome, hquote]
    apply (closeOpen_follows params hk { s with lastBid := (s.forceQuote p).1, lastAsk := (s.forceQuote p).2 }
      nowMs s.lastLead (s.forceQuote p).1 (s.forceQuote p).2 true).of_iff
    simp [hh, mustClose]

lemma instantTrade_follows (hk : 0 < k) (s : Replay) (f : Fill) :
    Follows k (k = 1 ∨ roundTrip f.side f.fillPrice (instantExit f) = 0) (s.instantTrade f)
      ((s.scale k).instantTrade (f.scale k)) :=
  bookTrade_follows hk s { signalTsMs := f.signalTsMs, fillTsMs := f.fillTsMs, side := f.side
                           signalMark := f.signalMark, fillPrice := f.fillPrice }
    (roundTrip f.side f.fillPrice (instantExit f)) f.commission rfl

lemma handleFill_follows (hk : 0 < k) (s : Replay) (nowMs : Int) :
    Follows k (s.settles params nowMs = true → k = 1 ∨ s.instantGain = 0)
      (s.handleFill params nowMs) ((s.scale k).handleFill (params.scale k) nowMs) := by
  have hmodel : (params.scale k).pnlModel = params.pnlModel := rfl
  have hfills : (s.scale k).sim.atFill nowMs (s.scale k).lagBid (s.scale k).lagAsk =
      ((s.sim.atFill nowMs s.lagBid s.lagAsk).1.scale k,
        (s.sim.atFill nowMs s.lagBid s.lagAsk).2.map (Fill.scale k)) :=
    ExecutionSimulator.atFill_scale s.sim nowMs s.lagBid s.lagAsk
  unfold settles
  cases hd : s.sim.due nowMs with
  | none =>
    have hidle := ExecutionSimulator.atFill_of_not_due hd s.lagBid s.lagAsk
    unfold handleFill
    rw [hfills, hidle]
    exact .inl ⟨by simp, rfl⟩
  | some order =>
    obtain ⟨f, hfill, -, hfilled⟩ := fill_of_due hd
    unfold handleFill
    rw [hfills, hfill, hmodel]
    dsimp only
    have hscaled : (f.scale k).filled = f.filled := rfl
    rw [Option.map_some]
    dsimp only
    rw [hscaled]
    cases hrejects : s.rejects nowMs with
    | true =>
      have hno : f.filled = false := by rw [hfilled, hrejects]; rfl
      rw [hno]
      exact .inl ⟨by simp, rfl⟩
    | false =>
      have hyes : f.filled = true := by rw [hfilled, hrejects]; rfl
      rw [if_pos hyes, if_pos hyes]
      by_cases hhold : params.pnlModel = .holdConvergence
      · rw [if_pos hhold, if_pos hhold]
        exact .inl ⟨by simp [hhold], rfl⟩
      · rw [if_neg hhold, if_neg hhold]
        apply (instantTrade_follows hk ({ s with sim := { s.sim with pending := none } } : Replay) f).of_iff
        have hgain : roundTrip f.side f.fillPrice (instantExit f) = s.instantGain := by
          rw [← instantGain_of_fill hfill hyes]
          unfold roundTrip instantExit
          split <;> rfl
        rw [hgain]
        simp [hhold]

/-! ## The run -/

lemma act_scale (s : Replay) (nowMs : Int) (answer : Option Signal × Strategy) :
    (s.scale k).act nowMs (answer.1, answer.2.scale k) = (s.act nowMs answer).scale k := by
  obtain ⟨sig, strategy⟩ := answer
  cases sig with
  | none => rfl
  | some sig =>
    have hsubmit : (s.scale k).sim.submit sig.side nowMs (s.scale k).leadMid (s.scale k).lagBid
        (s.scale k).lagAsk = ((s.sim.submit sig.side nowMs s.leadMid s.lagBid s.lagAsk).1.scale k,
          (s.sim.submit sig.side nowMs s.leadMid s.lagBid s.lagAsk).2) :=
      ExecutionSimulator.submit_scale s.sim sig.side nowMs s.leadMid s.lagBid s.lagAsk
    unfold act
    dsimp only
    rw [hsubmit]
    dsimp only
    split <;> rfl

lemma evaluateQuote_scale (hk : 0 < k) (s : Replay) (nowMs : Int) :
    (s.scale k).evaluateQuote (cfg.scale k) nowMs = (s.evaluateQuote cfg nowMs).scale k := by
  have hemit := Strategy.maybeEmit_scale hk cfg s.strategy
    (Strategy.evaluate cfg s.leadMid (s.shown nowMs)).1 s.leadMid (s.shown nowMs) nowMs
  rw [evaluateQuote_eq, evaluateQuote_eq]
  by_cases hset : 0 < s.leadMid ∧ 0 < s.lagBid ∧ 0 < s.lagAsk
  · rw [if_pos hset, ← act_scale, ← hemit]
    exact if_pos hset
  · rw [if_neg hset]
    exact if_neg hset

/-- The prices gain nothing in the round trip that the call closes, if it closes one. -/
def Closing.Free (k : ℚ) : Closing → Prop
  | .fill s nowMs => s.settles params nowMs = true → k = 1 ∨ s.instantGain = 0
  | .ride s nowMs => ∀ p, s.held = some p →
      mustClose params p nowMs s.leadMid s.lagBid s.lagAsk false = true →
        k = 1 ∨ priceGain params p s.lagBid s.lagAsk = 0
  | .force s _ => ∀ p, s.held = some p →
      k = 1 ∨ priceGain params p (s.forceQuote p).1 (s.forceQuote p).2 = 0

lemma evaluated_grown (s : Replay) (nowMs : Int) :
    Grown s.books (s.evaluateQuote cfg nowMs).remember.books := by
  have hsame : (s.evaluateQuote cfg nowMs).remember.books = s.books := (s.evaluateQuote_books cfg nowMs).1
  rw [hsame]
  exact .refl

lemma lagTick_follows (hk : 0 < k) (s : Replay) (t : BinaryTick) (hvalid : t.isValid = true) :
    Follows k (Closing.Free params k (.fill (s.quoted t) t.tsMs) ∧
        Closing.Free params k (.ride ((s.quoted t).handleFill params t.tsMs) t.tsMs))
      (s.lagTick cfg params t) ((s.scale k).lagTick (cfg.scale k) (params.scale k) t) := by
  have hquoted : (s.scale k).quoted t = (s.quoted t).scale k := rfl
  have hskip : ¬(!t.isValid) = true := by simp [hvalid]
  unfold lagTick
  rw [if_neg hskip, if_neg hskip, hquoted]
  dsimp only
  obtain ⟨hfill, hfilled⟩ | ⟨hno, hparted⟩ := handleFill_follows params hk (s.quoted t) t.tsMs
  · rw [hfilled]
    obtain ⟨hride, hridden⟩ | ⟨hno, hparted⟩ :=
      ride_follows params hk ((s.quoted t).handleFill params t.tsMs) t.tsMs
    · rw [hridden, evaluateQuote_scale cfg hk]
      exact .inl ⟨⟨hfill, hride⟩, rfl⟩
    · exact .inr ⟨fun h => hno h.2,
        hparted.grown (evaluated_grown cfg _ t.tsMs) (evaluated_grown (cfg.scale k) _ t.tsMs)⟩
  · have hridden := hparted.grown (ride_grown params _ t.tsMs) (ride_grown (params.scale k) _ t.tsMs)
    exact .inr ⟨fun h => hno h.1,
      hridden.grown (evaluated_grown cfg _ t.tsMs) (evaluated_grown (cfg.scale k) _ t.tsMs)⟩

lemma pick_scale (s : Replay) :
    (s.scale k).pick = s.pick.map (fun picked => (picked.1, picked.2.1, picked.2.2.scale k)) := by
  have hlead : (s.scale k).lead = s.lead := rfl
  have hlag : (s.scale k).lag = s.lag := rfl
  unfold pick
  rw [hlead, hlag]
  cases s.lead with
  | nil => cases s.lag <;> rfl
  | cons a lead =>
    cases s.lag with
    | nil => rfl
    | cons b lag =>
      dsimp only
      split <;> rfl

/-- One iteration is followed as long as no round trip that it closes gains by its prices. -/
lemma next_follows (hk : 0 < k) {s t : Replay} (h : next cfg params s = some t) :
    ∃ t', next (cfg.scale k) (params.scale k) (s.scale k) = some t' ∧
      Follows k (∀ call ∈ s.closings params, call.Free params k) t t' := by
  unfold closings
  have hpick := pick_scale (k := k) s
  obtain ⟨tick, taken, hp, rfl⟩ | ⟨tick, taken, hp, rfl⟩ := next_cases cfg params h
  · rw [hp] at hpick
    refine ⟨(taken.scale k).leadTick tick, ?_, ?_⟩
    · unfold next
      rw [hpick]
      rfl
    · rw [hp]
      refine .inl ⟨by simp, ?_⟩
      unfold leadTick
      split <;> rfl
  · rw [hp] at hpick
    refine ⟨(taken.scale k).lagTick (cfg.scale k) (params.scale k) tick, ?_, ?_⟩
    · unfold next
      rw [hpick]
      rfl
    · rw [hp]
      dsimp only
      by_cases hvalid : tick.isValid = true
      · apply (lagTick_follows cfg params hk taken tick hvalid).of_iff
        simp [hvalid]
      · refine .inl ⟨by simp [hvalid], ?_⟩
        have hskip : (!tick.isValid) = true := by simpa using hvalid
        unfold lagTick
        rw [if_pos hskip, if_pos hskip]

lemma next_scale_none {s : Replay} (h : next cfg params s = none) :
    next (cfg.scale k) (params.scale k) (s.scale k) = none := by
  obtain ⟨hlead, hlag⟩ := next_eq_none cfg params h
  have hpick : (s.scale k).pick = none := by
    rw [pick_scale]
    unfold pick
    rw [hlead, hlag]
    rfl
  unfold next
  rw [hpick]

lemma start_scale (delayMs : Int) (lead lag : List BinaryTick) :
    start (params.scale k) delayMs lead lag = (start params delayMs lead lag).scale k := by
  have hcapital : (params.scale k).quantity * 1000 = k * (params.quantity * 1000) := mul_assoc _ _ _
  unfold start
  dsimp only
  rw [hcapital]
  simp [scale, ExecutionSimulator.scale, ExecutionParams.scale, Strategy.scale, BacktestResult.scale]

lemma replayed_follows (hk : 0 < k) (delayMs : Int) (lead lag : List BinaryTick) :
    Follows k (∀ s ∈ Loop.visits (next cfg params) (lead.length + lag.length)
        (start params delayMs lead lag), ∀ call ∈ s.closings params, call.Free params k)
      (replayed cfg params delayMs lead lag)
      (replayed (cfg.scale k) (params.scale k) delayMs lead lag) := by
  have hstep : ∀ s t, (∀ call ∈ s.closings params, call.Free params k) → next cfg params s = some t →
      next (cfg.scale k) (params.scale k) (s.scale k) = some (t.scale k) := by
    intro s t hfree hs
    obtain ⟨t', ht', ⟨-, rfl⟩ | ⟨hno, -⟩⟩ := next_follows cfg params hk hs
    · exact ht'
    · exact absurd hfree hno
  have hpart : ∀ s t, ¬(∀ call ∈ s.closings params, call.Free params k) → next cfg params s = some t →
      ∃ t', next (cfg.scale k) (params.scale k) (s.scale k) = some t' ∧ Parted k t.books t'.books := by
    intro s t hno hs
    obtain ⟨t', ht', ⟨hfree, -⟩ | ⟨-, hparted⟩⟩ := next_follows cfg params hk hs
    · exact absurd hfree hno
    · exact ⟨t', ht', hparted⟩
  unfold replayed
  rw [start_scale]
  obtain ⟨hall, hrun⟩ | ⟨⟨s, hs, hno⟩, hparted⟩ := Loop.run_map_until (scale k)
    (fun s => next_scale_none cfg params) hstep hpart
    (fun s t u h hs => h.grown (next_grown cfg params hs) .refl)
    (fun s u v h hu => h.grown .refl (next_grown (cfg.scale k) (params.scale k) hu))
    (lead.length + lag.length) (start params delayMs lead lag)
  · exact .inl ⟨hall, hrun⟩
  · exact .inr ⟨fun hall => hno (hall s hs), hparted⟩

/-- The whole run is followed exactly as long as all its closing calls are. -/
lemma ended_follows (hk : 0 < k) (delayMs : Int) {lead lag : List BinaryTick}
    (hticks : ¬(lead = [] ∨ lag = [])) :
    Follows k (∀ call ∈ allClosings cfg params delayMs lead lag, call.Free params k)
      (ended cfg params delayMs lead lag) (ended (cfg.scale k) (params.scale k) delayMs lead lag) := by
  have hclosings : (∀ call ∈ allClosings cfg params delayMs lead lag, call.Free params k) ↔
      (∀ s ∈ Loop.visits (next cfg params) (lead.length + lag.length) (start params delayMs lead lag),
        ∀ call ∈ s.closings params, call.Free params k) ∧
      Closing.Free params k (.fill (replayed cfg params delayMs lead lag)
        (replayed cfg params delayMs lead lag).drainMs) ∧
      Closing.Free params k (.force ((replayed cfg params delayMs lead lag).handleFill params
        (replayed cfg params delayMs lead lag).drainMs)
          ((replayed cfg params delayMs lead lag).drainMs + 1)) := by
    unfold allClosings
    rw [if_neg hticks, List.forall_mem_append, List.forall_mem_flatMap]
    simp
  unfold ended
  dsimp only
  set r := replayed cfg params delayMs lead lag
  set r' := replayed (cfg.scale k) (params.scale k) delayMs lead lag
  have hgrown := (handleFill_grown params r r.drainMs).trans (forceClose_grown params _ (r.drainMs + 1))
  have hgrown' := (handleFill_grown (params.scale k) r' r'.drainMs).trans
    (forceClose_grown (params.scale k) _ (r'.drainMs + 1))
  obtain ⟨hloop, hsame⟩ | ⟨hno, hparted⟩ := replayed_follows cfg params hk delayMs lead lag
  swap
  · exact .inr ⟨fun h => hno (hclosings.mp h).1, hparted.grown hgrown hgrown'⟩
  have hr : r' = r.scale k := hsame
  have hdrain : (r.scale k).drainMs = r.drainMs := rfl
  rw [hr, hdrain]
  obtain ⟨hfill, hfilled⟩ | ⟨hno, hparted⟩ := handleFill_follows params hk r r.drainMs
  swap
  · exact .inr ⟨fun h => hno (hclosings.mp h).2.1, hparted.grown (forceClose_grown params _ _)
      (forceClose_grown (params.scale k) _ _)⟩
  rw [hfilled]
  apply (forceClose_follows params hk (r.handleFill params r.drainMs) (r.drainMs + 1)).of_iff
  constructor
  · intro hforce
    exact hclosings.mpr ⟨hloop, hfill, hforce⟩
  · intro hall
    exact (hclosings.mp hall).2.2

lemma finish_scale (hk : 0 < k) (s : Replay) : (s.scale k).finish = s.finish.scale k := by
  have htotal : k * s.equity - k * s.out.initialCapital = k * (s.equity - s.out.initialCapital) := by
    ring
  have hloss : 0 < k * s.grossL ↔ 0 < s.grossL := mul_pos_iff_of_pos_left hk
  have hprofit : 0 < k * s.grossP ↔ 0 < s.grossP := mul_pos_iff_of_pos_left hk
  have hfactor : k * s.grossP / (k * s.grossL) = s.grossP / s.grossL := mul_div_mul_left _ _ hk.ne'
  simp [finish, scale, BacktestResult.scale, htotal, hloss, hprofit, hfactor]

end Replay

/-! ## The results -/

/-- The same trade at `k` times the quantity. -/
structure Trade.ScalesBy (k : ℚ) (t t' : Trade) : Prop where
  signalTsMs : t'.signalTsMs = t.signalTsMs
  fillTsMs : t'.fillTsMs = t.fillTsMs
  side : t'.side = t.side
  fillPrice : t'.fillPrice = t.fillPrice
  pnl : t'.pnl = k * t.pnl

/-- The same run at `k` times the quantity. -/
structure BacktestResult.ScalesBy (k : ℚ) (r r' : BacktestResult) : Prop where
  signals : r'.signalsEmitted = r.signalsEmitted
  fills : r'.fills = r.fills
  rejections : r'.rejections = r.rejections
  trades : List.Forall₂ (Trade.ScalesBy k) r.trades r'.trades
  capital : r'.initialCapital = k * r.initialCapital
  total : r'.totalPnl = k * r.totalPnl
  profit : r'.grossProfit = k * r.grossProfit
  loss : r'.grossLoss = k * r.grossLoss
  drawdown : r'.maxDrawdown = k * r.maxDrawdown

lemma BacktestResult.scalesBy_scale (r : BacktestResult) : r.ScalesBy k (r.scale k) := by
  refine ⟨rfl, rfl, rfl, ?_, rfl, rfl, rfl, rfl, rfl⟩
  rw [scale, List.forall₂_map_right_iff]
  exact List.forall₂_same.mpr (fun t _ => ⟨rfl, rfl, rfl, rfl, rfl⟩)

lemma BacktestResult.not_scalesBy_of_parted {r r' : BacktestResult} {b b' : Books}
    (h : Parted k b b') (hb : b.trades = r.trades) (hb' : b'.trades = r'.trades) : ¬r.ScalesBy k r' := by
  intro hscales
  obtain ⟨i, tr, tr', htr, htr', hne⟩ := h
  rw [hb] at htr
  rw [hb'] at htr'
  obtain ⟨hi, rfl⟩ := List.getElem?_eq_some_iff.mp htr
  obtain ⟨hi', rfl⟩ := List.getElem?_eq_some_iff.mp htr'
  exact hne (hscales.trades.get hi hi').pnl

namespace Replay

variable (cfg : Config) (params : ExecutionParams)

/-- What the prices alone gain in the round trip that the call closes. -/
def Closing.priceGain : Closing → ℚ
  | .fill s _ => s.instantGain
  | .ride s _ => (s.held.map (fun p => Replay.priceGain params p s.lagBid s.lagAsk)).getD 0
  | .force s _ =>
    (s.held.map (fun p => Replay.priceGain params p (s.forceQuote p).1 (s.forceQuote p).2)).getD 0

lemma Closing.free_iff (call : Closing) :
    call.Free params k ↔ k = 1 ∨ (call.closes params = true → call.priceGain params = 0) := by
  cases call with
  | fill s nowMs =>
    simp only [Free, closes, priceGain]
    tauto
  | ride s nowMs =>
    cases hh : s.held with
    | none => simp [Free, closes, priceGain, converges, hh]
    | some p =>
      simp only [Free, closes, priceGain, converges, hh, Option.some.injEq, forall_eq', Option.any_some,
        Option.map_some, Option.getD_some]
      tauto
  | force s nowMs =>
    cases hh : s.held with
    | none => simp [Free, closes, priceGain, hh]
    | some p => simp [Free, closes, priceGain, hh]

/-- At `k` times the quantity and the loss limit a replay is the same replay with all money multiplied by
`k` exactly when every round trip closes at the price it was opened at, so that it only costs its
commission. -/
theorem scales_iff (hk : 0 < k) (delayMs : Int) (lead lag : List BinaryTick) :
    (runImpl cfg params delayMs lead lag).ScalesBy k
        (runImpl (cfg.scale k) (params.scale k) delayMs lead lag) ↔
      k = 1 ∨ ∀ call ∈ allClosings cfg params delayMs lead lag, call.closes params = true →
        call.priceGain params = 0 := by
  have hfree : (k = 1 ∨ ∀ call ∈ allClosings cfg params delayMs lead lag,
      call.closes params = true → call.priceGain params = 0) ↔
        ∀ call ∈ allClosings cfg params delayMs lead lag, call.Free params k := by
    simp only [Closing.free_iff]
    constructor
    · rintro (hone | hall) call hcall
      · exact .inl hone
      · exact .inr (hall call hcall)
    · intro hall
      by_cases hone : k = 1
      · exact .inl hone
      · exact .inr (fun call hcall => (hall call hcall).resolve_left hone)
  rw [hfree]
  unfold runImpl
  by_cases hticks : lead = [] ∨ lag = []
  · have hnone : allClosings cfg params delayMs lead lag = [] := if_pos hticks
    have hcapital : (params.scale k).quantity * 1000 = k * (params.quantity * 1000) := mul_assoc _ _ _
    rw [if_pos hticks, if_pos hticks, hnone]
    refine iff_of_true ⟨rfl, rfl, rfl, .nil, hcapital, ?_, ?_, ?_, ?_⟩ (by simp)
    all_goals exact (mul_zero k).symm
  rw [if_neg hticks, if_neg hticks]
  obtain ⟨hall, hended⟩ | ⟨hno, hparted⟩ := ended_follows cfg params hk delayMs hticks
  · refine iff_of_true ?_ hall
    have hresult : (ended (cfg.scale k) (params.scale k) delayMs lead lag).finish =
        (ended cfg params delayMs lead lag).finish.scale k := by
      rw [hended, finish_scale hk]
    exact hresult ▸ (ended cfg params delayMs lead lag).finish.scalesBy_scale
  · refine iff_of_false ?_ hno
    exact BacktestResult.not_scalesBy_of_parted hparted rfl rfl

/-- A lag of 100 without a spread, quoted once a minute. -/
def spreadlessLag : List BinaryTick :=
  [60000, 120000, 180000].map (fun ts => { tsMs := ts, bid := 100, ask := 100, flags := 1 })

theorem scales_commission_only :
    (runImpl {} { commissionPerLot := 7 } 5 minuteLead spreadlessLag).ScalesBy 2
      (runImpl (Config.scale 2 {}) (ExecutionParams.scale 2 { commissionPerLot := 7 }) 5 minuteLead
        spreadlessLag) :=
  (scales_iff {} { commissionPerLot := 7 } (by norm_num) 5 minuteLead spreadlessLag).mpr
    (.inr (by decide +kernel))

/-- One lot bought at 100 and sold at 99 loses 1, and so do two lots of twice the capital. -/
theorem double_quantity_same_pnl :
    ((runImpl {} {} 5 minuteLead minuteLag).initialCapital,
        (runImpl {} {} 5 minuteLead minuteLag).trades.map Trade.pnl,
        (runImpl {} {} 5 minuteLead minuteLag).maxDrawdown) = (1000, [-1], 1) ∧
      ((runImpl (Config.scale 2 {}) (ExecutionParams.scale 2 {}) 5 minuteLead minuteLag).initialCapital,
        (runImpl (Config.scale 2 {}) (ExecutionParams.scale 2 {}) 5 minuteLead minuteLag).trades.map
          Trade.pnl,
        (runImpl (Config.scale 2 {}) (ExecutionParams.scale 2 {}) 5 minuteLead minuteLag).maxDrawdown) =
          (2000, [-1], 1) := by
  constructor <;> decide +kernel

end Replay

end LatencyArb
