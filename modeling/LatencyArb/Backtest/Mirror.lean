import LatencyArb.Backtest.Merge

/-!
# The symmetry of buying and selling

Mirrored at a constant, bids become asks and every purchase becomes a sale. A replay of mirrored streams
is the mirror image of the replay of the streams: each function of the replay commutes with the mirror
as long as all prices lie in the band between the simulator's margin and its mirror image.
-/

namespace LatencyArb

namespace Side

def opposite : Side → Side
  | .buy => .sell
  | .sell => .buy
  | .none => .none

end Side

namespace Decision

def opposite : Decision → Decision
  | .long => .short
  | .short => .long
  | .hold => .hold

end Decision

section Mirror

variable (C : ℚ)

def BinaryTick.mirror (t : BinaryTick) : BinaryTick := { t with bid := C - t.ask, ask := C - t.bid }

def BrokerQuote.mirror (q : BrokerQuote) : BrokerQuote := { q with bid := C - q.ask, ask := C - q.bid }

def PendingOrder.mirror (o : PendingOrder) : PendingOrder :=
  { o with side := o.side.opposite, signalMid := C - o.signalMid, lagBid := C - o.lagAsk
           lagAsk := C - o.lagBid }

def ExecutionSimulator.mirror (sim : ExecutionSimulator) : ExecutionSimulator :=
  { sim with pending := sim.pending.map (PendingOrder.mirror C) }

def Fill.mirror (f : Fill) : Fill :=
  { f with side := f.side.opposite, signalMark := C - f.signalMark, signalBid := C - f.signalAsk
           signalAsk := C - f.signalBid, execBid := C - f.execAsk, execAsk := C - f.execBid
           fillPrice := C - f.fillPrice }

def Trade.mirror (t : Trade) : Trade :=
  { t with side := t.side.opposite, signalMark := C - t.signalMark, fillPrice := C - t.fillPrice }

def OpenPosition.mirror (p : OpenPosition) : OpenPosition :=
  { p with side := p.side.opposite, price := C - p.price, mark := C - p.mark }

def BacktestResult.mirror (r : BacktestResult) : BacktestResult :=
  { r with trades := r.trades.map (Trade.mirror C) }

/-- The mirror image of a price, where 0 stands for no price. -/
def flip (x : ℚ) : ℚ := if x = 0 then 0 else C - x

def Replay.mirror (s : Replay) : Replay :=
  { s with
    lead := s.lead.map (BinaryTick.mirror C)
    lag := s.lag.map (BinaryTick.mirror C)
    sim := s.sim.mirror C
    leadMid := flip C s.leadMid
    lagBid := flip C s.lagAsk
    lagAsk := flip C s.lagBid
    lastBid := flip C s.lastAsk
    lastAsk := flip C s.lastBid
    lastLead := flip C s.lastLead
    held := s.held.map (OpenPosition.mirror C)
    out := s.out.mirror C }

end Mirror

/-! ## The strategy -/

namespace Strategy

variable {cfg : Config} (C : ℚ)

lemma dynamicThreshold_mirror (q : BrokerQuote) :
    dynamicThreshold cfg (q.mirror C) = dynamicThreshold cfg q := by
  have hwidth : C - q.bid - (C - q.ask) = q.ask - q.bid := by ring
  rw [dynamicThreshold, dynamicThreshold, BrokerQuote.mirror, hwidth]

/-- The threshold is at least the distance of bid and ask, so that a price cannot be both above the ask
and below the bid by more than it. -/
lemma width_le_threshold (hbuffer : 0 ≤ cfg.latencyBufferPips) (hmargin : 0 ≤ cfg.minProfitMarginPips)
    (q : BrokerQuote) (hspread : q.spread = q.ask - q.bid) :
    |q.ask - q.bid| ≤ dynamicThreshold cfg q := by
  rw [dynamicThreshold, hspread]
  refine le_trans ?_ (le_max_left _ _)
  split
  case isTrue => linarith
  case isFalse hpos =>
    rw [abs_of_pos (not_le.mp hpos)]
    linarith

lemma evaluate_mirror (hround : cfg.roundFourDecimals = false) (hbuffer : 0 ≤ cfg.latencyBufferPips)
    (hmargin : 0 ≤ cfg.minProfitMarginPips) (lead : ℚ) (q : BrokerQuote)
    (hspread : q.spread = q.ask - q.bid) :
    (evaluate cfg (C - lead) (q.mirror C)).1 = (evaluate cfg lead q).1.opposite := by
  have hexact : ∀ v, round4 cfg v = v := by
    intro v
    rw [round4, hround]
    rfl
  have hwidth := width_le_threshold hbuffer hmargin q hspread
  have hnonneg := abs_nonneg (q.ask - q.bid)
  have hcross := neg_abs_le (q.ask - q.bid)
  simp only [evaluate, hexact, dynamicThreshold_mirror]
  simp only [BrokerQuote.mirror]
  generalize dynamicThreshold cfg q = threshold at hwidth
  have hbuy : C - q.bid + threshold < C - lead ↔ lead + threshold < q.bid := by
    constructor <;> intro h <;> linarith
  have hsell : C - lead + threshold < C - q.ask ↔ q.ask + threshold < lead := by
    constructor <;> intro h <;> linarith
  simp only [hbuy, hsell]
  by_cases hlong : q.ask + threshold < lead
  · have hshort : ¬lead + threshold < q.bid := by
      intro hshort
      linarith
    simp [hlong, hshort, Decision.opposite]
  · by_cases hshort : lead + threshold < q.bid <;> simp [hlong, hshort, Decision.opposite]

/-- The gates of `maybe_emit` do not see prices. -/
lemma maybeEmit_mirror (cfg : Config) (s : Strategy) (d : Decision) (lead lead' : ℚ) (q q' : BrokerQuote)
    (nowMs : Int) :
    (s.maybeEmit cfg d.opposite lead' q' nowMs).2 = (s.maybeEmit cfg d lead q nowMs).2 ∧
      (s.maybeEmit cfg d.opposite lead' q' nowMs).1.map Signal.side =
        ((s.maybeEmit cfg d lead q nowMs).1.map Signal.side).map Side.opposite := by
  have hhold : d.opposite = .hold ↔ d = .hold := by cases d <;> decide
  unfold maybeEmit
  rw [if_congr hhold rfl rfl]
  by_cases hd : d = .hold
  · rw [if_pos hd, if_pos hd]
    exact ⟨rfl, rfl⟩
  · rw [if_neg hd, if_neg hd]
    split
    · exact ⟨rfl, rfl⟩
    split
    · exact ⟨rfl, rfl⟩
    · refine ⟨rfl, ?_⟩
      cases d with
      | long => rfl
      | short => rfl
      | hold => exact absurd rfl hd

end Strategy

/-- Strictly between the margin and its mirror image. -/
structure InBand (margin C x : ℚ) : Prop where
  low : margin < x
  high : x < C - margin

instance (margin C x : ℚ) : Decidable (InBand margin C x) :=
  decidable_of_iff (margin < x ∧ x < C - margin) ⟨fun h => ⟨h.1, h.2⟩, fun h => ⟨h.low, h.high⟩⟩

section Band

variable {margin C x : ℚ}

lemma InBand.mirror (h : InBand margin C x) : InBand margin C (C - x) := by
  obtain ⟨hlow, hhigh⟩ := h
  constructor <;> linarith

lemma InBand.pos (h : InBand margin C x) (hmargin : 0 ≤ margin) : 0 < x := hmargin.trans_lt h.low

lemma InBand.flip (h : InBand margin C x) (hmargin : 0 ≤ margin) : LatencyArb.flip C x = C - x :=
  if_neg (h.pos hmargin).ne'

end Band

lemma Side.opposite_eq_buy {side : Side} (h : side ≠ .none) : side.opposite = .buy ↔ ¬side = .buy := by
  cases side with
  | buy => decide
  | sell => decide
  | none => exact absurd rfl h

/-! ## The simulator -/

namespace ExecutionSimulator

variable {margin C : ℚ} {sim : ExecutionSimulator} {bid ask : ℚ}

lemma submit_mirror (hmargin : 0 ≤ margin) (hbid : InBand margin C bid) (hask : InBand margin C ask)
    (side : Side) (signalTsMs : Int) (signalMid : ℚ) :
    (sim.mirror C).submit side.opposite signalTsMs (C - signalMid) (C - ask) (C - bid) =
      ((sim.submit side signalTsMs signalMid bid ask).1.mirror C,
        (sim.submit side signalTsMs signalMid bid ask).2) := by
  have hpending : (sim.mirror C).pending.isSome = sim.pending.isSome := Option.isSome_map ..
  have hside : (side.opposite ≠ .buy ∧ side.opposite ≠ .sell) ↔ (side ≠ .buy ∧ side ≠ .sell) := by
    cases side <;> decide
  have hquote : (C - ask ≤ 0 ∨ C - bid ≤ 0 ∨ C - bid < C - ask) ↔ (bid ≤ 0 ∨ ask ≤ 0 ∨ ask < bid) := by
    have hbid0 := hbid.pos hmargin
    have hask0 := hask.pos hmargin
    have hbid1 := hbid.mirror.pos hmargin
    have hask1 := hask.mirror.pos hmargin
    constructor
    · rintro (h | h | h)
      · linarith
      · linarith
      · exact .inr (.inr (by linarith))
    · rintro (h | h | h)
      · linarith
      · linarith
      · exact .inr (.inr (by linarith))
  unfold submit
  rw [hpending, if_congr hside rfl rfl, if_congr hquote rfl rfl]
  split
  · rfl
  split
  · rfl
  split <;> rfl

/-- A sale of the mirrored quote is made at the mirrored price of the purchase. -/
lemma modelPrice_mirror (params : ExecutionParams) {side : Side} (hside : side ≠ .none) :
    modelPrice params side.opposite (C - ask) (C - bid) = C - modelPrice params side bid ask := by
  unfold modelPrice
  cases side with
  | buy =>
    simp only [Side.opposite, reduceCtorEq, if_true, if_false]
    ring
  | sell =>
    simp only [Side.opposite, reduceCtorEq, if_true, if_false]
    ring
  | none => exact absurd rfl hside

lemma modelPrice_pos (hparams : sim.params.spreadMarkupPts + sim.params.slippagePts = margin)
    (hmargin : 0 ≤ margin) (hbid : InBand margin C bid) (hask : InBand margin C ask) (side : Side) :
    0 < modelPrice sim.params side bid ask := by
  have hlow := hbid.low
  have hpos := hask.pos hmargin
  unfold modelPrice
  split <;> linarith

/-- What two simulators report for mirrored orders: nothing, or fills that agree on `filled` and, when
filled, are mirror images. -/
inductive FillsMirror (C : ℚ) : Option Fill → Option Fill → Prop where
  | idle : FillsMirror C none none
  | rejected {f f' : Fill} (hf : f.filled = false) (hf' : f'.filled = false) :
    FillsMirror C (some f) (some f')
  | filled {f : Fill} (hf : f.filled = true) (hside : f.side ≠ .none) :
    FillsMirror C (some f) (some (f.mirror C))

lemma atFill_mirror (hparams : sim.params.spreadMarkupPts + sim.params.slippagePts = margin)
    (hmargin : 0 ≤ margin) (hbid : InBand margin C bid) (hask : InBand margin C ask)
    (hside : ∀ o, sim.pending = some o → o.side ≠ .none) (nowMs : Int) :
    ((sim.mirror C).atFill nowMs (C - ask) (C - bid)).1 = (sim.atFill nowMs bid ask).1.mirror C ∧
      FillsMirror C (sim.atFill nowMs bid ask).2
        ((sim.mirror C).atFill nowMs (C - ask) (C - bid)).2 := by
  have hwidth : C - bid - (C - ask) = ask - bid := by ring
  unfold atFill
  cases hp : sim.pending with
  | none =>
    have hnone : (sim.mirror C).pending = none := by rw [mirror, hp]; rfl
    rw [hnone]
    exact ⟨rfl, .idle⟩
  | some order =>
    have hsome : (sim.mirror C).pending = some (order.mirror C) := by rw [mirror, hp]; rfl
    have hpar : (sim.mirror C).params = sim.params := rfl
    have hpos := modelPrice_pos hparams hmargin hbid hask order.side
    have hprice : modelPrice sim.params (order.mirror C).side (C - ask) (C - bid) =
        C - modelPrice sim.params order.side bid ask := modelPrice_mirror sim.params (hside order hp)
    have hpos' := modelPrice_pos hparams hmargin hask.mirror hbid.mirror (order.mirror C).side
    have htarget : (order.mirror C).targetFillTsMs = order.targetFillTsMs := rfl
    rw [hsome]
    dsimp only
    rw [hwidth, hpar, htarget]
    by_cases hnow : nowMs < order.targetFillTsMs
    · rw [if_pos hnow, if_pos hnow]
      exact ⟨rfl, .idle⟩
    rw [if_neg hnow, if_neg hnow]
    by_cases hspread : sim.params.spreadCapPts < ask - bid
    · rw [if_pos hspread, if_pos hspread]
      exact ⟨rfl, .rejected rfl rfl⟩
    rw [if_neg hspread, if_neg hspread]
    by_cases hslip : sim.params.slippageCapPts < sim.params.slippagePts
    · rw [if_pos hslip, if_pos hslip]
      exact ⟨rfl, .rejected rfl rfl⟩
    rw [if_neg hslip, if_neg hslip, if_neg (not_not.mpr hpos), if_neg (not_not.mpr hpos'), hprice]
    exact ⟨rfl, .filled rfl (hside order hp)⟩

end ExecutionSimulator

/-! ## The money -/

namespace Replay

variable (cfg : Config) (params : ExecutionParams) {margin C : ℚ}

lemma recordTrade_mirror (s : Replay) (tr : Trade) :
    (s.mirror C).recordTrade (tr.mirror C) = (s.recordTrade tr).mirror C := by
  unfold recordTrade
  by_cases hdeeper : s.out.maxDrawdown < max s.peak s.equity - s.equity
  · simp [mirror, BacktestResult.mirror, Trade.mirror, hdeeper]
  · simp [mirror, BacktestResult.mirror, Trade.mirror, hdeeper]

lemma realize_mirror (s : Replay) (pnl : ℚ) :
    (s.mirror C).realize pnl = (s.realize pnl).mirror C := rfl

lemma orderClosed_mirror (s : Replay) (pnl comm : ℚ) :
    (s.mirror C).orderClosed pnl comm = (s.orderClosed pnl comm).mirror C := rfl

/-- The P&L of a round trip, from its prices. -/
def roundTrip (side : Side) (entry exit : ℚ) : ℚ := if side = .buy then exit - entry else entry - exit

lemma roundTrip_mirror {side : Side} (hside : side ≠ .none) (entry exit : ℚ) :
    roundTrip side.opposite (C - entry) (C - exit) = roundTrip side entry exit := by
  unfold roundTrip
  rw [if_congr (Side.opposite_eq_buy hside) rfl rfl]
  by_cases hbuy : side = .buy
  · simp only [hbuy, not_true_eq_false, if_false, if_true]
    ring
  · simp only [hbuy, not_false_eq_true, if_false, if_true]
    ring

/-- The quote at which the instant model marks its exit. -/
def instantExit (f : Fill) : ℚ := if f.side = .buy then f.execBid else f.execAsk

lemma instantExit_mirror {f : Fill} (hside : f.side ≠ .none) :
    instantExit (f.mirror C) = C - instantExit f := by
  have hopposite : (f.mirror C).side = .buy ↔ ¬f.side = .buy := Side.opposite_eq_buy hside
  unfold instantExit
  rw [if_congr hopposite rfl rfl]
  by_cases hbuy : f.side = .buy
  · simp only [hbuy, not_true_eq_false, if_false, if_true]
    rfl
  · simp only [hbuy, not_false_eq_true, if_false, if_true]
    rfl

lemma instantTrade_mirror (s : Replay) {f : Fill} (hside : f.side ≠ .none) :
    (s.mirror C).instantTrade (f.mirror C) = (s.instantTrade f).mirror C := by
  have hpnl : roundTrip (f.mirror C).side (f.mirror C).fillPrice (instantExit (f.mirror C)) =
      roundTrip f.side f.fillPrice (instantExit f) := by
    rw [instantExit_mirror hside]
    exact roundTrip_mirror hside _ _
  have htrade : ∀ (t : Replay) (g : Fill), t.instantTrade g =
      ((t.realize (roundTrip g.side g.fillPrice (instantExit g) - g.commission)).orderClosed
        (roundTrip g.side g.fillPrice (instantExit g) - g.commission) g.commission).recordTrade
        { signalTsMs := g.signalTsMs, fillTsMs := g.fillTsMs, side := g.side, signalMark := g.signalMark
          fillPrice := g.fillPrice
          pnl := roundTrip g.side g.fillPrice (instantExit g) - g.commission } := fun _ _ => rfl
  rw [htrade, htrade, hpnl, realize_mirror, orderClosed_mirror, ← recordTrade_mirror]
  rfl

lemma exitPrice_mirror {p : OpenPosition} (hside : p.side ≠ .none) (curBid curAsk : ℚ) :
    exitPrice params (p.mirror C) (C - curAsk) (C - curBid) = C - exitPrice params p curBid curAsk := by
  have hopposite : (p.mirror C).side = .buy ↔ ¬p.side = .buy := Side.opposite_eq_buy hside
  unfold exitPrice
  rw [if_congr hopposite rfl rfl]
  by_cases hbuy : p.side = .buy
  · simp only [hbuy, not_true_eq_false, if_false, if_true]
    ring
  · simp only [hbuy, not_false_eq_true, if_false, if_true]
    ring

/-- Only a close that is not forced compares the lag with the lead. -/
lemma mustClose_mirror (p : OpenPosition) (nowMs : Int) (curLead curLead' curBid curAsk : ℚ)
    (force : Bool) (hlead : force = true ∨ curLead' = C - curLead) :
    mustClose params (p.mirror C) nowMs curLead' (C - curAsk) (C - curBid) force =
      mustClose params p nowMs curLead curBid curAsk force := by
  unfold mustClose
  obtain rfl | rfl := hlead
  · rfl
  · have hgap : C - curLead - 1 / 2 * (C - curAsk + (C - curBid)) =
        -(curLead - 1 / 2 * (curBid + curAsk)) := by ring
    rw [hgap, abs_neg]
    rfl

/-- The state after `close_open` has closed the position `p`. -/
def closed (s : Replay) (p : OpenPosition) (nowMs : Int) (curBid curAsk : ℚ) : Replay :=
  let pnl := roundTrip p.side p.price (exitPrice params p curBid curAsk) - p.comm
  let tr : Trade := {
    signalTsMs := p.sigTs, fillTsMs := nowMs, side := p.side, signalMark := p.mark
    fillPrice := p.price, pnl := pnl }
  { (((s.realize pnl).recordTrade tr).orderClosed pnl p.comm) with held := none }

lemma closeOpen_eq {s : Replay} {p : OpenPosition} (hp : s.held = some p) (nowMs : Int)
    (curLead curBid curAsk : ℚ) (force : Bool) :
    s.closeOpen params nowMs curLead curBid curAsk force =
      if mustClose params p nowMs curLead curBid curAsk force then s.closed params p nowMs curBid curAsk
      else s := by
  unfold closeOpen
  rw [hp]
  dsimp only
  cases mustClose params p nowMs curLead curBid curAsk force <;> rfl

lemma closed_mirror (s : Replay) {p : OpenPosition} (hside : p.side ≠ .none) (nowMs : Int)
    (curBid curAsk : ℚ) :
    (s.mirror C).closed params (p.mirror C) nowMs (C - curAsk) (C - curBid) =
      (s.closed params p nowMs curBid curAsk).mirror C := by
  have hpnl : roundTrip (p.mirror C).side (p.mirror C).price
      (exitPrice params (p.mirror C) (C - curAsk) (C - curBid)) =
        roundTrip p.side p.price (exitPrice params p curBid curAsk) := by
    rw [exitPrice_mirror params hside]
    exact roundTrip_mirror hside _ _
  have hrelease : ∀ t : Replay, ({ t.mirror C with held := none } : Replay) =
      ({ t with held := none } : Replay).mirror C := fun _ => rfl
  unfold closed
  dsimp only
  rw [hpnl, ← hrelease, ← orderClosed_mirror, ← recordTrade_mirror, ← realize_mirror]
  rfl

lemma closeOpen_mirror (s : Replay) (nowMs : Int) (curLead curLead' curBid curAsk : ℚ) (force : Bool)
    (hside : ∀ p, s.held = some p → p.side ≠ .none)
    (hlead : s.held.isSome = true → force = true ∨ curLead' = C - curLead) :
    (s.mirror C).closeOpen params nowMs curLead' (C - curAsk) (C - curBid) force =
      (s.closeOpen params nowMs curLead curBid curAsk force).mirror C := by
  cases hh : s.held with
  | none =>
    have hnone : (s.mirror C).held = none := by rw [mirror, hh]; rfl
    unfold closeOpen
    rw [hnone, hh]
  | some p =>
    have hsome : (s.mirror C).held = some (p.mirror C) := by rw [mirror, hh]; rfl
    have hleads := hlead (by rw [hh]; rfl)
    rw [closeOpen_eq params hsome, closeOpen_eq params hh, closed_mirror params s (hside p hh),
      mustClose_mirror params p nowMs curLead curLead' curBid curAsk force hleads]
    split <;> rfl

/-! ## The invariant of the simulation -/

/-- All prices are in the band or not yet set, and whoever has an order or a position has seen both
feeds. -/
structure Banded (margin C : ℚ) (s : Replay) : Prop where
  lead : ∀ t ∈ s.lead, InBand margin C t.bid ∧ InBand margin C t.ask
  lag : ∀ t ∈ s.lag, InBand margin C t.bid ∧ InBand margin C t.ask
  leadMid : s.leadMid = 0 ∨ InBand margin C s.leadMid
  lagQuote : s.lagBid = 0 ∧ s.lagAsk = 0 ∨ InBand margin C s.lagBid ∧ InBand margin C s.lagAsk
  busy : s.sim.pending.isSome = true ∨ s.held.isSome = true →
    InBand margin C s.leadMid ∧ InBand margin C s.lagBid ∧ InBand margin C s.lagAsk
  orders : ∀ o, s.sim.pending = some o → o.side ≠ .none
  held : ∀ p, s.held = some p → p.side ≠ .none
  params : s.sim.params.spreadMarkupPts + s.sim.params.slippagePts = margin

/-- The invariant survives whatever leaves the feeds alone, if orders and positions are there only when
both feeds are. -/
lemma Banded.step {s s' : Replay} (h : s.Banded margin C) (hheader : s'.header = s.header)
    (hfeeds : s'.feeds = s.feeds)
    (hbusy : s'.sim.pending.isSome = true ∨ s'.held.isSome = true →
      InBand margin C s.leadMid ∧ InBand margin C s.lagBid ∧ InBand margin C s.lagAsk)
    (horders : ∀ o, s'.sim.pending = some o → o.side ≠ .none)
    (hheld : ∀ p, s'.held = some p → p.side ≠ .none) : s'.Banded margin C := by
  have hlead : s'.lead = s.lead := congrArg Header.lead hheader
  have hlag : s'.lag = s.lag := congrArg Header.lag hheader
  have hparams : s'.sim.params = s.sim.params := congrArg Header.params hheader
  have hmid : s'.leadMid = s.leadMid := congrArg Feeds.leadMid hfeeds
  have hbid : s'.lagBid = s.lagBid := congrArg Feeds.lagBid hfeeds
  have hask : s'.lagAsk = s.lagAsk := congrArg Feeds.lagAsk hfeeds
  refine ⟨hlead ▸ h.lead, hlag ▸ h.lag, hmid ▸ h.leadMid, ?_, ?_, horders, hheld, hparams ▸ h.params⟩
  · rw [hbid, hask]
    exact h.lagQuote
  · rw [hmid, hbid, hask]
    exact hbusy

/-- No order is added, and no position but one made of the pending order. -/
lemma Banded.same {s s' : Replay} (h : s.Banded margin C) (hheader : s'.header = s.header)
    (hfeeds : s'.feeds = s.feeds) (hpending : ∀ o, s'.sim.pending = some o → s.sim.pending = some o)
    (hheld : ∀ p, s'.held = some p →
      s.held = some p ∨ s.sim.pending.isSome = true ∧ p.side ≠ .none) : s'.Banded margin C := by
  refine h.step hheader hfeeds ?_ (fun o ho => h.orders o (hpending o ho)) ?_
  · rintro (hsome | hsome)
    · obtain ⟨o, ho⟩ := Option.isSome_iff_exists.mp hsome
      exact h.busy (.inl (by rw [hpending o ho]; rfl))
    · obtain ⟨p, hp⟩ := Option.isSome_iff_exists.mp hsome
      obtain hp | ⟨hpend, -⟩ := hheld p hp
      · exact h.busy (.inr (by rw [hp]; rfl))
      · exact h.busy (.inl hpend)
  · intro p hp
    obtain hp | ⟨-, hside⟩ := hheld p hp
    · exact h.held p hp
    · exact hside

lemma atFill_sim (sim : ExecutionSimulator) (nowMs : Int) (bid ask : ℚ) (o : PendingOrder)
    (ho : (sim.atFill nowMs bid ask).1.pending = some o) : sim.pending = some o := by
  cases hd : sim.due nowMs with
  | none =>
    rw [ExecutionSimulator.atFill_of_not_due hd] at ho
    exact ho
  | some order =>
    obtain ⟨fill, hfill, -⟩ := ExecutionSimulator.atFill_of_due hd bid ask
    rw [hfill] at ho
    cases ho

variable {s : Replay}

lemma handleFill_mirror (hmargin : 0 ≤ margin) (h : s.Banded margin C) (nowMs : Int) :
    (s.mirror C).handleFill params nowMs = (s.handleFill params nowMs).mirror C ∧
      (s.handleFill params nowMs).Banded margin C := by
  cases hp : s.sim.pending with
  | none =>
    have hnone : (s.mirror C).sim.pending = none := by
      rw [mirror, ExecutionSimulator.mirror, hp]
      rfl
    have hidle : ∀ t : Replay, t.sim.pending = none → t.handleFill params nowMs = t := by
      intro t ht
      unfold handleFill ExecutionSimulator.atFill
      rw [ht]
    rw [hidle s hp, hidle _ hnone]
    exact ⟨rfl, h⟩
  | some order =>
    obtain ⟨-, hbid, hask⟩ := h.busy (.inl (by rw [hp]; rfl))
    obtain ⟨hsim, hfills⟩ :=
      ExecutionSimulator.atFill_mirror h.params hmargin hbid hask h.orders nowMs
    have hpending := atFill_sim s.sim nowMs s.lagBid s.lagAsk
    have hheader := s.handleFill_header params nowMs
    have hfeeds := s.handleFill_feeds params nowMs
    have hcall : (s.mirror C).sim.atFill nowMs (s.mirror C).lagBid (s.mirror C).lagAsk =
        (s.sim.mirror C).atFill nowMs (C - s.lagAsk) (C - s.lagBid) := by
      have hlagBid : (s.mirror C).lagBid = C - s.lagAsk := hask.flip hmargin
      have hlagAsk : (s.mirror C).lagAsk = C - s.lagBid := hbid.flip hmargin
      rw [hlagBid, hlagAsk]
      rfl
    unfold handleFill at hheader hfeeds ⊢
    rw [hcall]
    generalize s.sim.atFill nowMs s.lagBid s.lagAsk = r at *
    generalize (s.sim.mirror C).atFill nowMs (C - s.lagAsk) (C - s.lagBid) = r' at *
    obtain ⟨sim, fill⟩ := r
    obtain ⟨sim', fill'⟩ := r'
    dsimp only at hsim hpending hfills
    subst hsim
    cases hfills with
    | idle => exact ⟨rfl, h⟩
    | rejected hf hf' =>
      dsimp only at hheader hfeeds ⊢
      simp only [hf, hf', Bool.false_eq_true, if_false] at hheader hfeeds ⊢
      exact ⟨rfl, h.same hheader hfeeds hpending (fun p hp => .inl hp)⟩
    | @filled f hf hside =>
      have hf' : (f.mirror C).filled = true := hf
      dsimp only at hheader hfeeds ⊢
      simp only [hf, hf', if_true] at hheader hfeeds ⊢
      by_cases hmodel : params.pnlModel = .holdConvergence
      · simp only [hmodel, if_true] at hheader hfeeds ⊢
        refine ⟨rfl, h.same hheader hfeeds hpending ?_⟩
        intro p hheld
        simp only [openPosition, Option.some.injEq] at hheld
        exact .inr ⟨by rw [hp]; rfl, hheld ▸ hside⟩
      · simp only [hmodel, if_false] at hheader hfeeds ⊢
        have htrade := instantTrade_mirror (C := C) ({ s with sim := sim } : Replay) hside
        have hheld := (({ s with sim := sim } : Replay).instantTrade_books f).1
        have hpend := congrArg Ledger.pending (({ s with sim := sim } : Replay).instantTrade_ledger f).1
        refine ⟨htrade, h.same hheader hfeeds ?_ ?_⟩
        · intro o ho
          exact hpending o (hpend.symm.trans ho)
        · intro p hp
          rw [hheld] at hp
          exact .inl hp

lemma closeOpen_banded (h : s.Banded margin C) (nowMs : Int) (curLead curBid curAsk : ℚ)
    (force : Bool) : (s.closeOpen params nowMs curLead curBid curAsk force).Banded margin C := by
  obtain ⟨hheader, hledger⟩ := s.closeOpen_cases params nowMs curLead curBid curAsk force
  have hfeeds := s.closeOpen_feeds params nowMs curLead curBid curAsk force
  have hpending : (s.closeOpen params nowMs curLead curBid curAsk force).sim.pending =
      s.sim.pending := by
    obtain hl | ⟨-, hl⟩ := hledger <;> exact congrArg Ledger.pending hl
  refine h.same hheader hfeeds (fun o ho => hpending.symm.trans ho) ?_
  intro p hp
  obtain ⟨-, hsame⟩ | ⟨-, -, -, -, -, hnone⟩ :=
    s.closeOpen_books params nowMs curLead curBid curAsk force
  · rw [hsame] at hp
    exact .inl hp
  · rw [hnone] at hp
    cases hp

lemma ride_mirror (hmargin : 0 ≤ margin) (h : s.Banded margin C) (nowMs : Int) :
    (s.mirror C).ride params nowMs = (s.ride params nowMs).mirror C ∧
      (s.ride params nowMs).Banded margin C := by
  have hheld : (s.mirror C).held.isSome = s.held.isSome := Option.isSome_map ..
  unfold ride
  rw [hheld]
  split
  case isFalse => exact ⟨rfl, h⟩
  case isTrue =>
    refine ⟨?_, closeOpen_banded params h nowMs _ _ _ _⟩
    cases hh : s.held with
    | none =>
      have hidle : ∀ t : Replay, t.held = none →
          t.closeOpen params nowMs t.leadMid t.lagBid t.lagAsk false = t := by
        intro t ht
        unfold closeOpen
        rw [ht]
      rw [hidle s hh, hidle _ (by rw [mirror, hh]; rfl)]
    | some p =>
      obtain ⟨hlead, hbid, hask⟩ := h.busy (.inr (by rw [hh]; rfl))
      have hlagBid : (s.mirror C).lagBid = C - s.lagAsk := hask.flip hmargin
      have hlagAsk : (s.mirror C).lagAsk = C - s.lagBid := hbid.flip hmargin
      have hleadMid : (s.mirror C).leadMid = C - s.leadMid := hlead.flip hmargin
      rw [hlagBid, hlagAsk, hleadMid]
      exact closeOpen_mirror params s nowMs _ _ _ _ false h.held (fun _ => .inr rfl)

lemma flip_pos (hmargin : 0 ≤ margin) {x : ℚ} (hx : x = 0 ∨ InBand margin C x) :
    0 < flip C x ↔ 0 < x := by
  obtain rfl | hx := hx
  · rw [flip, if_pos rfl]
  · rw [hx.flip hmargin]
    exact iff_of_true (hx.mirror.pos hmargin) (hx.pos hmargin)

/-- The quote that the replay shows to the strategy. -/
def shown (s : Replay) (nowMs : Int) : BrokerQuote :=
  { tsMs := nowMs, bid := s.lagBid, ask := s.lagAsk, spread := s.lagAsk - s.lagBid, valid := 1 }

/-- What the replay does with the answer of the strategy. -/
def act (s : Replay) (nowMs : Int) (answer : Option Signal × Strategy) : Replay :=
  match answer with
  | (none, strategy) => { s with strategy := strategy }
  | (some sig, strategy) =>
    let r := s.sim.submit sig.side nowMs s.leadMid s.lagBid s.lagAsk
    if r.2 then
      { s with sim := r.1, strategy := strategy.onOrderPlaced
               out := { s.out with signalsEmitted := s.out.signalsEmitted + 1 } }
    else { s with sim := r.1, strategy := strategy }

lemma evaluateQuote_eq (s : Replay) (nowMs : Int) :
    s.evaluateQuote cfg nowMs =
      if 0 < s.leadMid ∧ 0 < s.lagBid ∧ 0 < s.lagAsk then
        s.act nowMs (s.strategy.maybeEmit cfg (Strategy.evaluate cfg s.leadMid (s.shown nowMs)).1 s.leadMid
          (s.shown nowMs) nowMs)
      else s := by
  rfl

lemma act_mirror (hmargin : 0 ≤ margin) (hlead : InBand margin C s.leadMid)
    (hbid : InBand margin C s.lagBid) (hask : InBand margin C s.lagAsk) (nowMs : Int)
    {answer answer' : Option Signal × Strategy} (hstrategy : answer'.2 = answer.2)
    (hside : answer'.1.map Signal.side = (answer.1.map Signal.side).map Side.opposite) :
    (s.mirror C).act nowMs answer' = (s.act nowMs answer).mirror C := by
  obtain ⟨sig, strategy⟩ := answer
  obtain ⟨sig', strategy'⟩ := answer'
  dsimp only at hstrategy hside
  subst hstrategy
  cases sig with
  | none =>
    cases sig' with
    | none => rfl
    | some sig' => cases hside
  | some sig =>
    cases sig' with
    | none => cases hside
    | some sig' =>
      have hopposite : sig'.side = sig.side.opposite := Option.some.inj hside
      have hsubmit : (s.mirror C).sim.submit sig'.side nowMs (s.mirror C).leadMid (s.mirror C).lagBid
          (s.mirror C).lagAsk = ((s.sim.submit sig.side nowMs s.leadMid s.lagBid s.lagAsk).1.mirror C,
            (s.sim.submit sig.side nowMs s.leadMid s.lagBid s.lagAsk).2) := by
        have hlagBid : (s.mirror C).lagBid = C - s.lagAsk := hask.flip hmargin
        have hlagAsk : (s.mirror C).lagAsk = C - s.lagBid := hbid.flip hmargin
        have hleadMid : (s.mirror C).leadMid = C - s.leadMid := hlead.flip hmargin
        rw [hlagBid, hlagAsk, hleadMid, hopposite]
        exact ExecutionSimulator.submit_mirror hmargin hbid hask sig.side nowMs s.leadMid
      unfold act
      dsimp only
      rw [hsubmit]
      dsimp only
      split <;> rfl

lemma submit_side (sim : ExecutionSimulator) (side : Side) (signalTsMs : Int) (signalMid bid ask : ℚ)
    (o : PendingOrder) (ho : (sim.submit side signalTsMs signalMid bid ask).1.pending = some o) :
    sim.pending = some o ∨ o.side ≠ .none := by
  unfold ExecutionSimulator.submit at ho
  split at ho
  · exact .inl ho
  split at ho
  · exact .inl ho
  case isFalse hside =>
    split at ho
    · exact .inl ho
    · cases ho
      right
      rintro rfl
      exact hside ⟨by decide, by decide⟩

lemma act_sides (h : s.Banded margin C) (nowMs : Int) (answer : Option Signal × Strategy) :
    (∀ o, (s.act nowMs answer).sim.pending = some o → o.side ≠ .none) ∧
      (s.act nowMs answer).held = s.held := by
  obtain ⟨sig, strategy⟩ := answer
  cases sig with
  | none => exact ⟨h.orders, rfl⟩
  | some sig =>
    have hsides : ∀ o, (s.sim.submit sig.side nowMs s.leadMid s.lagBid s.lagAsk).1.pending = some o →
        o.side ≠ .none := by
      intro o ho
      obtain hold | hnew := submit_side _ _ _ _ _ _ o ho
      · exact h.orders o hold
      · exact hnew
    unfold act
    dsimp only
    split <;> exact ⟨hsides, rfl⟩

lemma evaluateQuote_mirror (hround : cfg.roundFourDecimals = false)
    (hbuffer : 0 ≤ cfg.latencyBufferPips) (hprofit : 0 ≤ cfg.minProfitMarginPips) (hmargin : 0 ≤ margin)
    (h : s.Banded margin C) (nowMs : Int) :
    (s.mirror C).evaluateQuote cfg nowMs = (s.evaluateQuote cfg nowMs).mirror C ∧
      (s.evaluateQuote cfg nowMs).Banded margin C := by
  have hlagBid : s.lagBid = 0 ∨ InBand margin C s.lagBid := h.lagQuote.imp And.left And.left
  have hlagAsk : s.lagAsk = 0 ∨ InBand margin C s.lagAsk := h.lagQuote.imp And.right And.right
  have hgate : (0 < (s.mirror C).leadMid ∧ 0 < (s.mirror C).lagBid ∧ 0 < (s.mirror C).lagAsk) ↔
      (0 < s.leadMid ∧ 0 < s.lagBid ∧ 0 < s.lagAsk) := by
    have hmid := flip_pos hmargin h.leadMid
    have hbid := flip_pos hmargin hlagAsk
    have hask := flip_pos hmargin hlagBid
    simp only [mirror, hmid, hbid, hask]
    exact and_congr_right (fun _ => and_comm)
  by_cases hset : 0 < s.leadMid ∧ 0 < s.lagBid ∧ 0 < s.lagAsk
  swap
  · rw [evaluateQuote_eq, evaluateQuote_eq, if_neg hset, if_neg (hgate.not.mpr hset)]
    exact ⟨rfl, h⟩
  have hlead := h.leadMid.resolve_left hset.1.ne'
  have hbid := hlagBid.resolve_left hset.2.1.ne'
  have hask := hlagAsk.resolve_left hset.2.2.ne'
  have hheader := (s.evaluateQuote_cases cfg nowMs).1
  have hfeeds := s.evaluateQuote_feeds cfg nowMs
  have hshown : (s.mirror C).shown nowMs = (s.shown nowMs).mirror C := by
    have hwidth : C - s.lagBid - (C - s.lagAsk) = s.lagAsk - s.lagBid := by ring
    have hlagBid : (s.mirror C).lagBid = C - s.lagAsk := hask.flip hmargin
    have hlagAsk : (s.mirror C).lagAsk = C - s.lagBid := hbid.flip hmargin
    rw [shown, hlagBid, hlagAsk, hwidth]
    rfl
  have hdecision : (Strategy.evaluate cfg (s.mirror C).leadMid ((s.mirror C).shown nowMs)).1 =
      (Strategy.evaluate cfg s.leadMid (s.shown nowMs)).1.opposite := by
    have hleadMid : (s.mirror C).leadMid = C - s.leadMid := hlead.flip hmargin
    rw [hshown, hleadMid]
    exact Strategy.evaluate_mirror C hround hbuffer hprofit s.leadMid (s.shown nowMs) rfl
  rw [evaluateQuote_eq, evaluateQuote_eq, if_pos hset, if_pos (hgate.mpr hset), hdecision]
  rw [evaluateQuote_eq, if_pos hset] at hheader hfeeds
  obtain ⟨hstrategy, hside⟩ := s.strategy.maybeEmit_mirror cfg
    (Strategy.evaluate cfg s.leadMid (s.shown nowMs)).1 s.leadMid (s.mirror C).leadMid (s.shown nowMs)
    ((s.mirror C).shown nowMs) nowMs
  obtain ⟨horders, hheld⟩ := act_sides h nowMs (s.strategy.maybeEmit cfg
    (Strategy.evaluate cfg s.leadMid (s.shown nowMs)).1 s.leadMid (s.shown nowMs) nowMs)
  exact ⟨act_mirror hmargin hlead hbid hask nowMs hstrategy hside,
    h.step hheader hfeeds (fun _ => ⟨hlead, hbid, hask⟩) horders (hheld ▸ h.held)⟩

/-! ## The loop -/

/-- Between two iterations the last quote is the current one. -/
structure LoopBanded (margin C : ℚ) (s : Replay) : Prop where
  banded : s.Banded margin C
  lastBid : s.lastBid = s.lagBid
  lastAsk : s.lastAsk = s.lagAsk

lemma mid_mirror (t : BinaryTick) : (t.mirror C).mid = C - t.mid := by
  unfold BinaryTick.mid BinaryTick.mirror
  ring

lemma inBand_mid {t : BinaryTick} (hbid : InBand margin C t.bid) (hask : InBand margin C t.ask) :
    InBand margin C t.mid := by
  obtain ⟨hbidLow, hbidHigh⟩ := hbid
  obtain ⟨haskLow, haskHigh⟩ := hask
  unfold BinaryTick.mid
  constructor <;> linarith

lemma leadTick_mirror (hmargin : 0 ≤ margin) (h : s.LoopBanded margin C) {t : BinaryTick}
    (ht : InBand margin C t.bid ∧ InBand margin C t.ask) :
    (s.mirror C).leadTick (t.mirror C) = (s.leadTick t).mirror C ∧
      (s.leadTick t).LoopBanded margin C := by
  have hvalid : (t.mirror C).isValid = t.isValid := rfl
  have hmid := inBand_mid ht.1 ht.2
  unfold leadTick
  rw [hvalid]
  cases t.isValid with
  | false => exact ⟨rfl, h⟩
  | true =>
    have hflip : (t.mirror C).mid = flip C t.mid := by rw [mid_mirror, hmid.flip hmargin]
    refine ⟨?_, ⟨h.banded.lead, h.banded.lag, .inr hmid, h.banded.lagQuote, ?_, h.banded.orders,
      h.banded.held, h.banded.params⟩, h.lastBid, h.lastAsk⟩
    · dsimp only
      rw [hflip]
      rfl
    · intro hbusy
      exact ⟨hmid, (h.banded.busy hbusy).2⟩

lemma lagTick_mirror (hround : cfg.roundFourDecimals = false)
    (hbuffer : 0 ≤ cfg.latencyBufferPips) (hprofit : 0 ≤ cfg.minProfitMarginPips) (hmargin : 0 ≤ margin)
    (h : s.LoopBanded margin C) {t : BinaryTick} (ht : InBand margin C t.bid ∧ InBand margin C t.ask) :
    (s.mirror C).lagTick cfg params (t.mirror C) = (s.lagTick cfg params t).mirror C ∧
      (s.lagTick cfg params t).LoopBanded margin C := by
  have hvalid : (t.mirror C).isValid = t.isValid := rfl
  have htime : (t.mirror C).tsMs = t.tsMs := rfl
  unfold lagTick
  rw [hvalid, htime]
  cases t.isValid with
  | false => exact ⟨rfl, h⟩
  | true =>
    have hquoted : (s.mirror C).quoted (t.mirror C) = (s.quoted t).mirror C := by
      unfold quoted mirror
      dsimp only
      rw [ht.1.flip hmargin, ht.2.flip hmargin]
      rfl
    have hbanded : (s.quoted t).Banded margin C :=
      ⟨h.banded.lead, h.banded.lag, h.banded.leadMid, .inr ht,
        fun hbusy => ⟨(h.banded.busy hbusy).1, ht⟩, h.banded.orders, h.banded.held, h.banded.params⟩
    obtain ⟨hfill, hfilled⟩ := handleFill_mirror params hmargin hbanded t.tsMs
    obtain ⟨hride, hridden⟩ := ride_mirror params hmargin hfilled t.tsMs
    obtain ⟨heval, hevaluated⟩ :=
      evaluateQuote_mirror cfg hround hbuffer hprofit hmargin hridden t.tsMs
    simp only [Bool.not_true, Bool.false_eq_true, if_false]
    rw [hquoted, hfill, hride, heval]
    exact ⟨rfl, hevaluated.same rfl rfl (fun _ ho => ho) (fun _ hp => .inl hp), rfl, rfl⟩

lemma pick_mirror (s : Replay) : (s.mirror C).pick =
    s.pick.map (fun p => (p.1, p.2.1.mirror C, p.2.2.mirror C)) := by
  have hlead : (s.mirror C).lead = s.lead.map (BinaryTick.mirror C) := rfl
  have hlag : (s.mirror C).lag = s.lag.map (BinaryTick.mirror C) := rfl
  unfold pick
  rw [hlead, hlag]
  cases s.lead with
  | nil => cases s.lag <;> rfl
  | cons a lead =>
    cases s.lag with
    | nil => rfl
    | cons b lag =>
      have htimes : (a.mirror C).tsMs = a.tsMs ∧ (b.mirror C).tsMs = b.tsMs := ⟨rfl, rfl⟩
      simp only [List.map_cons, htimes.1, htimes.2]
      split <;> rfl

/-- The tick taken is in the band, and so is everything else. -/
lemma pick_banded (h : s.LoopBanded margin C) {s' : Replay} {feed : Feed} {t : BinaryTick}
    (hp : s.pick = some (feed, t, s')) :
    (InBand margin C t.bid ∧ InBand margin C t.ask) ∧ s'.LoopBanded margin C := by
  obtain ⟨hlead, hlag, hmid, hquote, hbusy, horders, hheld, hparams⟩ := h.banded
  unfold pick at hp
  split at hp
  · cases hp
  · rename_i hl hg
    cases hp
    rw [hl] at hlead
    exact ⟨hlead _ (List.mem_cons_self ..), ⟨fun u hu => hlead u (List.mem_cons_of_mem _ hu), hlag, hmid,
      hquote, hbusy, horders, hheld, hparams⟩, h.lastBid, h.lastAsk⟩
  · rename_i hl hg
    cases hp
    rw [hg] at hlag
    exact ⟨hlag _ (List.mem_cons_self ..), ⟨hlead, fun u hu => hlag u (List.mem_cons_of_mem _ hu), hmid,
      hquote, hbusy, horders, hheld, hparams⟩, h.lastBid, h.lastAsk⟩
  · rename_i hl hg
    split at hp
    · cases hp
      rw [hl] at hlead
      exact ⟨hlead _ (List.mem_cons_self ..), ⟨fun u hu => hlead u (List.mem_cons_of_mem _ hu), hlag,
        hmid, hquote, hbusy, horders, hheld, hparams⟩, h.lastBid, h.lastAsk⟩
    · cases hp
      rw [hg] at hlag
      exact ⟨hlag _ (List.mem_cons_self ..), ⟨hlead, fun u hu => hlag u (List.mem_cons_of_mem _ hu),
        hmid, hquote, hbusy, horders, hheld, hparams⟩, h.lastBid, h.lastAsk⟩

/-- The step lemma of the simulation: an iteration commutes with the mirror. -/
lemma next_mirror (hround : cfg.roundFourDecimals = false)
    (hbuffer : 0 ≤ cfg.latencyBufferPips) (hprofit : 0 ≤ cfg.minProfitMarginPips) (hmargin : 0 ≤ margin)
    (h : s.LoopBanded margin C) :
    next cfg params (s.mirror C) = (next cfg params s).map (Replay.mirror C) ∧
      ∀ t, next cfg params s = some t → t.LoopBanded margin C := by
  unfold next
  rw [pick_mirror]
  cases hp : s.pick with
  | none => exact ⟨rfl, by simp⟩
  | some picked =>
    obtain ⟨feed, tick, s'⟩ := picked
    obtain ⟨htick, hs'⟩ := pick_banded h hp
    cases feed with
    | lead =>
      obtain ⟨hmirror, hbanded⟩ := leadTick_mirror hmargin hs' htick
      refine ⟨congrArg some hmirror, ?_⟩
      rintro t ⟨⟩
      exact hbanded
    | lag =>
      obtain ⟨hmirror, hbanded⟩ :=
        lagTick_mirror cfg params hround hbuffer hprofit hmargin hs' htick
      refine ⟨congrArg some hmirror, ?_⟩
      rintro t ⟨⟩
      exact hbanded

/-! ## The result -/

lemma handleFill_last (s : Replay) (nowMs : Int) :
    (s.handleFill params nowMs).lastBid = s.lastBid ∧
      (s.handleFill params nowMs).lastAsk = s.lastAsk := by
  unfold handleFill
  split
  · exact ⟨rfl, rfl⟩
  dsimp only
  split
  · split <;> exact ⟨rfl, rfl⟩
  · exact ⟨rfl, rfl⟩

lemma forceClose_mirror (hmargin : 0 ≤ margin) (h : s.LoopBanded margin C) (nowMs : Int) :
    (s.mirror C).forceClose params nowMs = (s.forceClose params nowMs).mirror C := by
  unfold forceClose
  cases hh : s.held with
  | none =>
    have hnone : (s.mirror C).held = none := by rw [mirror, hh]; rfl
    rw [hnone]
  | some p =>
    have hsome : (s.mirror C).held = some (p.mirror C) := by rw [mirror, hh]; rfl
    obtain ⟨-, hbid, hask⟩ := h.banded.busy (.inr (by rw [hh]; rfl))
    rw [← h.lastBid] at hbid
    rw [← h.lastAsk] at hask
    have hlastBid : (s.mirror C).lastBid = C - s.lastAsk := hask.flip hmargin
    have hlastAsk : (s.mirror C).lastAsk = C - s.lastBid := hbid.flip hmargin
    have hquoted : ¬(s.lastBid ≤ 0 ∨ s.lastAsk ≤ 0) :=
      not_or.mpr ⟨not_le.mpr (hbid.pos hmargin), not_le.mpr (hask.pos hmargin)⟩
    have hquoted' : ¬((s.mirror C).lastBid ≤ 0 ∨ (s.mirror C).lastAsk ≤ 0) := by
      rw [hlastBid, hlastAsk]
      exact not_or.mpr ⟨not_le.mpr (hask.mirror.pos hmargin), not_le.mpr (hbid.mirror.pos hmargin)⟩
    rw [hsome]
    dsimp only
    rw [if_neg hquoted, if_neg hquoted', hlastBid, hlastAsk]
    exact closeOpen_mirror params s nowMs _ _ _ _ true h.banded.held (fun _ => .inl rfl)

lemma start_mirror (delayMs : Int) {lead lag : List BinaryTick} (hlead : lead ≠ []) (hlag : lag ≠ []) :
    start params delayMs (lead.map (BinaryTick.mirror C)) (lag.map (BinaryTick.mirror C)) =
      (start params delayMs lead lag).mirror C := by
  have hhead : ∀ ticks : List BinaryTick, ticks ≠ [] →
      (ticks.map (BinaryTick.mirror C)).head!.tsMs = ticks.head!.tsMs := by
    intro ticks hticks
    obtain ⟨t, rest, rfl⟩ := List.exists_cons_of_ne_nil hticks
    rfl
  have hlast : ∀ ticks : List BinaryTick, ticks ≠ [] →
      (ticks.map (BinaryTick.mirror C)).getLast!.tsMs = ticks.getLast!.tsMs := by
    intro ticks hticks
    rw [List.getLast!_eq_getLast?_getD, List.getLast!_eq_getLast?_getD, List.getLast?_map,
      List.getLast?_eq_some_getLast hticks]
    rfl
  unfold start
  dsimp only
  rw [hhead lead hlead, hhead lag hlag, hlast lead hlead, hlast lag hlag]
  rfl

lemma start_loopBanded (delayMs : Int) {lead lag : List BinaryTick}
    (hparams : params.spreadMarkupPts + params.slippagePts = margin)
    (hlead : ∀ t ∈ lead, InBand margin C t.bid ∧ InBand margin C t.ask)
    (hlag : ∀ t ∈ lag, InBand margin C t.bid ∧ InBand margin C t.ask) :
    (start params delayMs lead lag).LoopBanded margin C :=
  ⟨⟨hlead, hlag, .inl rfl, .inl ⟨rfl, rfl⟩, by simp [start], by simp [start], by simp [start], hparams⟩,
    rfl, rfl⟩

lemma replayed_mirror (hround : cfg.roundFourDecimals = false)
    (hbuffer : 0 ≤ cfg.latencyBufferPips) (hprofit : 0 ≤ cfg.minProfitMarginPips) (hmargin : 0 ≤ margin)
    (hparams : params.spreadMarkupPts + params.slippagePts = margin) (delayMs : Int)
    {lead lag : List BinaryTick} (hlead : ∀ t ∈ lead, InBand margin C t.bid ∧ InBand margin C t.ask)
    (hlag : ∀ t ∈ lag, InBand margin C t.bid ∧ InBand margin C t.ask) (hne : lead ≠ []) (hne' : lag ≠ []) :
    replayed cfg params delayMs (lead.map (BinaryTick.mirror C)) (lag.map (BinaryTick.mirror C)) =
        (replayed cfg params delayMs lead lag).mirror C ∧
      (replayed cfg params delayMs lead lag).LoopBanded margin C := by
  have hstart := start_loopBanded params delayMs hparams hlead hlag
  have hnext : ∀ s : Replay, s.LoopBanded margin C →
      next cfg params (s.mirror C) = (next cfg params s).map (Replay.mirror C) ∧
        ∀ t, next cfg params s = some t → t.LoopBanded margin C :=
    fun s h => next_mirror cfg params hround hbuffer hprofit hmargin h
  unfold replayed
  rw [start_mirror params delayMs hne hne', List.length_map, List.length_map]
  refine ⟨?_, (Loop.run_invariant (fun s t h => (hnext s h).2 t) hstart _).1⟩
  exact Loop.run_map (Replay.mirror C) (fun s t h => (hnext s h).2 t) (fun s h => (hnext s h).1) hstart _

lemma runImpl_mirror (hround : cfg.roundFourDecimals = false)
    (hbuffer : 0 ≤ cfg.latencyBufferPips) (hprofit : 0 ≤ cfg.minProfitMarginPips) (hmargin : 0 ≤ margin)
    (hparams : params.spreadMarkupPts + params.slippagePts = margin) (delayMs : Int)
    {lead lag : List BinaryTick} (hlead : ∀ t ∈ lead, InBand margin C t.bid ∧ InBand margin C t.ask)
    (hlag : ∀ t ∈ lag, InBand margin C t.bid ∧ InBand margin C t.ask) :
    runImpl cfg params delayMs (lead.map (BinaryTick.mirror C)) (lag.map (BinaryTick.mirror C)) =
      (runImpl cfg params delayMs lead lag).mirror C := by
  have hempty : (lead.map (BinaryTick.mirror C) = [] ∨ lag.map (BinaryTick.mirror C) = []) ↔
      (lead = [] ∨ lag = []) := by
    rw [List.map_eq_nil_iff, List.map_eq_nil_iff]
  unfold runImpl
  rw [if_congr hempty rfl rfl]
  by_cases hnone : lead = [] ∨ lag = []
  · rw [if_pos hnone, if_pos hnone]
    rfl
  obtain ⟨hne, hne'⟩ := not_or.mp hnone
  obtain ⟨hreplayed, hbanded⟩ :=
    replayed_mirror cfg params hround hbuffer hprofit hmargin hparams delayMs hlead hlag hne hne'
  rw [if_neg hnone, if_neg hnone, hreplayed]
  dsimp only
  have hdrain : ((replayed cfg params delayMs lead lag).mirror C).drainMs =
      (replayed cfg params delayMs lead lag).drainMs := rfl
  obtain ⟨hfill, hfilled⟩ := handleFill_mirror params hmargin hbanded.banded
    (replayed cfg params delayMs lead lag).drainMs
  obtain ⟨hlastBid, hlastAsk⟩ := (replayed cfg params delayMs lead lag).handleFill_last params
    (replayed cfg params delayMs lead lag).drainMs
  have hfeeds := (replayed cfg params delayMs lead lag).handleFill_feeds params
    (replayed cfg params delayMs lead lag).drainMs
  have hlast : ((replayed cfg params delayMs lead lag).handleFill params
      (replayed cfg params delayMs lead lag).drainMs).LoopBanded margin C :=
    ⟨hfilled, hlastBid.trans (hbanded.lastBid.trans (congrArg Feeds.lagBid hfeeds).symm),
      hlastAsk.trans (hbanded.lastAsk.trans (congrArg Feeds.lagAsk hfeeds).symm)⟩
  rw [hdrain, hfill, forceClose_mirror params hmargin hlast]
  rfl

/-- `sharpe_of` in exact arithmetic, where the square root is a real number. -/
noncomputable def sharpeOf (trades : List Trade) (filled : Nat) : ℝ :=
  if filled < 2 then 0
  else
    let mean : ℚ := (trades.map Trade.pnl).sum / filled
    let var : ℚ := (trades.map (fun t => (t.pnl - mean) * (t.pnl - mean))).sum / filled
    let sd := Real.sqrt var
    if sd ≤ 1 / 1000000000000 then 0 else mean / sd

lemma sharpeOf_mirror (trades : List Trade) (filled : Nat) :
    sharpeOf (trades.map (Trade.mirror C)) filled = sharpeOf trades filled := by
  have hmap : ∀ f : Trade → ℚ, (∀ t : Trade, f (t.mirror C) = f t) →
      (trades.map (Trade.mirror C)).map f = trades.map f := by
    intro f hf
    rw [List.map_map]
    exact List.map_congr_left (fun t _ => hf t)
  simp only [sharpeOf, hmap Trade.pnl (fun _ => rfl)]
  rw [hmap _ (fun _ => rfl)]

/-- The replay of the mirrored streams is the mirror image of the replay: the same counts, equity curve
and metrics, and the same trades on the opposite sides at the mirrored prices. -/
theorem mirrored_replay (C : ℚ) (delayMs : Int) (lead lag : List BinaryTick)
    (hround : cfg.roundFourDecimals = false) (hbuffer : 0 ≤ cfg.latencyBufferPips)
    (hprofit : 0 ≤ cfg.minProfitMarginPips) (hmarkup : 0 ≤ params.spreadMarkupPts)
    (hslippage : 0 ≤ params.slippagePts)
    (hlead : ∀ t ∈ lead, InBand (params.spreadMarkupPts + params.slippagePts) C t.bid ∧
      InBand (params.spreadMarkupPts + params.slippagePts) C t.ask)
    (hlag : ∀ t ∈ lag, InBand (params.spreadMarkupPts + params.slippagePts) C t.bid ∧
      InBand (params.spreadMarkupPts + params.slippagePts) C t.ask) :
    let r := runImpl cfg params delayMs lead lag
    let r' := runImpl cfg params delayMs (lead.map (BinaryTick.mirror C)) (lag.map (BinaryTick.mirror C))
    r' = { r with trades := r.trades.map (Trade.mirror C) } ∧
      sharpeOf r'.trades r'.fills = sharpeOf r.trades r.fills := by
  intro r r'
  have hmirror : r' = r.mirror C := runImpl_mirror cfg params hround hbuffer hprofit
    (add_nonneg hmarkup hslippage) rfl delayMs hlead hlag
  refine ⟨hmirror, ?_⟩
  rw [hmirror]
  exact sharpeOf_mirror r.trades r.fills

theorem mirrored_replay_minute :
    (runImpl { roundFourDecimals := false } { spreadMarkupPts := 1 / 2, slippagePts := 1 / 4 } 5
        (minuteLead.map (BinaryTick.mirror 300)) (minuteLag.map (BinaryTick.mirror 300))).trades =
      (runImpl { roundFourDecimals := false } { spreadMarkupPts := 1 / 2, slippagePts := 1 / 4 } 5
        minuteLead minuteLag).trades.map (Trade.mirror 300) ∧
      (runImpl { roundFourDecimals := false } { spreadMarkupPts := 1 / 2, slippagePts := 1 / 4 } 5
        minuteLead minuteLag).trades.map (fun t => (t.side, t.fillPrice)) = [(.buy, 403 / 4)] := by
  have hticks : ∀ t ∈ minuteLead ++ minuteLag, InBand (1 / 2 + 1 / 4) 300 t.bid ∧
      InBand (1 / 2 + 1 / 4) 300 t.ask := by decide +kernel
  obtain ⟨hlead, hlag⟩ := List.forall_mem_append.mp hticks
  refine ⟨congrArg BacktestResult.trades (mirrored_replay { roundFourDecimals := false }
    { spreadMarkupPts := 1 / 2, slippagePts := 1 / 4 } 300 5 minuteLead minuteLag rfl ?_ ?_ ?_ ?_ hlead
      hlag).1, ?_⟩
  all_goals decide +kernel

end Replay

end LatencyArb
