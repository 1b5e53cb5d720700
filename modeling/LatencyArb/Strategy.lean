import LatencyArb.Config
import LatencyArb.Tick
import LatencyArb.Library.Decimal

/-!
# The strategy and its risk gates (`src/strategy.cpp`)
-/

namespace LatencyArb

inductive Side where
  | buy | sell | none
  deriving DecidableEq, Repr, Inhabited

structure Signal where
  side : Side
  lead : ℚ
  brokerBid : ℚ
  brokerAsk : ℚ
  threshold : ℚ
  edge : ℚ
  tsMs : Int
  symbol : String
  reason : String
  deriving DecidableEq

inductive Decision where
  | long | short | hold
  deriving DecidableEq, Repr

/-- The risk state of `Strategy`, owned by the strategy thread. -/
structure Strategy where
  openLots : Int := 0
  dayPnl : ℚ := 0
  ordersThisInterval : Int := 0
  intervalStartMs : Int := 0
  lastSignalMs : Int := 0
  deriving DecidableEq

namespace Strategy

def round4 (cfg : Config) (v : ℚ) : ℚ :=
  if !cfg.roundFourDecimals then v else roundAway (v * 10000) / 10000

def dynamicThreshold (cfg : Config) (q : BrokerQuote) : ℚ :=
  let t := if q.spread ≤ 0 then |q.ask - q.bid| else q.spread
  max (t + cfg.latencyBufferPips + cfg.minProfitMarginPips) cfg.thresholdPips

/-- `evaluate` with its out-parameter, the threshold, as the second component. -/
def evaluate (cfg : Config) (lead : ℚ) (q : BrokerQuote) : Decision × ℚ :=
  let threshold := dynamicThreshold cfg q
  let lead := round4 cfg lead
  let bid := round4 cfg q.bid
  let ask := round4 cfg q.ask
  if ask + threshold < lead then (.long, threshold)
  else if lead + threshold < bid then (.short, threshold)
  else (.hold, threshold)

@[simp] lemma evaluate_threshold (cfg : Config) (lead : ℚ) (q : BrokerQuote) :
    (evaluate cfg lead q).2 = dynamicThreshold cfg q := by
  unfold evaluate
  dsimp only
  split
  · rfl
  · split <;> rfl

def intervalSpent (cfg : Config) (s : Strategy) (nowMs : Int) : Bool :=
  if s.intervalStartMs = 0 then false
  else decide (cfg.intervalSeconds ≤ (nowMs - s.intervalStartMs).tdiv 1000)

def canTradeNow (cfg : Config) (s : Strategy) (nowMs : Int) : Bool :=
  if cfg.maxOpenLots ≤ s.openLots then false
  else if s.dayPnl ≤ -cfg.maxDailyLoss then false
  else if s.intervalSpent cfg nowMs then true
  else decide (s.ordersThisInterval < cfg.maxOrdersPerInterval)

lemma lots_of_canTradeNow {cfg : Config} {s : Strategy} {nowMs : Int}
    (h : s.canTradeNow cfg nowMs = true) : s.openLots < cfg.maxOpenLots := by
  unfold canTradeNow at h
  by_contra hlots
  rw [if_pos (not_lt.mp hlots)] at h
  cases h

/-- The assignment to the window start only ever replaces 0 by 0. -/
def onOrderPlaced (s : Strategy) : Strategy :=
  { s with
    openLots := s.openLots + 1
    intervalStartMs := if s.intervalStartMs = 0 then 0 else s.intervalStartMs
    ordersThisInterval := s.ordersThisInterval + 1 }

def onOrderClosed (s : Strategy) (realizedPnl commissions : ℚ) : Strategy :=
  { s with
    dayPnl := s.dayPnl + (realizedPnl - commissions)
    openLots := if 0 < s.openLots then s.openLots - 1 else s.openLots }

/-- The signal that `maybe_emit` fills in once every gate is passed. -/
def signalOf (cfg : Config) (d : Decision) (lead : ℚ) (q : BrokerQuote) (nowMs : Int) : Signal :=
  let th := (evaluate cfg lead q).2
  { side := if d = .long then .buy else .sell
    lead := lead
    brokerBid := q.bid
    brokerAsk := q.ask
    threshold := th
    edge := if d = .long then round4 cfg lead - round4 cfg q.ask - th
      else round4 cfg q.bid - round4 cfg lead - th
    tsMs := nowMs
    symbol := cfg.dryRunSymbol
    reason := if d = .long then "lead_gt_ask" else "bid_gt_lead" }

def maybeEmit (cfg : Config) (s : Strategy) (d : Decision) (lead : ℚ) (q : BrokerQuote)
    (nowMs : Int) : Option Signal × Strategy :=
  if d = .hold then (none, s)
  else if !s.canTradeNow cfg nowMs then (none, s)
  else if s.lastSignalMs ≠ 0 ∧ nowMs - s.lastSignalMs < cfg.intervalSeconds * 1000 then (none, s)
  else (some (signalOf cfg d lead q nowMs), { s with lastSignalMs := nowMs })

/-- All that `maybe_emit` can do: nothing, or emit with every gate open and stamp the time. -/
lemma maybeEmit_cases (cfg : Config) (s : Strategy) (d : Decision) (lead : ℚ) (q : BrokerQuote)
    (nowMs : Int) :
    s.maybeEmit cfg d lead q nowMs = (none, s) ∨
      (d ≠ .hold ∧ s.canTradeNow cfg nowMs = true ∧
        s.maybeEmit cfg d lead q nowMs =
          (some (signalOf cfg d lead q nowMs), { s with lastSignalMs := nowMs })) := by
  unfold maybeEmit
  by_cases hd : d = .hold
  · exact .inl (if_pos hd)
  rw [if_neg hd]
  by_cases ht : s.canTradeNow cfg nowMs = true
  · rw [ht, if_neg (by simp)]
    split
    · exact .inl rfl
    · exact .inr ⟨hd, rfl, rfl⟩
  · exact .inl (if_pos (by simpa using ht))

/-! ## Histories of calls -/

inductive Call where
  | maybeEmit (d : Decision) (lead : ℚ) (q : BrokerQuote) (nowMs : Int)
  | onOrderPlaced (emittedMs : Int)  -- dated by the `maybeEmit` that produced the order
  | onOrderClosed (realizedPnl commissions : ℚ)

def call (cfg : Config) (s : Strategy) : Call → Strategy
  | .maybeEmit d lead q nowMs => (s.maybeEmit cfg d lead q nowMs).2
  | .onOrderPlaced _ => s.onOrderPlaced
  | .onOrderClosed realizedPnl commissions => s.onOrderClosed realizedPnl commissions

def after (cfg : Config) (calls : List Call) : Strategy := calls.foldl (call cfg) {}

def placedAt : Call → Option Int
  | .onOrderPlaced emittedMs => some emittedMs
  | _ => none

/-- The dates of all orders placed in the history. -/
def placements (calls : List Call) : List Int := calls.filterMap placedAt

/-- The orders placed during the `interval_seconds` that end at `nowMs`. -/
def recentPlacements (cfg : Config) (calls : List Call) (nowMs : Int) : List Int :=
  (placements calls).filter (fun t => decide (nowMs - cfg.intervalSeconds * 1000 < t ∧ t ≤ nowMs))

/-- The histories in question: `maybe_emit` calls at nondecreasing positive times, and every placed
order dated by the signal emitted last before it, which is placed once. -/
def WellDated (cfg : Config) : Strategy → Option Int → Int → List Call → Prop
  | _, _, _, [] => True
  | s, emitted, last, .maybeEmit d lead q nowMs :: calls =>
    0 < nowMs ∧ last ≤ nowMs ∧ WellDated cfg (s.maybeEmit cfg d lead q nowMs).2
      (if (s.maybeEmit cfg d lead q nowMs).1.isSome then some nowMs else emitted) nowMs calls
  | s, emitted, last, .onOrderPlaced emittedMs :: calls =>
    emitted = some emittedMs ∧ WellDated cfg s.onOrderPlaced none last calls
  | s, emitted, last, .onOrderClosed realizedPnl commissions :: calls =>
    WellDated cfg (s.onOrderClosed realizedPnl commissions) emitted last calls

lemma call_intervalStart (cfg : Config) (s : Strategy) (c : Call) (h : s.intervalStartMs = 0) :
    (s.call cfg c).intervalStartMs = 0 := by
  cases c with
  | maybeEmit d lead q nowMs =>
    obtain he | ⟨-, -, he⟩ := s.maybeEmit_cases cfg d lead q nowMs <;>
      simp only [call, he] <;> exact h
  | onOrderPlaced emittedMs => simp [call, onOrderPlaced, h]
  | onOrderClosed realizedPnl commissions => exact h

lemma call_orders (cfg : Config) (s : Strategy) (c : Call) :
    (s.call cfg c).ordersThisInterval = s.ordersThisInterval + (placements [c]).length := by
  cases c with
  | maybeEmit d lead q nowMs =>
    obtain he | ⟨-, -, he⟩ := s.maybeEmit_cases cfg d lead q nowMs <;>
      simp [call, he, placements, placedAt]
  | onOrderPlaced emittedMs => simp [call, onOrderPlaced, placements, placedAt]
  | onOrderClosed realizedPnl commissions => simp [call, onOrderClosed, placements, placedAt]

/-- Along every history the window start stays 0 and the counter counts every order ever placed. -/
theorem after_counts_placements (cfg : Config) (calls : List Call) :
    (after cfg calls).intervalStartMs = 0 ∧
      (after cfg calls).ordersThisInterval = (placements calls).length := by
  induction calls using List.reverseRecOn with
  | nil => exact ⟨rfl, rfl⟩
  | append_singleton calls c ih =>
    have hstep : after cfg (calls ++ [c]) = (after cfg calls).call cfg c := by
      rw [after, List.foldl_append, List.foldl_cons, List.foldl_nil, after]
    have hsplit : (placements (calls ++ [c])).length =
        (placements calls).length + (placements [c]).length := by
      rw [placements, List.filterMap_append, List.length_append, placements, placements]
    rw [hstep, hsplit, call_orders, ih.2, Nat.cast_add]
    exact ⟨call_intervalStart cfg _ c ih.1, rfl⟩

/-- With a lot free and the loss limit not reached, trading is allowed at `nowMs` exactly when fewer
orders than the cap were placed in the whole history, however few of them are recent: no interval
ever expires. -/
theorem canTradeNow_iff_placements (cfg : Config) (calls : List Call) (nowMs : Int)
    (hlots : (after cfg calls).openLots < cfg.maxOpenLots)
    (hpnl : -cfg.maxDailyLoss < (after cfg calls).dayPnl) :
    (after cfg calls).canTradeNow cfg nowMs = true ↔
      ((placements calls).length : Int) < cfg.maxOrdersPerInterval := by
  obtain ⟨hstart, horders⟩ := after_counts_placements cfg calls
  have hspent : (after cfg calls).intervalSpent cfg nowMs = false := by
    rw [intervalSpent, if_pos hstart]
  rw [canTradeNow, if_neg (not_le.mpr hlots), if_neg (not_le.mpr hpnl), hspent,
    if_neg (by decide), horders, decide_eq_true_eq]

def oneOrder : List Call :=
  [.maybeEmit .long 102 { bid := 99, ask := 100, spread := 1, valid := 1 } 1000,
   .onOrderPlaced 1000, .onOrderClosed 0 0]

/-- Under a cap of two the one order, placed and closed at one second, leaves room for another:
an hour later, with its interval long expired, trading is allowed. -/
theorem canTradeNow_below_cap :
    WellDated { maxOrdersPerInterval := 2 } {} none 0 oneOrder ∧
      placements oneOrder = [1000] ∧
      recentPlacements { maxOrdersPerInterval := 2 } oneOrder 3601000 = [] ∧
      (after { maxOrdersPerInterval := 2 } oneOrder).canTradeNow { maxOrdersPerInterval := 2 }
        3601000 = true := by
  refine ⟨⟨by decide, by decide, ?_, trivial⟩, rfl, ?_, ?_⟩
  · decide +kernel
  · decide +kernel
  · exact (canTradeNow_iff_placements { maxOrdersPerInterval := 2 } oneOrder 3601000
      (by decide +kernel) (by decide +kernel)).mpr (by decide +kernel)

/-- One order at one second past the start, closed at once, with a cap of one order a minute:
an hour later trading is still blocked. -/
theorem canTradeNow_blocked_by_expired_order :
    WellDated { maxOrdersPerInterval := 1 } {} none 0 oneOrder ∧
      (after { maxOrdersPerInterval := 1 } oneOrder).openLots < 1 ∧
      (-500 : ℚ) < (after { maxOrdersPerInterval := 1 } oneOrder).dayPnl ∧
      recentPlacements { maxOrdersPerInterval := 1 } oneOrder 3601000 = [] ∧
      (after { maxOrdersPerInterval := 1 } oneOrder).canTradeNow { maxOrdersPerInterval := 1 }
        3601000 = false := by
  refine ⟨⟨by decide, by decide, ?_, trivial⟩, ?_, ?_, ?_, ?_⟩ <;> decide +kernel

end Strategy

end LatencyArb
