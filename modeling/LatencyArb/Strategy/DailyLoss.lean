import LatencyArb.Strategy

/-!
# The daily loss limit

The strategy adds up the P&L of all orders it has seen closed. Its loss test is the test of a day only
when the days before have come out even.
-/

namespace LatencyArb

namespace Strategy

/-- The UTC day of an epoch time. -/
def day (ms : Int) : Int := ms / 86400000

/-- What a call adds to `day_pnl_`. -/
def realized : Call → ℚ
  | .onOrderClosed realizedPnl commissions => realizedPnl - commissions
  | _ => 0

/-- The P&L of a dated history. -/
def pnlOf (history : List (Int × Call)) : ℚ := (history.map (fun c => realized c.2)).sum

/-- The part of the P&L that was realised on the day `d`. -/
def pnlOn (d : Int) (history : List (Int × Call)) : ℚ :=
  pnlOf (history.filter (fun c => decide (day c.1 = d)))

def afterDated (cfg : Config) (history : List (Int × Call)) : Strategy :=
  after cfg (history.map Prod.snd)

/-- The daily-loss test of `can_trade_now`. -/
def lossHit (cfg : Config) (s : Strategy) : Bool := decide (s.dayPnl ≤ -cfg.maxDailyLoss)

lemma canTradeNow_of_lossHit {cfg : Config} {s : Strategy} (h : s.lossHit cfg = true) (nowMs : Int) :
    s.canTradeNow cfg nowMs = false := by
  unfold canTradeNow
  rw [if_pos (of_decide_eq_true h), ite_self]

@[simp] lemma pnlOf_append (older newer : List (Int × Call)) :
    pnlOf (older ++ newer) = pnlOf older + pnlOf newer := by
  simp [pnlOf]

lemma call_dayPnl (cfg : Config) (s : Strategy) (c : Call) :
    (s.call cfg c).dayPnl = s.dayPnl + realized c := by
  cases c with
  | maybeEmit d lead q nowMs =>
    obtain he | ⟨-, -, he⟩ := s.maybeEmit_cases cfg d lead q nowMs <;> simp [call, he, realized]
  | onOrderPlaced emittedMs => simp [call, onOrderPlaced, realized]
  | onOrderClosed realizedPnl commissions => simp [call, onOrderClosed, realized]

/-- Along every history `day_pnl_` is the P&L of the whole history. -/
lemma afterDated_dayPnl (cfg : Config) (history : List (Int × Call)) :
    (afterDated cfg history).dayPnl = pnlOf history := by
  induction history using List.reverseRecOn with
  | nil => rfl
  | append_singleton history c ih =>
    have hstep : afterDated cfg (history ++ [c]) = (afterDated cfg history).call cfg c.2 := by
      simp [afterDated, after]
    rw [hstep, call_dayPnl, ih, pnlOf_append]
    simp [pnlOf]

/-- Calls dated at nondecreasing times, none of them after `nowMs`. -/
structure DatedUntil (nowMs : Int) (history : List (Int × Call)) : Prop where
  sorted : history.Pairwise (fun a b => a.1 ≤ b.1)
  past : ∀ c ∈ history, c.1 ≤ nowMs

lemma pnlOn_of_day {d : Int} {earlier today : List (Int × Call)}
    (hearlier : ∀ c ∈ earlier, day c.1 < d) (htoday : ∀ c ∈ today, day c.1 = d) :
    pnlOn d (earlier ++ today) = pnlOf today := by
  have hnone : earlier.filter (fun c => decide (day c.1 = d)) = [] := by
    rw [List.filter_eq_nil_iff]
    intro c hc
    have hbefore := hearlier c hc
    simp only [decide_eq_true_eq]
    omega
  have hall : today.filter (fun c => decide (day c.1 = d)) = today :=
    List.filter_eq_self.mpr (fun c hc => decide_eq_true (htoday c hc))
  rw [pnlOn, List.filter_append, hnone, hall, List.nil_append]

lemma le_of_day_lt {a b : Int} (h : day a < day b) : a ≤ b := by
  unfold day at h
  omega

/-- One order closed now, with the P&L at which the test of the day and the test of the strategy part. -/
def partingClose (cfg : Config) (earlier : List (Int × Call)) (nowMs : Int) : Int × Call :=
  (nowMs, .onOrderClosed
    (if pnlOf earlier < 0 then -cfg.maxDailyLoss - pnlOf earlier / 2 else -cfg.maxDailyLoss) 0)

lemma partingClose_parts (cfg : Config) {earlier : List (Int × Call)} (nowMs : Int)
    (hpnl : pnlOf earlier ≠ 0) :
    ¬(pnlOf (earlier ++ [partingClose cfg earlier nowMs]) ≤ -cfg.maxDailyLoss ↔
      pnlOf [partingClose cfg earlier nowMs] ≤ -cfg.maxDailyLoss) := by
  have hclose : pnlOf [partingClose cfg earlier nowMs] =
      if pnlOf earlier < 0 then -cfg.maxDailyLoss - pnlOf earlier / 2 else -cfg.maxDailyLoss := by
    simp [partingClose, pnlOf, realized]
  rw [pnlOf_append, hclose]
  generalize pnlOf earlier = before at hpnl
  split
  case isTrue hloss =>
    intro hiff
    have hboth := hiff.mp (by linarith)
    linarith
  case isFalse hgain =>
    have hpos : 0 < before := lt_of_le_of_ne (not_lt.mp hgain) (Ne.symm hpnl)
    intro hiff
    have hboth := hiff.mpr (by linarith)
    linarith

/-- For every configuration, every dated history of earlier days and every time: whatever happens on the
day itself, the daily-loss test comes out as it would for the P&L of that day alone, exactly when the
P&L of the earlier days sums to zero. -/
theorem lossHit_daily_iff (cfg : Config) (earlier : List (Int × Call)) (nowMs : Int)
    (hdated : DatedUntil nowMs earlier) (hearlier : ∀ c ∈ earlier, day c.1 < day nowMs) :
    (∀ today : List (Int × Call), (∀ c ∈ today, day c.1 = day nowMs) →
      DatedUntil nowMs (earlier ++ today) →
        ((afterDated cfg (earlier ++ today)).lossHit cfg = true ↔
          pnlOn (day nowMs) (earlier ++ today) ≤ -cfg.maxDailyLoss)) ↔
      pnlOf earlier = 0 := by
  have htest : ∀ today : List (Int × Call), (∀ c ∈ today, day c.1 = day nowMs) →
      ((afterDated cfg (earlier ++ today)).lossHit cfg = true ↔
        pnlOf (earlier ++ today) ≤ -cfg.maxDailyLoss) ∧
      pnlOn (day nowMs) (earlier ++ today) = pnlOf today := by
    intro today htoday
    rw [lossHit, decide_eq_true_eq, afterDated_dayPnl]
    exact ⟨Iff.rfl, pnlOn_of_day hearlier htoday⟩
  constructor
  · intro hdaily
    by_contra hpnl
    have htoday : ∀ c ∈ [partingClose cfg earlier nowMs], day c.1 = day nowMs := by
      simp [partingClose]
    have hdated' : DatedUntil nowMs (earlier ++ [partingClose cfg earlier nowMs]) := by
      constructor
      · refine List.pairwise_append.mpr ⟨hdated.sorted, List.pairwise_singleton _ _, ?_⟩
        intro c hc c' hc'
        rw [List.mem_singleton.mp hc']
        exact le_of_day_lt (hearlier c hc)
      · rw [List.forall_mem_append]
        exact ⟨hdated.past, by simp [partingClose]⟩
    obtain ⟨hstrategy, hday⟩ := htest _ htoday
    have hiff := hdaily _ htoday hdated'
    rw [hstrategy, hday] at hiff
    exact partingClose_parts cfg nowMs hpnl hiff
  · intro hpnl today htoday _
    obtain ⟨hstrategy, hday⟩ := htest today htoday
    rw [hstrategy, hday, pnlOf_append, hpnl, zero_add]

/-- A gain and a loss of 50 on the first day, which leave the second day its own test. -/
theorem lossHit_after_even_day :
    (afterDated {} [((1000 : Int), Call.onOrderClosed 50 0), (2000, .onOrderClosed (-50) 0),
        (86400000, .onOrderClosed (-499) 0)]).lossHit {} = true ↔
      pnlOn (day 86400000) [((1000 : Int), Call.onOrderClosed 50 0), (2000, .onOrderClosed (-50) 0),
        (86400000, .onOrderClosed (-499) 0)] ≤ -({} : Config).maxDailyLoss :=
  (lossHit_daily_iff {} [((1000 : Int), Call.onOrderClosed 50 0), (2000, .onOrderClosed (-50) 0)] 86400000
    ⟨by decide, by decide⟩ (by decide)).mpr (by decide +kernel) [(86400000, .onOrderClosed (-499) 0)]
      (by decide) ⟨by decide, by decide⟩

/-- A loss of 600 on one day: on the next day nothing was realised, and trading is blocked. -/
theorem loss_blocks_next_day :
    DatedUntil 86400000 [((1000 : Int), Call.onOrderPlaced 1000), (2000, .onOrderClosed (-600) 0)] ∧
      pnlOn (day 86400000) [((1000 : Int), Call.onOrderPlaced 1000), (2000, .onOrderClosed (-600) 0)] =
        0 ∧
      ¬(0 : ℚ) ≤ -({} : Config).maxDailyLoss ∧
      (afterDated {} [((1000 : Int), Call.onOrderPlaced 1000), (2000, .onOrderClosed (-600) 0)]).lossHit
        {} = true ∧
      (afterDated {} [((1000 : Int), Call.onOrderPlaced 1000),
        (2000, .onOrderClosed (-600) 0)]).canTradeNow {} 86400000 = false := by
  have hloss : (afterDated {} [((1000 : Int), Call.onOrderPlaced 1000), (2000, .onOrderClosed (-600) 0)]).lossHit
      {} = true := by
    decide +kernel
  exact ⟨⟨by decide, by decide⟩, by decide +kernel, by decide +kernel, hloss, canTradeNow_of_lossHit hloss 86400000⟩

end Strategy

end LatencyArb
