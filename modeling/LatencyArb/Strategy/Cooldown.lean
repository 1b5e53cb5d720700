import LatencyArb.Library.Machine
import LatencyArb.Strategy

/-!
# The cooldown between signals

`last_signal_ms_` is 0 until the first signal and holds the time of the last one afterwards, so that a
signal emitted at time 0 is forgotten.
-/

namespace LatencyArb

namespace Strategy

variable (cfg : Config)

/-- The time of the signal that the call emits. -/
def emittedAt (s : Strategy) : Call → Option Int
  | .maybeEmit d lead q nowMs =>
    if (s.maybeEmit cfg d lead q nowMs).1.isSome then some nowMs else none
  | _ => none

def component : Component Strategy Call (Option Int) where
  init := {}
  step s c := (s.call cfg c, s.emittedAt cfg c)

/-- The times of the signals emitted in a history that starts in the state `s`. -/
def signalTimesFrom (s : Strategy) (calls : List Call) : List Int :=
  ((component cfg).exec s calls).2.filterMap id

def signalTimes (calls : List Call) : List Int := signalTimesFrom cfg {} calls

/-- A `maybe_emit` call at time 0 that is not stopped by the decision or by `can_trade_now`. -/
def opensAtZero (s : Strategy) : Call → Bool
  | .maybeEmit d _ _ nowMs => decide (nowMs = 0 ∧ d ≠ .hold) && s.canTradeNow cfg nowMs
  | _ => false

lemma maybeEmit_cooldown (s : Strategy) (d : Decision) (lead : ℚ) (q : BrokerQuote) (nowMs : Int) :
    s.maybeEmit cfg d lead q nowMs = (none, s) ∨
      d ≠ .hold ∧ s.canTradeNow cfg nowMs = true ∧
        (s.lastSignalMs ≠ 0 → cfg.intervalSeconds * 1000 ≤ nowMs - s.lastSignalMs) ∧
        s.maybeEmit cfg d lead q nowMs =
          (some (signalOf cfg d lead q nowMs), { s with lastSignalMs := nowMs }) := by
  by_cases hcool : s.lastSignalMs ≠ 0 ∧ nowMs - s.lastSignalMs < cfg.intervalSeconds * 1000
  · left
    unfold maybeEmit
    rw [if_pos hcool, ite_self, ite_self]
  · obtain hnone | ⟨hd, hgate, hemit⟩ := s.maybeEmit_cases cfg d lead q nowMs
    · exact .inl hnone
    · refine .inr ⟨hd, hgate, ?_, hemit⟩
      intro hstamp
      by_contra hearly
      exact hcool ⟨hstamp, not_le.mp hearly⟩

/-- What a call does to the cooldown: it emits nothing and leaves the stamp alone, or it emits a signal
once the interval since the stamp is over, and stamps its own time. -/
lemma call_cooldown (s : Strategy) (c : Call) :
    (s.emittedAt cfg c = none ∧ (s.call cfg c).lastSignalMs = s.lastSignalMs) ∨
      ∃ nowMs, s.emittedAt cfg c = some nowMs ∧ (s.call cfg c).lastSignalMs = nowMs ∧
        (s.lastSignalMs ≠ 0 → cfg.intervalSeconds * 1000 ≤ nowMs - s.lastSignalMs) ∧
        (nowMs = 0 → s.opensAtZero cfg c = true) := by
  cases c with
  | maybeEmit d lead q nowMs =>
    obtain hnone | ⟨hd, hgate, hcool, hemit⟩ := s.maybeEmit_cooldown cfg d lead q nowMs
    · left
      simp [emittedAt, call, hnone]
    · right
      simp only [emittedAt, call, hemit, opensAtZero, hgate]
      refine ⟨nowMs, rfl, rfl, hcool, ?_⟩
      intro hzero
      simp [hzero, hd]
  | onOrderPlaced emittedMs => exact .inl ⟨rfl, rfl⟩
  | onOrderClosed realizedPnl commissions => exact .inl ⟨rfl, rfl⟩

lemma signalTimesFrom_cons (s : Strategy) (c : Call) (calls : List Call) :
    signalTimesFrom cfg s (c :: calls) =
      (s.emittedAt cfg c).toList ++ signalTimesFrom cfg (s.call cfg c) calls := by
  simp only [signalTimesFrom, Component.exec, component, List.filterMap_cons, id]
  cases s.emittedAt cfg c <;> rfl

/-- From a state on, every signal keeps its distance from the stamp and from the signals before it. -/
lemma signals_apart (hinterval : 0 < cfg.intervalSeconds) {s : Strategy} {calls : List Call}
    (hzero : (component cfg).Along (fun s c => s.opensAtZero cfg c = false) s calls) :
    (∀ t ∈ signalTimesFrom cfg s calls,
        s.lastSignalMs ≠ 0 → cfg.intervalSeconds * 1000 ≤ t - s.lastSignalMs) ∧
      (signalTimesFrom cfg s calls).Pairwise (fun a b => cfg.intervalSeconds * 1000 ≤ b - a) := by
  induction calls generalizing s with
  | nil => exact ⟨by simp [signalTimesFrom, Component.exec], List.Pairwise.nil⟩
  | cons c calls ih =>
    obtain ⟨hc, hrest⟩ := hzero
    obtain ⟨hstamp, hpairs⟩ := ih hrest
    rw [signalTimesFrom_cons]
    obtain ⟨hnone, hsame⟩ | ⟨nowMs, hsome, hnow, hcool, hopens⟩ := s.call_cooldown cfg c
    · change ∀ t ∈ signalTimesFrom cfg (s.call cfg c) calls,
        (s.call cfg c).lastSignalMs ≠ 0 → _ ≤ t - (s.call cfg c).lastSignalMs at hstamp
      rw [hsame] at hstamp
      rw [hnone]
      exact ⟨hstamp, hpairs⟩
    · have hne : nowMs ≠ 0 := by
        intro h0
        rw [hopens h0] at hc
        cases hc
      have hlater : ∀ t ∈ signalTimesFrom cfg (s.call cfg c) calls,
          cfg.intervalSeconds * 1000 ≤ t - nowMs := by
        intro t ht
        have hkeep := hstamp t ht
        change (s.call cfg c).lastSignalMs ≠ 0 → _ ≤ t - (s.call cfg c).lastSignalMs at hkeep
        rw [hnow] at hkeep
        exact hkeep hne
      rw [hsome]
      refine ⟨?_, List.pairwise_cons.mpr ⟨hlater, hpairs⟩⟩
      intro t ht hstamped
      have hgap := hcool hstamped
      obtain rfl | ht := List.mem_cons.mp ht
      · exact hgap
      · have hnext := hlater t ht
        omega

/-- In every history in which no `maybe_emit` call at time 0 has its decision and `can_trade_now` on its
side, any two signals at different times are at least the interval apart. -/
theorem signals_spaced (calls : List Call)
    (hzero : cfg.intervalSeconds ≤ 0 ∨
      (component cfg).Along (fun s c => s.opensAtZero cfg c = false) {} calls) :
    ∀ t₁ ∈ signalTimes cfg calls, ∀ t₂ ∈ signalTimes cfg calls, t₁ < t₂ →
      cfg.intervalSeconds * 1000 ≤ t₂ - t₁ := by
  intro t₁ h₁ t₂ h₂ hlt
  by_cases hinterval : 0 < cfg.intervalSeconds
  · have halong := hzero.resolve_left (not_le.mpr hinterval)
    have hpairs := (signals_apart cfg hinterval halong).2
    have hfar : (signalTimes cfg calls).Pairwise (fun a b => cfg.intervalSeconds * 1000 ≤ |b - a|) :=
      hpairs.imp (fun hab => hab.trans (le_abs_self _))
    have hsymm : Std.Symm (fun a b : Int => cfg.intervalSeconds * 1000 ≤ |b - a|) :=
      ⟨fun a b h => by rw [abs_sub_comm]; exact h⟩
    have hgap := hfar.forall h₁ h₂ hlt.ne
    rwa [abs_of_pos (by omega)] at hgap
  · omega

/-- The condition is needed: after a signal at time 0 nothing keeps the strategy from a signal one
millisecond later. -/
theorem zero_signal_forgotten (s : Strategy) (d : Decision) (lead : ℚ) (q : BrokerQuote)
    (hopens : s.opensAtZero cfg (.maybeEmit d lead q 0) = true) (hfresh : s.lastSignalMs = 0)
    (hstart : s.intervalStartMs = 0) :
    signalTimesFrom cfg s [Call.maybeEmit d lead q 0, .maybeEmit d lead q 1] = [0, 1] := by
  have hopen : d ≠ .hold ∧ s.canTradeNow cfg 0 = true := by simpa [opensAtZero] using hopens
  have hemits : ∀ (t : Strategy) (nowMs : Int), t.canTradeNow cfg nowMs = true → t.lastSignalMs = 0 →
      t.maybeEmit cfg d lead q nowMs =
        (some (signalOf cfg d lead q nowMs), { t with lastSignalMs := nowMs }) := by
    intro t nowMs hgate hstamp
    rw [maybeEmit, if_neg hopen.1, hgate, if_neg (by decide), if_neg (by simp [hstamp])]
  have hfirst := hemits s 0 hopen.2 hfresh
  have hgate : ({ s with lastSignalMs := 0 } : Strategy).canTradeNow cfg 1 = true := by
    rw [← hopen.2]
    simp [canTradeNow, intervalSpent, hstart]
  have hsecond := hemits { s with lastSignalMs := 0 } 1 hgate rfl
  rw [signalTimesFrom_cons, signalTimesFrom_cons]
  simp [emittedAt, call, hfirst, hsecond, signalTimesFrom, Component.exec]

def wideQuote : BrokerQuote := { bid := 99, ask := 100, spread := 1, valid := 1 }

theorem signals_spaced_minute :
    signalTimes {} [Call.maybeEmit .long 102 wideQuote 1, .maybeEmit .long 102 wideQuote 60000,
        .maybeEmit .long 102 wideQuote 60001] = [1, 60001] ∧
      (60 : Int) * 1000 ≤ 60001 - 1 :=
  ⟨by decide +kernel, signals_spaced {} [Call.maybeEmit .long 102 wideQuote 1,
    .maybeEmit .long 102 wideQuote 60000, .maybeEmit .long 102 wideQuote 60001]
    (.inr ⟨by decide +kernel, by decide +kernel, by decide +kernel, trivial⟩) 1 (by decide +kernel) 60001
    (by decide +kernel) (by decide)⟩

/-- Two signals within a millisecond, at the first two readings of a clock that starts at 0. -/
theorem signals_at_start_not_spaced :
    signalTimes {} [Call.maybeEmit .long 102 wideQuote 0, .maybeEmit .long 102 wideQuote 1] =
        [0, 1] ∧
      ¬∀ t₁ ∈ signalTimes {} [Call.maybeEmit .long 102 wideQuote 0,
          .maybeEmit .long 102 wideQuote 1],
        ∀ t₂ ∈ signalTimes {} [Call.maybeEmit .long 102 wideQuote 0,
            .maybeEmit .long 102 wideQuote 1],
          t₁ < t₂ → ({} : Config).intervalSeconds * 1000 ≤ t₂ - t₁ := by
  constructor <;> decide +kernel

end Strategy

end LatencyArb
