import LatencyArb.OrderPath

/-!
# The slippage gate behind the strategy

A signal is only emitted with a positive edge, which the gate of the dispatcher always lets through.
-/

namespace LatencyArb

namespace Strategy

variable {cfg : Config} {lead : ℚ} {q : BrokerQuote}

/-- The decision to act and its side are the sign of the edge. -/
lemma evaluate_cases (cfg : Config) (lead : ℚ) (q : BrokerQuote) :
    (evaluate cfg lead q).1 = .hold ∨
      ((evaluate cfg lead q).1 = .long ∧
        round4 cfg q.ask + dynamicThreshold cfg q < round4 cfg lead) ∨
      ((evaluate cfg lead q).1 = .short ∧
        ¬round4 cfg q.ask + dynamicThreshold cfg q < round4 cfg lead ∧
        round4 cfg lead + dynamicThreshold cfg q < round4 cfg q.bid) := by
  unfold evaluate
  dsimp only
  by_cases hlong : round4 cfg q.ask + dynamicThreshold cfg q < round4 cfg lead
  · rw [if_pos hlong]
    exact .inr (.inl ⟨rfl, hlong⟩)
  · rw [if_neg hlong]
    by_cases hshort : round4 cfg lead + dynamicThreshold cfg q < round4 cfg q.bid
    · rw [if_pos hshort]
      exact .inr (.inr ⟨rfl, hlong, hshort⟩)
    · rw [if_neg hshort]
      exact .inl rfl

lemma signalOf_threshold (cfg : Config) (lead : ℚ) (q : BrokerQuote) (d : Decision) (nowMs : Int) :
    (signalOf cfg d lead q nowMs).threshold = dynamicThreshold cfg q :=
  evaluate_threshold cfg lead q

lemma signalOf_edge (hacts : (evaluate cfg lead q).1 ≠ .hold) (nowMs : Int) :
    0 < (signalOf cfg (evaluate cfg lead q).1 lead q nowMs).edge := by
  unfold signalOf
  dsimp only
  rw [evaluate_threshold]
  obtain hhold | ⟨hlong, hedge⟩ | ⟨hshort, -, hedge⟩ := evaluate_cases cfg lead q
  · exact absurd hhold hacts
  · rw [hlong, if_pos rfl]
    linarith
  · rw [hshort, if_neg (by decide)]
    linarith

lemma signalOf_side (hacts : (evaluate cfg lead q).1 ≠ .hold) (nowMs : Int) :
    (signalOf cfg (evaluate cfg lead q).1 lead q nowMs).side = .buy ↔
      round4 cfg q.ask + dynamicThreshold cfg q < round4 cfg lead := by
  unfold signalOf
  dsimp only
  obtain hhold | ⟨hlong, hedge⟩ | ⟨hshort, hnot, -⟩ := evaluate_cases cfg lead q
  · exact absurd hhold hacts
  · rw [hlong, if_pos rfl]
    exact iff_of_true rfl hedge
  · rw [hshort, if_neg (by decide)]
    exact iff_of_false (by decide) hnot

end Strategy

lemma withinSlippageCap_of_edge {s : Signal} (h : 0 < s.edge) : withinSlippageCap s = true :=
  decide_eq_true (.inr h)

namespace Engine

/-- Every signal that the worker takes passes the slippage gate. -/
lemma reachable_withinSlippageCap {cfg : Config} {utcOffsetS : Int} {boot : ℕ+} {e : Engine}
    (he : (machine cfg utcOffsetS boot).Reachable e) :
    e.EnRoute (fun s => withinSlippageCap s = true) := by
  apply reachable_enRoute _ he
  rintro d lead q nowMs rfl hacts
  exact withinSlippageCap_of_edge (Strategy.signalOf_edge hacts nowMs)

lemma workerStep_holding {cfg : Config} {e : Engine} {s : Signal} (hold : e.exec.worker = .holding s)
    (hpass : withinSlippageCap s = true) : e.workerStep cfg =
      some { e with pub := publishSignal e.pub s, exec := { e.exec with worker := .published s } } := by
  unfold workerStep
  rw [hold]
  dsimp only
  rw [hpass]
  rfl

lemma workerStep_published {cfg : Config} {e : Engine} {s : Signal}
    (published : e.exec.worker = .published s) : e.workerStep cfg =
      some { e with fix := if cfg.fixEnabled then e.fix.sendOrder s else e.fix
                    exec := { e.exec with worker := .idle } } := by
  unfold workerStep
  rw [published]

/-- A signal emitted on the decision of `evaluate` carries the dynamic threshold, has a positive edge, is
a purchase exactly when the rounded lead exceeds the rounded ask by more than the threshold, and passes
the slippage gate. In every reachable state of the engine the worker publishes the signal it holds. -/
theorem emitted_signals_pass (cfg : Config) :
    (∀ (st st' : Strategy) (lead : ℚ) (q : BrokerQuote) (nowMs : Int) (s : Signal),
      st.maybeEmit cfg (Strategy.evaluate cfg lead q).1 lead q nowMs = (some s, st') →
        s.threshold = (Strategy.evaluate cfg lead q).2 ∧
        s.threshold = Strategy.dynamicThreshold cfg q ∧ 0 < s.edge ∧
        (s.side = .buy ↔
          Strategy.round4 cfg q.ask + s.threshold < Strategy.round4 cfg lead) ∧
        withinSlippageCap s = true) ∧
    ∀ (utcOffsetS : Int) (boot : ℕ+) (e : Engine), (machine cfg utcOffsetS boot).Reachable e →
      ∀ s, e.exec.worker = .holding s → (machine cfg utcOffsetS boot).step e .worker =
        some { e with pub := publishSignal e.pub s, exec := { e.exec with worker := .published s } } := by
  constructor
  · intro st st' lead q nowMs s hemit
    obtain hnone | ⟨hacts, -, hsome⟩ :=
      st.maybeEmit_cases cfg (Strategy.evaluate cfg lead q).1 lead q nowMs
    · rw [hnone] at hemit
      cases hemit
    · rw [hsome] at hemit
      cases hemit
      have hthreshold := Strategy.signalOf_threshold cfg lead q (Strategy.evaluate cfg lead q).1 nowMs
      have hedge := Strategy.signalOf_edge hacts nowMs
      refine ⟨rfl, hthreshold, hedge, ?_, withinSlippageCap_of_edge hedge⟩
      rw [hthreshold]
      exact Strategy.signalOf_side hacts nowMs
  · intro utcOffsetS boot e he s hs
    exact workerStep_holding hs ((reachable_withinSlippageCap he).holding s hs)

def gateQuote : BrokerQuote := { bid := 99, ask := 100, spread := 1, valid := 1 }

theorem emitted_buy_passes :
    0 < (Strategy.signalOf {} .long 102 gateQuote 1000).edge ∧
      withinSlippageCap (Strategy.signalOf {} .long 102 gateQuote 1000) = true := by
  have hemit : ({} : Strategy).maybeEmit {} (Strategy.evaluate {} 102 gateQuote).1 102 gateQuote 1000 =
      (some (Strategy.signalOf {} .long 102 gateQuote 1000), { lastSignalMs := 1000 }) := by
    decide +kernel
  obtain ⟨-, -, hedge, -, hpass⟩ := (emitted_signals_pass {}).1 _ _ 102 gateQuote 1000 _ hemit
  exact ⟨hedge, hpass⟩

end Engine

end LatencyArb
