import LatencyArb.Backtest.LifeCycle

/-!
# The slippage of a fill against its cap

The cap is compared with the modelled slippage only. What the quote has moved since the signal, and the
markup, are not capped.
-/

namespace LatencyArb

namespace ExecutionSimulator

/-- How much worse than the quote of the signal the fill is. -/
def realizedSlippage (fill : Fill) : ℚ :=
  if fill.side = .buy then fill.fillPrice - fill.signalAsk else fill.signalBid - fill.fillPrice

/-- How far the quote has moved against the order. -/
def adverseMove (side : Side) (signalBid signalAsk bid ask : ℚ) : ℚ :=
  if side = .buy then ask - signalAsk else signalBid - bid

/-- Every order of the history that is filled is filled within the cap. -/
def SlippageCapped (params : ExecutionParams) (hist : List (Call × Reply)) : Prop :=
  ∀ n nowMs bid ask fill, FillsAt hist n nowMs bid ask fill → fill.filled = true →
    realizedSlippage fill ≤ params.slippageCapPts

/-- Whenever the order in flight is due and not rejected, the quote has moved against it by no more than the
cap leaves besides the markup and the modelled slippage. -/
def MovesWithinCap (params : ExecutionParams) (hist : List (Call × Reply)) : Prop :=
  ∀ i n side signalTsMs signalMid lagBid lagAsk nowMs bid ask answer,
    hist[i]? = some (.submit side signalTsMs signalMid lagBid lagAsk, .submitted true) → InFlight hist n i →
    hist[n]? = some (.atFill nowMs bid ask, answer) → signalTsMs + params.delayMs ≤ nowMs →
    ¬MeetsRejection params side bid ask →
    adverseMove side lagBid lagAsk bid ask ≤
      params.slippageCapPts - params.spreadMarkupPts - params.slippagePts

variable {params : ExecutionParams} {hist : List (Call × Reply)} {calls : List Call} {n i : Nat}

lemma realizedSlippage_eq {nowMs : Int} {bid ask : ℚ} {fill : Fill}
    (h : FillsAt (history params calls) n nowMs bid ask fill) (hfilled : fill.filled = true) :
    realizedSlippage fill = adverseMove fill.side fill.signalBid fill.signalAsk bid ask +
      params.spreadMarkupPts + params.slippagePts := by
  obtain ⟨sim, hparams, hr, -⟩ := historyFrom_reply { params := params } h
  have hcall : sim.atFill nowMs bid ask = ((sim.atFill nowMs bid ask).1, some fill) := by
    have hout : (sim.atFill nowMs bid ask).2 = some fill := by
      simpa [call] using hr.symm
    rw [← hout]
  obtain ⟨hprice, -⟩ := atFill_filled hcall hfilled
  rw [show sim.params = params from hparams] at hprice
  unfold realizedSlippage adverseMove
  rw [hprice]
  unfold modelPrice
  by_cases hside : fill.side = .buy
  · rw [if_pos hside, if_pos hside, if_pos hside]
    ring
  · rw [if_neg hside, if_neg hside, if_neg hside]
    ring

/-- An order in flight that is due and not rejected is filled. -/
lemma fillsAt_of_due {side : Side} {signalTsMs : Int} {signalMid lagBid lagAsk : ℚ} {nowMs : Int}
    {bid ask : ℚ} {answer : Reply}
    (hsubmit : (history params calls)[i]? =
      some (.submit side signalTsMs signalMid lagBid lagAsk, .submitted true))
    (hflight : InFlight (history params calls) n i)
    (hfill : (history params calls)[n]? = some (.atFill nowMs bid ask, answer))
    (hdue : signalTsMs + params.delayMs ≤ nowMs) (haccepts : ¬MeetsRejection params side bid ask) :
    ∃ fill, FillsAt (history params calls) n nowMs bid ask fill ∧ fill.filled = true ∧
      orderOf fill = orderFor params side signalTsMs signalMid lagBid lagAsk := by
  obtain ⟨sim, hparams, hr, hrun⟩ := historyFrom_reply { params := params } hfill
  obtain ⟨hlt, -⟩ := List.getElem?_eq_some_iff.mp hfill
  have hput : (events params calls)[i]? =
      some (.put (orderFor params side signalTsMs signalMid lagBid lagAsk)) := by
    unfold events
    rw [List.getElem?_map, hsubmit]
    rfl
  have hn : n ≤ (events params calls).length := by
    unfold events
    rw [List.length_map]
    exact hlt.le
  have hpending : sim.pending = some (orderFor params side signalTsMs signalMid lagBid lagAsk) :=
    (inFlight_iff.mp hflight).full hrun hn hput
  obtain ⟨hnone, -⟩ | ⟨order, fill, horder, -, heq, hof, -, hmeets⟩ := sim.atFill_eq nowMs bid ask
  · have hdue' : (orderFor params side signalTsMs signalMid lagBid lagAsk).targetFillTsMs ≤ nowMs := hdue
    unfold due at hnone
    rw [hpending, Option.filter_some, if_pos (decide_eq_true hdue')] at hnone
    cases hnone
  · rw [hpending, Option.some.injEq] at horder
    subst horder
    rw [show sim.params = params from hparams] at hmeets
    refine ⟨fill, ?_, hmeets.mpr haccepts, hof⟩
    unfold FillsAt
    rw [hfill, hr]
    simp only [call, heq]

theorem slippage_capped_iff (params : ExecutionParams) (calls : List Call) :
    SlippageCapped params (history params calls) ↔ MovesWithinCap params (history params calls) := by
  constructor
  · intro hcapped i n side signalTsMs signalMid lagBid lagAsk nowMs bid ask answer hsubmit hflight hcall
      hdue haccepts
    obtain ⟨fill, hfill, hfilled, horder⟩ := fillsAt_of_due hsubmit hflight hcall hdue haccepts
    have hcap := hcapped n nowMs bid ask fill hfill hfilled
    rw [realizedSlippage_eq hfill hfilled] at hcap
    rw [orderOf, orderFor, PendingOrder.mk.injEq] at horder
    obtain ⟨hside, -, -, -, hbid, hask⟩ := horder
    rw [hside, hbid, hask] at hcap
    linarith
  · intro hmoves n nowMs bid ask fill hfill hfilled
    obtain ⟨i, side, signalTsMs, signalMid, lagBid, lagAsk, hflight, hi, horder⟩ := hfill.inFlight
    obtain ⟨hdue, -, hmeets⟩ := hfill.due
    rw [orderOf, orderFor, PendingOrder.mk.injEq] at horder
    obtain ⟨hside, -, htarget, -, hbid, hask⟩ := horder
    have hmove := hmoves i n side signalTsMs signalMid lagBid lagAsk nowMs bid ask _ hi hflight hfill
      (htarget ▸ hdue) (hside ▸ hmeets.mp hfilled)
    rw [realizedSlippage_eq hfill hfilled, hside, hbid, hask]
    linarith

/-- A buy at 100 that is filled ten points higher, where one point is allowed. -/
def jumpingMarket : List (Call × Reply) :=
  history { slippageCapPts := 1 } [.submit .buy 0 100 99 100, .atFill 5 109 110]

theorem jump_exceeds_cap : ¬SlippageCapped { slippageCapPts := 1 } jumpingMarket := by
  intro hcapped
  obtain ⟨fill, hat, hfilled, hslip⟩ : ∃ fill : Fill, FillsAt jumpingMarket 1 5 109 110 fill ∧
      fill.filled = true ∧ realizedSlippage fill = 10 :=
    ⟨{ filled := true, side := .buy, signalTsMs := 0, fillTsMs := 5, targetFillTsMs := 5, signalMark := 100,
       signalBid := 99, signalAsk := 100, execBid := 109, execAsk := 110, fillPrice := 110 },
      by
        norm_num [FillsAt, jumpingMarket, history, component, Component.exec, call, submit, atFill, modelPrice],
      rfl, by decide +kernel⟩
  have hcap := hcapped 1 5 109 110 fill hat hfilled
  rw [hslip] at hcap
  exact absurd hcap (by decide +kernel)

end ExecutionSimulator

end LatencyArb
