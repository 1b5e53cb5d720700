import LatencyArb.Strategy

/-!
# The execution simulator (`src/backtest/execution_simulator.cpp`)

One order is in flight at a time; once it is due it is filled at the current lag quote or
rejected.
-/

namespace LatencyArb

inductive PnlModel where
  | instant | holdConvergence
  deriving DecidableEq, Repr

structure ExecutionParams where
  delayMs : Int := 5
  slippagePts : ℚ := 0
  spreadMarkupPts : ℚ := 0
  commissionPerLot : ℚ := 0
  spreadCapPts : ℚ := 100
  slippageCapPts : ℚ := 100
  quantity : ℚ := 1
  pnlModel : PnlModel := .holdConvergence
  holdTolPts : ℚ := 0.05
  holdMaxMs : Int := 0
  holdExitMarkupPts : ℚ := 0
  holdExitSlipPts : ℚ := 0

structure Fill where
  filled : Bool := false
  rejected : Bool := false
  rejectReason : Option String := none
  side : Side := .none
  signalTsMs : Int := 0
  fillTsMs : Int := 0
  targetFillTsMs : Int := 0
  signalMark : ℚ := 0
  signalBid : ℚ := 0
  signalAsk : ℚ := 0
  execBid : ℚ := 0
  execAsk : ℚ := 0
  fillPrice : ℚ := 0
  commission : ℚ := 0
  slippagePts : ℚ := 0

/-- What `submit` records; the fields are read only while an order is pending. -/
structure PendingOrder where
  side : Side
  signalTsMs : Int
  targetFillTsMs : Int
  signalMid : ℚ
  lagBid : ℚ
  lagAsk : ℚ
  deriving DecidableEq

structure ExecutionSimulator where
  params : ExecutionParams
  pending : Option PendingOrder := none

namespace ExecutionSimulator

def submit (sim : ExecutionSimulator) (side : Side) (signalTsMs : Int) (signalMid lagBid lagAsk : ℚ) :
    ExecutionSimulator × Bool :=
  if sim.pending.isSome then (sim, false)
  else if side ≠ .buy ∧ side ≠ .sell then (sim, false)
  else if lagBid ≤ 0 ∨ lagAsk ≤ 0 ∨ lagAsk < lagBid then (sim, false)
  else
    ({ sim with pending := some {
        side := side, signalTsMs := signalTsMs
        targetFillTsMs := signalTsMs + sim.params.delayMs
        signalMid := signalMid, lagBid := lagBid, lagAsk := lagAsk } }, true)

def modelPrice (params : ExecutionParams) (side : Side) (bid ask : ℚ) : ℚ :=
  if side = .buy then ask + params.spreadMarkupPts + params.slippagePts
  else bid - params.spreadMarkupPts - params.slippagePts

/-- `at_fill`, whose result is `none` where the source returns false. -/
def atFill (sim : ExecutionSimulator) (nowMs : Int) (execLagBid execLagAsk : ℚ) :
    ExecutionSimulator × Option Fill :=
  match sim.pending with
  | none => (sim, none)
  | some order =>
    if nowMs < order.targetFillTsMs then (sim, none)
    else
      let spread := execLagAsk - execLagBid
      let out : Fill := {
        side := order.side, signalTsMs := order.signalTsMs, fillTsMs := nowMs
        targetFillTsMs := order.targetFillTsMs, signalMark := order.signalMid
        signalBid := order.lagBid, signalAsk := order.lagAsk
        execBid := execLagBid, execAsk := execLagAsk }
      let cleared := { sim with pending := none }
      if sim.params.spreadCapPts < spread then
        (cleared, some { out with rejected := true, rejectReason := some "spread_cap" })
      else
        let fill := modelPrice sim.params order.side execLagBid execLagAsk
        let priced := { out with
          fillPrice := fill, slippagePts := sim.params.slippagePts
          commission := sim.params.commissionPerLot * sim.params.quantity }
        if sim.params.slippageCapPts < sim.params.slippagePts then
          (cleared, some { priced with rejected := true, rejectReason := some "slippage_cap" })
        else if ¬0 < fill then
          (cleared, some { priced with rejected := true, rejectReason := some "invalid_price" })
        else (cleared, some { priced with filled := true })

/-- One of the three rejection tests applies to an order on this side at this quote. -/
def MeetsRejection (params : ExecutionParams) (side : Side) (bid ask : ℚ) : Prop :=
  params.spreadCapPts < ask - bid ∨ params.slippageCapPts < params.slippagePts ∨
    modelPrice params side bid ask ≤ 0

instance (params : ExecutionParams) (side : Side) (bid ask : ℚ) :
    Decidable (MeetsRejection params side bid ask) := by
  unfold MeetsRejection
  infer_instance

/-- The order that is due at `nowMs`. -/
def due (sim : ExecutionSimulator) (nowMs : Int) : Option PendingOrder :=
  sim.pending.filter (fun order => decide (order.targetFillTsMs ≤ nowMs))

lemma atFill_of_not_due {sim : ExecutionSimulator} {nowMs : Int} (h : sim.due nowMs = none)
    (bid ask : ℚ) : sim.atFill nowMs bid ask = (sim, none) := by
  unfold due at h
  unfold atFill
  cases hp : sim.pending with
  | none => rfl
  | some order =>
    rw [hp, Option.filter_some] at h
    dsimp only
    rw [if_pos]
    by_contra hle
    rw [if_pos (decide_eq_true (not_lt.mp hle))] at h
    cases h

/-- A due order leaves the slot with a fill that is rejected exactly when a rejection test applies,
and filled otherwise. -/
lemma atFill_of_due {sim : ExecutionSimulator} {nowMs : Int} {order : PendingOrder}
    (h : sim.due nowMs = some order) (bid ask : ℚ) : ∃ fill : Fill,
    sim.atFill nowMs bid ask = ({ sim with pending := none }, some fill) ∧
      (fill.rejected = true ↔ MeetsRejection sim.params order.side bid ask) ∧
      fill.filled = !fill.rejected := by
  obtain ⟨hp, hle⟩ := Option.filter_eq_some_iff.mp h
  have hdue : ¬nowMs < order.targetFillTsMs := not_lt.mpr (of_decide_eq_true hle)
  unfold atFill MeetsRejection
  simp only [hp]
  rw [if_neg hdue]
  by_cases hspread : sim.params.spreadCapPts < ask - bid
  · rw [if_pos hspread]
    exact ⟨_, rfl, by simp [hspread], rfl⟩
  · rw [if_neg hspread]
    by_cases hslip : sim.params.slippageCapPts < sim.params.slippagePts
    · rw [if_pos hslip]
      exact ⟨_, rfl, by simp [hslip], rfl⟩
    · rw [if_neg hslip]
      by_cases hprice : 0 < modelPrice sim.params order.side bid ask
      · rw [if_neg (not_not.mpr hprice)]
        exact ⟨_, rfl, by simp [hspread, hslip, not_le.mpr hprice], rfl⟩
      · rw [if_pos hprice]
        exact ⟨_, rfl, by simp [not_lt.mp hprice], rfl⟩

/-- A filled order has the modelled price of the quote it is filled at, which is positive, and is charged
the commission of the whole quantity. -/
lemma atFill_filled {sim sim' : ExecutionSimulator} {nowMs : Int} {bid ask : ℚ} {fill : Fill}
    (h : sim.atFill nowMs bid ask = (sim', some fill)) (hfilled : fill.filled = true) :
    fill.fillPrice = modelPrice sim.params fill.side bid ask ∧ fill.execBid = bid ∧
      fill.execAsk = ask ∧ fill.commission = sim.params.commissionPerLot * sim.params.quantity ∧
      0 < fill.fillPrice ∧ fill.fillTsMs = nowMs := by
  unfold atFill at h
  split at h
  · cases h
  split at h
  · cases h
  dsimp only at h
  split at h
  · cases h
    cases hfilled
  split at h
  · cases h
    cases hfilled
  split at h
  · cases h
    cases hfilled
  · rename_i hpos
    cases h
    exact ⟨rfl, rfl, rfl, rfl, not_not.mp hpos, rfl⟩

lemma submit_of_true {sim : ExecutionSimulator} {side : Side} {signalTsMs : Int}
    {signalMid lagBid lagAsk : ℚ}
    (h : (sim.submit side signalTsMs signalMid lagBid lagAsk).2 = true) :
    sim.pending = none ∧ ∃ order : PendingOrder,
      (sim.submit side signalTsMs signalMid lagBid lagAsk).1 = { sim with pending := some order } ∧
      order.targetFillTsMs = signalTsMs + sim.params.delayMs := by
  unfold submit at h ⊢
  by_cases hp : sim.pending.isSome = true
  · simp [hp] at h
  rw [if_neg hp] at h ⊢
  refine ⟨Option.not_isSome_iff_eq_none.mp hp, ?_⟩
  split at h
  · cases h
  rw [if_neg ‹_›]
  split at h
  · cases h
  rw [if_neg ‹_›]
  exact ⟨_, rfl, rfl⟩

lemma submit_of_false {sim : ExecutionSimulator} {side : Side} {signalTsMs : Int}
    {signalMid lagBid lagAsk : ℚ}
    (h : (sim.submit side signalTsMs signalMid lagBid lagAsk).2 = false) :
    (sim.submit side signalTsMs signalMid lagBid lagAsk).1 = sim := by
  unfold submit at h ⊢
  by_cases hp : sim.pending.isSome = true
  · rw [if_pos hp]
  rw [if_neg hp] at h ⊢
  split
  · rfl
  rw [if_neg ‹_›] at h
  split
  · rfl
  · rw [if_neg ‹_›] at h
    cases h

end ExecutionSimulator

end LatencyArb
