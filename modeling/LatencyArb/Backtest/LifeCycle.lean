import LatencyArb.Backtest.Simulator
import LatencyArb.Library.Machine
import LatencyArb.Library.Slot

/-!
# The life of an order in the execution simulator

A history of calls with their answers is a run of a slot: an accepted `submit` puts its order into it, a
fill takes it, `cancel` clears it. Times are exact; the sum of a signal time and the delay that leaves the
range of its type has no defined value in the source.
-/

namespace LatencyArb

namespace ExecutionSimulator

inductive Call where
  | submit (side : Side) (signalTsMs : Int) (signalMid lagBid lagAsk : ℚ)
  | atFill (nowMs : Int) (execLagBid execLagAsk : ℚ)
  | cancel

/-- What a call returns; `at_fill` returns true with a fill. -/
inductive Reply where
  | submitted (accepted : Bool)
  | filled (out : Option Fill)
  | cancelled

def cancel (sim : ExecutionSimulator) : ExecutionSimulator := { sim with pending := none }

def call (sim : ExecutionSimulator) : Call → ExecutionSimulator × Reply
  | .submit side signalTsMs signalMid lagBid lagAsk =>
    let (sim, accepted) := sim.submit side signalTsMs signalMid lagBid lagAsk
    (sim, .submitted accepted)
  | .atFill nowMs execLagBid execLagAsk =>
    let (sim, out) := sim.atFill nowMs execLagBid execLagAsk
    (sim, .filled out)
  | .cancel => (sim.cancel, .cancelled)

/-- A new simulator. -/
def component (params : ExecutionParams) : Component ExecutionSimulator Call Reply where
  init := { params := params }
  step := call

/-- The calls of a history with their answers. -/
def history (params : ExecutionParams) (calls : List Call) : List (Call × Reply) :=
  calls.zip ((component params).exec (component params).init calls).2

/-- The order of a fill. -/
def orderOf (fill : Fill) : PendingOrder where
  side := fill.side
  signalTsMs := fill.signalTsMs
  targetFillTsMs := fill.targetFillTsMs
  signalMid := fill.signalMark
  lagBid := fill.signalBid
  lagAsk := fill.signalAsk

/-- The order of a `submit`. -/
def orderFor (params : ExecutionParams) (side : Side) (signalTsMs : Int) (signalMid lagBid lagAsk : ℚ) :
    PendingOrder where
  side := side
  signalTsMs := signalTsMs
  targetFillTsMs := signalTsMs + params.delayMs
  signalMid := signalMid
  lagBid := lagBid
  lagAsk := lagAsk

def eventOf (params : ExecutionParams) : Call × Reply → SlotEvent PendingOrder
  | (.submit side signalTsMs signalMid lagBid lagAsk, .submitted true) =>
    .put (orderFor params side signalTsMs signalMid lagBid lagAsk)
  | (.atFill .., .filled (some fill)) => .take (orderOf fill)
  | (.cancel, _) => .clear
  | _ => .idle

/-! ## One call -/

variable {params : ExecutionParams} {sim : ExecutionSimulator}

lemma submit_eq (sim : ExecutionSimulator) (side : Side) (signalTsMs : Int) (signalMid lagBid lagAsk : ℚ) :
    sim.submit side signalTsMs signalMid lagBid lagAsk = (sim, false) ∨
      sim.pending = none ∧ sim.submit side signalTsMs signalMid lagBid lagAsk =
        ({ sim with pending := some (orderFor sim.params side signalTsMs signalMid lagBid lagAsk) }, true) := by
  unfold submit
  split
  · exact .inl rfl
  · rename_i hpending
    split
    · exact .inl rfl
    · split
      · exact .inl rfl
      · exact .inr ⟨by simpa using hpending, rfl⟩

/-- All that `at_fill` can do: nothing, or end the order that is due. -/
lemma atFill_eq (sim : ExecutionSimulator) (nowMs : Int) (bid ask : ℚ) :
    sim.due nowMs = none ∧ sim.atFill nowMs bid ask = (sim, none) ∨
      ∃ order fill, sim.pending = some order ∧ order.targetFillTsMs ≤ nowMs ∧
        sim.atFill nowMs bid ask = (sim.cancel, some fill) ∧ orderOf fill = order ∧
        fill.filled = !fill.rejected ∧ (fill.filled = true ↔ ¬MeetsRejection sim.params order.side bid ask) := by
  cases hdue : sim.due nowMs with
  | none => exact .inl ⟨rfl, atFill_of_not_due hdue bid ask⟩
  | some order =>
    right
    obtain ⟨hpending, hle⟩ := Option.filter_eq_some_iff.mp hdue
    obtain ⟨fill, hfill, hrejected, hfilled⟩ := atFill_of_due hdue bid ask
    refine ⟨order, fill, hpending, of_decide_eq_true hle, hfill, ?_, hfilled, ?_⟩
    · unfold atFill at hfill
      rw [hpending] at hfill
      dsimp only at hfill
      rw [if_neg (not_lt.mpr (of_decide_eq_true hle))] at hfill
      split at hfill
      · cases hfill
        rfl
      · split at hfill
        · cases hfill
          rfl
        · split at hfill
          · cases hfill
            rfl
          · cases hfill
            rfl
    · rw [← hrejected, hfilled]
      cases fill.rejected <;> simp

lemma call_params (sim : ExecutionSimulator) (c : Call) : (sim.call c).1.params = sim.params := by
  cases c with
  | submit side signalTsMs signalMid lagBid lagAsk =>
    obtain heq | ⟨-, heq⟩ := sim.submit_eq side signalTsMs signalMid lagBid lagAsk
    · simp only [call, heq]
    · simp only [call, heq]
  | atFill nowMs bid ask =>
    obtain ⟨-, heq⟩ | ⟨order, fill, -, -, heq, -⟩ := sim.atFill_eq nowMs bid ask
    · simp only [call, heq]
    · simp only [call, heq]
      rfl
  | cancel => rfl

/-- A call is a step of the slot. -/
lemma call_step (sim : ExecutionSimulator) (c : Call) :
    Slot.Step sim.pending (eventOf sim.params (c, (sim.call c).2)) (sim.call c).1.pending := by
  cases c with
  | submit side signalTsMs signalMid lagBid lagAsk =>
    obtain heq | ⟨hempty, heq⟩ := sim.submit_eq side signalTsMs signalMid lagBid lagAsk
    · simp only [call, heq, eventOf]
      exact .idle _
    · simp only [call, heq, eventOf, hempty]
      exact .put _
  | atFill nowMs bid ask =>
    obtain ⟨-, heq⟩ | ⟨order, fill, hpending, -, heq, horder, -⟩ := sim.atFill_eq nowMs bid ask
    · simp only [call, heq, eventOf]
      exact .idle _
    · simp only [call, heq, eventOf, hpending, ← horder]
      exact .take _
  | cancel => exact .clear _

/-- The calls that return false. -/
def Reply.refused : Reply → Bool
  | .submitted accepted => !accepted
  | .filled out => out.isNone
  | .cancelled => false

/-- A call that returns false changes nothing. -/
lemma call_of_refused {c : Call} (h : (sim.call c).2.refused = true) : (sim.call c).1 = sim := by
  cases c with
  | submit side signalTsMs signalMid lagBid lagAsk =>
    obtain heq | ⟨-, heq⟩ := sim.submit_eq side signalTsMs signalMid lagBid lagAsk
    · simp only [call, heq]
    · simp [call, heq, Reply.refused] at h
  | atFill nowMs bid ask =>
    obtain ⟨-, heq⟩ | ⟨order, fill, -, -, heq, -⟩ := sim.atFill_eq nowMs bid ask
    · simp only [call, heq]
    · simp [call, heq, Reply.refused] at h
  | cancel => cases h

/-! ## A history -/

/-- The history of the calls from `sim` on. -/
def historyFrom (sim : ExecutionSimulator) (calls : List Call) : List (Call × Reply) :=
  calls.zip ((component sim.params).exec sim calls).2

lemma historyFrom_cons (sim : ExecutionSimulator) (c : Call) (calls : List Call) :
    sim.historyFrom (c :: calls) = (c, (sim.call c).2) :: (sim.call c).1.historyFrom calls := by
  unfold historyFrom
  rw [call_params]
  rfl

/-- A history is a run of the slot. -/
lemma historyFrom_run (sim : ExecutionSimulator) (calls : List Call) :
    ∃ s, Slot.Run sim.pending ((sim.historyFrom calls).map (eventOf sim.params)) s := by
  induction calls generalizing sim with
  | nil => exact ⟨_, .nil _⟩
  | cons c calls ih =>
    obtain ⟨s, hrun⟩ := ih (sim.call c).1
    rw [call_params] at hrun
    rw [historyFrom_cons]
    exact ⟨s, .cons (sim.call_step c) hrun⟩

/-- Every answer of a history is that of a simulator with the same parameters, whose slot has seen the events
before. -/
lemma historyFrom_reply (sim : ExecutionSimulator) {calls : List Call} {n : Nat} {c : Call} {r : Reply}
    (h : (sim.historyFrom calls)[n]? = some (c, r)) :
    ∃ sim' : ExecutionSimulator, sim'.params = sim.params ∧ r = (sim'.call c).2 ∧
      Slot.Run sim.pending (((sim.historyFrom calls).map (eventOf sim.params)).take n) sim'.pending := by
  induction calls generalizing sim n with
  | nil => simp [historyFrom] at h
  | cons d calls ih =>
    rw [historyFrom_cons] at h ⊢
    cases n with
    | zero =>
      rw [List.getElem?_cons_zero, Option.some.injEq, Prod.mk.injEq] at h
      exact ⟨sim, rfl, by rw [← h.2, ← h.1], .nil _⟩
    | succ n =>
      obtain ⟨sim', hparams, hr, hrun⟩ := ih (sim.call d).1 h
      rw [call_params] at hparams hrun
      exact ⟨sim', hparams, hr, .cons (sim.call_step d) hrun⟩

/-- The events of the history of a new simulator. -/
def events (params : ExecutionParams) (calls : List Call) : List (SlotEvent PendingOrder) :=
  (history params calls).map (eventOf params)

lemma events_run (params : ExecutionParams) (calls : List Call) :
    ∃ s, Slot.Run none (events params calls) s :=
  historyFrom_run { params := params } calls

/-- An accepted `submit`. -/
def accepted : Call × Reply → Bool
  | (.submit .., .submitted true) => true
  | _ => false

/-- A fill, or a `cancel`. -/
def ends : Call × Reply → Bool
  | (.atFill .., .filled (some _)) => true
  | (.cancel, _) => true
  | _ => false

/-- The `submit` at `i` is accepted, and nothing has ended its order before the call at `n`. -/
def InFlight (hist : List (Call × Reply)) (n i : Nat) : Prop :=
  (∃ entry, hist[i]? = some entry ∧ accepted entry = true) ∧ i < n ∧
    ∀ k entry, i < k → k < n → hist[k]? = some entry → ends entry = false

/-- The `submit` at `i` is the last that is accepted before the call at `n`. -/
def LastAccepted (hist : List (Call × Reply)) (n i : Nat) : Prop :=
  (∃ entry, hist[i]? = some entry ∧ accepted entry = true) ∧ i < n ∧
    ∀ k entry, i < k → k < n → hist[k]? = some entry → accepted entry = false

/-- The call at `n` returns this fill. -/
def FillsAt (hist : List (Call × Reply)) (n : Nat) (nowMs : Int) (bid ask : ℚ) (fill : Fill) : Prop :=
  hist[n]? = some (.atFill nowMs bid ask, .filled (some fill))

/-- What a fill has to do with an accepted `submit`. -/
structure FillOf (params : ExecutionParams) (side : Side) (signalTsMs : Int)
    (signalMid lagBid lagAsk : ℚ) (nowMs : Int) (fill : Fill) : Prop where
  side_eq : fill.side = side
  signalTs : fill.signalTsMs = signalTsMs
  mark : fill.signalMark = signalMid
  bid : fill.signalBid = lagBid
  ask : fill.signalAsk = lagAsk
  due : signalTsMs + params.delayMs ≤ nowMs
  outcome : fill.filled = !fill.rejected

/-- One order is in flight at a time; a fill is of the order in flight, and no `submit` has two fills. -/
structure LifeCycle (params : ExecutionParams) (hist : List (Call × Reply)) : Prop where
  single : ∀ n i i', InFlight hist n i → InFlight hist n i' → i = i'
  fills : ∀ n nowMs bid ask fill, FillsAt hist n nowMs bid ask fill →
    ∃ i side signalTsMs signalMid lagBid lagAsk, InFlight hist n i ∧ LastAccepted hist n i ∧
      hist[i]? = some (.submit side signalTsMs signalMid lagBid lagAsk, .submitted true) ∧
      FillOf params side signalTsMs signalMid lagBid lagAsk nowMs fill
  once : ∀ i n n', LastAccepted hist n i → LastAccepted hist n' i →
    (∃ nowMs bid ask fill, FillsAt hist n nowMs bid ask fill) →
    (∃ nowMs bid ask fill, FillsAt hist n' nowMs bid ask fill) → n = n'

variable (params) in
lemma accepted_iff (entry : Call × Reply) :
    accepted entry = true ↔ ∃ x, eventOf params entry = .put x := by
  obtain ⟨c, r⟩ := entry
  cases c with
  | submit side signalTsMs signalMid lagBid lagAsk =>
    cases r with
    | submitted ok => cases ok <;> simp [accepted, eventOf]
    | filled out => simp [accepted, eventOf]
    | cancelled => simp [accepted, eventOf]
  | atFill nowMs bid ask =>
    cases r with
    | filled out => cases out <;> simp [accepted, eventOf]
    | submitted ok => simp [accepted, eventOf]
    | cancelled => simp [accepted, eventOf]
  | cancel => simp [accepted, eventOf]

variable (params) in
lemma ends_iff (entry : Call × Reply) : ends entry = false ↔
    eventOf params entry ≠ .clear ∧ ∀ x, eventOf params entry ≠ .take x := by
  obtain ⟨c, r⟩ := entry
  cases c with
  | submit side signalTsMs signalMid lagBid lagAsk =>
    cases r with
    | submitted ok => cases ok <;> simp [ends, eventOf]
    | filled out => simp [ends, eventOf]
    | cancelled => simp [ends, eventOf]
  | atFill nowMs bid ask =>
    cases r with
    | filled out => cases out <;> simp [ends, eventOf]
    | submitted ok => simp [ends, eventOf]
    | cancelled => simp [ends, eventOf]
  | cancel => simp [ends, eventOf]

variable {hist : List (Call × Reply)} {n i : Nat}

variable (params) in
lemma put_iff (hist : List (Call × Reply)) (i : Nat) :
    (∃ x, (hist.map (eventOf params))[i]? = some (.put x)) ↔
      ∃ entry, hist[i]? = some entry ∧ accepted entry = true := by
  rw [List.getElem?_map]
  cases hist[i]? with
  | none => simp
  | some entry => simp [accepted_iff params]

lemma inFlight_iff : InFlight hist n i ↔ Slot.InFlight (hist.map (eventOf params)) n i := by
  constructor
  · rintro ⟨hput, hbefore, hkept⟩
    refine ⟨(put_iff params hist i).mpr hput, hbefore, ?_⟩
    intro k hik hkn
    rw [List.getElem?_map]
    cases hk : hist[k]? with
    | none => simp
    | some entry => simpa using (ends_iff params entry).mp (hkept k entry hik hkn hk)
  · intro h
    refine ⟨(put_iff params hist i).mp h.put, h.before, ?_⟩
    intro k entry hik hkn hk
    have hkept := h.kept k hik hkn
    rw [List.getElem?_map, hk] at hkept
    exact (ends_iff params entry).mpr (by simpa using hkept)

lemma lastAccepted_iff : LastAccepted hist n i ↔ Slot.LastPut (hist.map (eventOf params)) n i := by
  constructor
  · rintro ⟨hput, hbefore, hlast⟩
    refine ⟨(put_iff params hist i).mpr hput, hbefore, ?_⟩
    intro k hik hkn x hx
    obtain ⟨entry, hk, haccepted⟩ := (put_iff params hist k).mp ⟨x, hx⟩
    rw [hlast k entry hik hkn hk] at haccepted
    cases haccepted
  · intro h
    refine ⟨(put_iff params hist i).mp h.put, h.before, ?_⟩
    intro k entry hik hkn hk
    rw [← Bool.not_eq_true]
    intro haccepted
    obtain ⟨x, hx⟩ := (put_iff params hist k).mpr ⟨entry, hk, haccepted⟩
    exact h.last k hik hkn x hx

lemma FillsAt.take {nowMs : Int} {bid ask : ℚ} {fill : Fill} (h : FillsAt hist n nowMs bid ask fill) :
    (hist.map (eventOf params))[n]? = some (.take (orderOf fill)) := by
  rw [List.getElem?_map, h]
  rfl

/-- An accepted order is recorded as it was submitted. -/
lemma submit_of_put {order : PendingOrder} (h : (hist.map (eventOf params))[i]? = some (.put order)) :
    ∃ side signalTsMs signalMid lagBid lagAsk,
      hist[i]? = some (.submit side signalTsMs signalMid lagBid lagAsk, .submitted true) ∧
      order = orderFor params side signalTsMs signalMid lagBid lagAsk := by
  obtain ⟨⟨c, r⟩, hi, haccepted⟩ := (put_iff params hist i).mp ⟨order, h⟩
  rw [List.getElem?_map, hi] at h
  unfold accepted at haccepted
  split at haccepted
  · rename_i side signalTsMs signalMid lagBid lagAsk heq
    cases heq
    refine ⟨side, signalTsMs, signalMid, lagBid, lagAsk, hi, ?_⟩
    simpa [eventOf] using h.symm
  · cases haccepted

/-- A fill is returned when its order is due, and either filled or rejected. -/
lemma FillsAt.due {calls : List Call} {nowMs : Int} {bid ask : ℚ} {fill : Fill}
    (h : FillsAt (history params calls) n nowMs bid ask fill) :
    fill.targetFillTsMs ≤ nowMs ∧ fill.filled = (!fill.rejected) ∧
      (fill.filled = true ↔ ¬MeetsRejection params fill.side bid ask) := by
  obtain ⟨sim, hparams, hr, -⟩ := historyFrom_reply { params := params } h
  obtain ⟨-, heq⟩ | ⟨order, out, -, hdue, heq, horder, houtcome, hmeets⟩ := sim.atFill_eq nowMs bid ask
  · simp [call, heq] at hr
  · simp only [call, heq, Reply.filled.injEq, Option.some.injEq] at hr
    subst hr
    rw [← horder, show sim.params = params from hparams] at hmeets
    rw [← horder] at hdue
    exact ⟨hdue, houtcome, hmeets⟩

/-- A fill is of the order in flight. -/
lemma FillsAt.inFlight {calls : List Call} {nowMs : Int} {bid ask : ℚ} {fill : Fill}
    (h : FillsAt (history params calls) n nowMs bid ask fill) :
    ∃ i side signalTsMs signalMid lagBid lagAsk, InFlight (history params calls) n i ∧
      (history params calls)[i]? = some (.submit side signalTsMs signalMid lagBid lagAsk, .submitted true) ∧
      orderOf fill = orderFor params side signalTsMs signalMid lagBid lagAsk := by
  obtain ⟨s, hrun⟩ := events_run params calls
  obtain ⟨i, hput, hflight⟩ := Slot.take_inFlight hrun h.take
  obtain ⟨side, signalTsMs, signalMid, lagBid, lagAsk, hi, horder⟩ := submit_of_put hput
  exact ⟨i, side, signalTsMs, signalMid, lagBid, lagAsk, inFlight_iff.mpr hflight, hi, horder⟩

/-- Every history of a simulator is a life cycle of its orders, and a call that returns false leaves the
simulator as it is. -/
theorem life_cycle (params : ExecutionParams) (calls : List Call) :
    LifeCycle params (history params calls) ∧
      ∀ (sim : ExecutionSimulator) (c : Call), (sim.call c).2.refused = true → (sim.call c).1 = sim := by
  obtain ⟨s, hrun⟩ := events_run params calls
  refine ⟨⟨?_, ?_, ?_⟩, fun sim c h => call_of_refused h⟩
  · intro n i i' hi hi'
    exact Slot.inFlight_unique hrun (inFlight_iff.mp hi) (inFlight_iff.mp hi')
  · intro n nowMs bid ask fill hfill
    obtain ⟨i, side, signalTsMs, signalMid, lagBid, lagAsk, hflight, hi, horder⟩ := hfill.inFlight
    obtain ⟨hdue, houtcome, -⟩ := hfill.due
    rw [orderOf, orderFor, PendingOrder.mk.injEq] at horder
    obtain ⟨hside, hsignal, htarget, hmark, hbid, hask⟩ := horder
    have hlast := lastAccepted_iff.mpr ((inFlight_iff.mp hflight).lastPut hrun)
    exact ⟨i, side, signalTsMs, signalMid, lagBid, lagAsk, hflight, hlast, hi, hside, hsignal, hmark, hbid,
      hask, htarget ▸ hdue, houtcome⟩
  · rintro i n n' hn hn' ⟨_, _, _, fill, hfill⟩ ⟨_, _, _, fill', hfill'⟩
    exact Slot.taken_once hrun (lastAccepted_iff.mp hn) (lastAccepted_iff.mp hn') ⟨_, hfill.take⟩
      ⟨_, hfill'.take⟩

end ExecutionSimulator

end LatencyArb
