import LatencyArb.Fix.Executor

/-!
# The orders of the FIX executor

Every order that is handed to a stream is the message `build_order` makes of a call that `execute` took.
-/

namespace LatencyArb

namespace Fix

/-- A side that `execute` takes. -/
def OrderJob.Sided (job : OrderJob) : Prop := job.side = "buy" ∨ job.side = "sell"

/-- A frame that carries an order is built from it. -/
def Outgoing.Sound (cfg : Config) (f : Outgoing) : Prop :=
  ∀ job, f.job = some job →
    job.Sided ∧ ∃ transactTime seq time, f.message = buildOrder cfg job transactTime seq time

end Fix

open LatencyArb.Fix

namespace FixExecutor

structure OrdersSound (cfg : Config) (e : FixExecutor) : Prop where
  orders : ∀ job ∈ e.orders, job.Sided
  queue : ∀ f ∈ e.wqueue, f.Sound cfg
  handed : ∀ h ∈ e.handed, h.frame.Sound cfg

variable {cfg : Config} {utc : Nat → String} {e : FixExecutor}

lemma OrdersSound.pumpWrite (h : e.OrdersSound cfg) : e.pumpWrite.OrdersSound cfg := by
  unfold FixExecutor.pumpWrite
  split
  · exact h
  · split
    · exact h
    · rename_i f rest hq
      refine ⟨h.orders, h.queue, ?_⟩
      intro handed hh
      rcases List.mem_append.mp hh with hold | hnew
      · exact h.handed handed hold
      · rw [List.mem_singleton.mp hnew]
        apply h.queue
        rw [hq]
        exact List.mem_cons_self

lemma OrdersSound.ioWrite (h : e.OrdersSound cfg) {f : Outgoing} (hf : f.Sound cfg) :
    (e.ioWrite f).OrdersSound cfg := by
  apply OrdersSound.pumpWrite
  refine ⟨h.orders, ?_, h.handed⟩
  intro g hg
  rcases List.mem_append.mp hg with hold | hnew
  · exact h.queue g hold
  · rw [List.mem_singleton.mp hnew]
    exact hf

/-- A session message carries no order. -/
lemma OrdersSound.send (h : e.OrdersSound cfg) (build : Nat → String → Message) :
    (e.send utc build).OrdersSound cfg := by
  apply OrdersSound.ioWrite
  · exact ⟨h.orders, h.queue, h.handed⟩
  · intro job hjob
    cases hjob

lemma OrdersSound.sendOrder (h : e.OrdersSound cfg) {job : OrderJob} (hjob : job.Sided) :
    (e.sendOrder cfg utc job).OrdersSound cfg := by
  apply OrdersSound.ioWrite
  · exact ⟨h.orders, h.queue, h.handed⟩
  · intro job' hjob'
    obtain rfl := Option.some.inj hjob'
    exact ⟨hjob, _, _, _, rfl⟩

lemma OrdersSound.drainOrders (h : e.OrdersSound cfg) : (e.drainOrders cfg utc).OrdersSound cfg := by
  unfold FixExecutor.drainOrders
  split
  · exact h
  · have hstart : ({ e with orders := [] } : FixExecutor).OrdersSound cfg :=
      ⟨by simp, h.queue, h.handed⟩
    have hjobs := h.orders
    generalize ({ e with orders := [] } : FixExecutor) = d at hstart
    generalize e.orders = jobs at hjobs
    induction jobs generalizing d with
    | nil => exact hstart
    | cons job jobs ih =>
      apply ih _ (hstart.sendOrder (hjobs job List.mem_cons_self))
      intro j hj
      exact hjobs j (List.mem_cons_of_mem job hj)

lemma OrdersSound.execute (h : e.OrdersSound cfg) (call : OrderCall) :
    (e.execute call).OrdersSound cfg := by
  unfold FixExecutor.execute
  split
  · exact h
  · rename_i hvalid
    split
    · exact ⟨h.orders, h.queue, h.handed⟩
    · refine ⟨?_, h.queue, h.handed⟩
      intro job hj
      rcases List.mem_append.mp hj with hold | hnew
      · exact h.orders job hold
      · rw [List.mem_singleton.mp hnew]
        show call.side = "buy" ∨ call.side = "sell"
        by_contra hside
        exact hvalid (.inr (.inl (not_or.mp hside)))

lemma OrdersSound.cancelTimer (h : e.OrdersSound cfg) : e.cancelTimer.OrdersSound cfg := by
  unfold FixExecutor.cancelTimer
  split <;> exact ⟨h.orders, h.queue, h.handed⟩

lemma OrdersSound.startHbTimer (h : e.OrdersSound cfg) : (e.startHbTimer cfg).OrdersSound cfg := by
  unfold FixExecutor.startHbTimer
  split
  · exact h
  · exact ⟨h.cancelTimer.orders, h.cancelTimer.queue, h.cancelTimer.handed⟩

lemma OrdersSound.startRead (h : e.OrdersSound cfg) : e.startRead.OrdersSound cfg := by
  unfold FixExecutor.startRead
  split
  · exact h
  · exact ⟨h.orders, h.queue, h.handed⟩

lemma OrdersSound.onExecutionReport (h : e.OrdersSound cfg) (f : Bytes) :
    (e.onExecutionReport f).OrdersSound cfg := by
  unfold FixExecutor.onExecutionReport
  split
  · exact h
  · split
    · exact h
    · split
      · exact h
      · exact ⟨h.orders, h.queue, h.handed⟩

lemma OrdersSound.handleFrame (h : e.OrdersSound cfg) (f : Bytes) :
    (e.handleFrame cfg utc f).OrdersSound cfg := by
  have hnoted : (({ e with lastRecvMs := e.nowMs, handled := e.handled ++ [f] } :
      FixExecutor).noteFrame cfg utc f).OrdersSound cfg := by
    unfold noteFrame
    split
    · exact ⟨h.orders, h.queue, h.handed⟩
    · apply OrdersSound.send
      exact ⟨h.orders, h.queue, h.handed⟩
  unfold FixExecutor.handleFrame dispatch
  split
  · exact hnoted.onExecutionReport f
  · split
    · exact hnoted.send _
    · split
      · exact ⟨hnoted.orders, hnoted.queue, hnoted.handed⟩
      · exact hnoted

lemma OrdersSound.readAgain (h : e.OrdersSound cfg) : e.readAgain.OrdersSound cfg :=
  ⟨h.startRead.orders, h.startRead.queue, h.startRead.handed⟩

lemma OrdersSound.parse (h : e.OrdersSound cfg) : (e.parse cfg utc).OrdersSound cfg := by
  unfold FixExecutor.parse
  split
  · apply OrdersSound.readAgain
    exact ⟨h.orders, h.queue, h.handed⟩
  · exact ⟨h.orders, h.queue, h.handed⟩
  · rename_i f rest _
    have hframe : (({ e with inbound := rest } : FixExecutor).handleFrame cfg utc f).OrdersSound cfg := by
      apply OrdersSound.handleFrame
      exact ⟨h.orders, h.queue, h.handed⟩
    simp only
    split
    · exact hframe.readAgain
    · exact hframe

lemma OrdersSound.onTimer (h : e.OrdersSound cfg) (aborted : Bool) :
    (e.onTimer cfg utc aborted).OrdersSound cfg := by
  unfold FixExecutor.onTimer
  split
  · exact h
  · split
    · exact ⟨h.orders, h.queue, h.handed⟩
    · split
      · exact (h.send _).startHbTimer
      · exact h.startHbTimer

lemma OrdersSound.onWrote (h : e.OrdersSound cfg) (ok : Bool) : (e.onWrote ok).OrdersSound cfg := by
  have hpop : e.popWritten.OrdersSound cfg :=
    ⟨h.orders, fun f hf => h.queue f (List.mem_of_mem_tail hf), h.handed⟩
  unfold FixExecutor.onWrote
  split
  · exact hpop.pumpWrite
  · exact ⟨hpop.orders, hpop.queue, hpop.handed⟩

lemma OrdersSound.handle (h : e.OrdersSound cfg) (handler : Handler) :
    (e.handle cfg utc handler).OrdersSound cfg := by
  cases handler with
  | drain => exact h.drainOrders
  | logout =>
    show (e.onLogout cfg utc).OrdersSound cfg
    unfold onLogout
    split <;> exact ⟨h.orders, h.queue, h.handed⟩
  | wrote ok => exact h.onWrote ok
  | read outcome => cases outcome <;> exact ⟨h.orders, h.queue, h.handed⟩
  | timer aborted => exact h.onTimer aborted

lemma step_ordersSound {a : Action} {e' : FixExecutor} (h : e.OrdersSound cfg)
    (hs : e.step cfg utc a = some e') : e'.OrdersSound cfg := by
  cases step_moves hs with
  | stop =>
    unfold stop
    split <;> exact ⟨h.orders, h.queue, h.handed⟩
  | join stage =>
    apply OrdersSound.cancelTimer
    exact ⟨h.orders, h.queue, h.handed⟩
  | execute call => exact h.execute call
  | connected stage =>
    have hsent : (e.opened.send utc (buildLogon cfg)).OrdersSound cfg := by
      apply OrdersSound.send
      exact ⟨h.orders, h.queue, h.handed⟩
    exact ⟨hsent.orders, hsent.queue, hsent.handed⟩
  | drain stage => exact ⟨h.drainOrders.orders, h.drainOrders.queue, h.drainOrders.handed⟩
  | listen stage =>
    have hread : ({ e with lastRecvMs := e.nowMs } : FixExecutor).startRead.OrdersSound cfg := by
      apply OrdersSound.startRead
      exact ⟨h.orders, h.queue, h.handed⟩
    exact ⟨hread.orders, hread.queue, hread.handed⟩
  | arm stage => exact ⟨h.startHbTimer.orders, h.startHbTimer.queue, h.startHbTimer.handed⟩
  | handle handler rest stage going next =>
    apply OrdersSound.handle
    exact ⟨h.orders, h.queue, h.handed⟩
  | parse stage => exact h.parse
  | _ => exact ⟨h.orders, h.queue, h.handed⟩

theorem reachable_ordersSound (h : (machine cfg utc).Reachable e) : e.OrdersSound cfg := by
  apply (machine cfg utc).invariant _ _ h
  · exact ⟨by simp [machine], by simp [machine], by simp [machine]⟩
  · intro s a t _ hI hs
    exact step_ordersSound hI hs

end FixExecutor

end LatencyArb
