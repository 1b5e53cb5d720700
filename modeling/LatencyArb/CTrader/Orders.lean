import LatencyArb.CTrader.Executor

/-!
# The orders of the cTrader executor

Every order that is sent is the request `place_order` builds for the job of a call of `execute`.
-/

namespace LatencyArb

namespace CTrader

/-- An order in the exchange is built for the job in hand. -/
def Stage.Built : Stage → Prop
  | .exchange task (.newOrder order info) _ => ∃ nextId, order = buildOrder task.job info nextId
  | _ => True

end CTrader

open CTrader

namespace CTraderExecutor

structure OrdersBuilt (e : CTraderExecutor) : Prop where
  stage : e.stage.Built
  sent : ∀ s ∈ e.sent, ∃ info nextId, s.order = buildOrder s.job info nextId

variable {cfg : Config} {e : CTraderExecutor} {task : Task}

lemma OrdersBuilt.report (h : e.OrdersBuilt) (outcome : Outcome) : (e.report outcome).OrdersBuilt :=
  ⟨trivial, h.sent⟩

lemma OrdersBuilt.askOrder (h : e.OrdersBuilt) (task : Task) (info : SymbolInfo) :
    (e.askOrder task info).OrdersBuilt :=
  ⟨⟨e.nextId + 1, rfl⟩, h.sent⟩

lemma OrdersBuilt.placeOrder (h : e.OrdersBuilt) (task : Task) : (e.placeOrder task).OrdersBuilt := by
  unfold CTraderExecutor.placeOrder
  split
  · exact ⟨trivial, h.sent⟩
  · exact h.askOrder task e.syminfo

lemma OrdersBuilt.attemptDone (h : e.OrdersBuilt) (task : Task) (outcome : Outcome) :
    (e.attemptDone task outcome).OrdersBuilt := by
  unfold CTraderExecutor.attemptDone
  split
  · exact h.report outcome
  · split
    · exact ⟨trivial, h.sent⟩
    · exact h.report outcome

lemma OrdersBuilt.connectFailed (h : e.OrdersBuilt) (task : Task) : (e.connectFailed task).OrdersBuilt := by
  unfold CTraderExecutor.connectFailed
  split <;> exact ⟨trivial, h.sent⟩

lemma OrdersBuilt.fail (h : e.OrdersBuilt) (task : Task) (error : String) (request : Request) :
    (e.fail task error request).OrdersBuilt := by
  unfold CTraderExecutor.fail
  split
  · exact h.attemptDone task _
  · exact h.attemptDone task _
  · exact h.attemptDone task _
  · exact h.connectFailed task

lemma OrdersBuilt.resolved (h : e.OrdersBuilt) (task : Task) (info : SymbolInfo) (purpose : Purpose) :
    (e.resolved task info purpose).OrdersBuilt := by
  cases purpose with
  | connect => exact ⟨trivial, h.sent⟩
  | order =>
    apply OrdersBuilt.askOrder
    exact ⟨h.stage, h.sent⟩

lemma OrdersBuilt.accept (h : e.OrdersBuilt) (task : Task) (request : Request) (frame : Frame) :
    (e.accept cfg task request frame).OrdersBuilt := by
  unfold CTraderExecutor.accept
  split
  · exact h.fail task "" request
  · split
    · exact ⟨trivial, h.sent⟩
    · exact ⟨trivial, h.sent⟩
    · dsimp only
      split
      · exact h.fail task _ _
      · exact ⟨trivial, h.sent⟩
    · exact h.fail task _ _
    · exact h.resolved task _ _
    · exact h.fail task _ _
    · exact h.fail task _ _
    · exact ⟨trivial, h.sent⟩
    · exact h.attemptDone task _
    · exact h.attemptDone task _

lemma OrdersBuilt.onFrame (h : e.OrdersBuilt) (task : Task) (request : Request) (frame : Frame) :
    (e.onFrame cfg task request frame).OrdersBuilt := by
  obtain ⟨bid, ask, hquote⟩ := e.dispatchOther_quote frame
  have hafter : (e.dispatchOther frame).1.OrdersBuilt := by
    rw [hquote]
    exact ⟨h.stage, h.sent⟩
  unfold CTraderExecutor.onFrame
  split
  · exact h.accept task request frame
  · split
    · rename_i heq
      rw [heq] at hafter
      exact hafter.fail task _ request
    · rename_i heq
      rw [heq] at hafter
      exact hafter

lemma OrdersBuilt.onSnapshot (h : e.OrdersBuilt) (task : Task) (frame : Frame) :
    (e.onSnapshot task frame).OrdersBuilt := by
  unfold CTraderExecutor.onSnapshot
  split
  · split
    · apply OrdersBuilt.placeOrder
      exact ⟨h.stage, h.sent⟩
    · exact h
  · exact h

lemma OrdersBuilt.take (h : e.OrdersBuilt) : e.take.OrdersBuilt := by
  unfold CTraderExecutor.take
  split
  · exact ⟨trivial, h.sent⟩
  · split
    · exact h
    · dsimp only
      split
      · apply OrdersBuilt.placeOrder
        exact ⟨h.stage, h.sent⟩
      · exact ⟨trivial, h.sent⟩

lemma OrdersBuilt.sendRequest (h : e.OrdersBuilt) {request : Request}
    (hstage : e.stage = .exchange task request false) : (e.sendRequest task request).OrdersBuilt := by
  have hbuilt := h.stage
  rw [hstage] at hbuilt
  cases request with
  | newOrder order info =>
    refine ⟨hbuilt, ?_⟩
    intro s hs
    rcases List.mem_append.mp hs with hold | hnew
    · exact h.sent s hold
    · rw [List.mem_singleton.mp hnew]
      exact ⟨info, hbuilt⟩
  | _ => exact ⟨trivial, h.sent⟩

lemma OrdersBuilt.closeStream (h : e.OrdersBuilt) : e.closeStream.OrdersBuilt := by
  obtain ⟨hsent, -, hstage⟩ := e.closeStream_keeps
  exact ⟨hstage ▸ h.stage, hsent ▸ h.sent⟩

lemma step_ordersBuilt {a : Action} {e' : CTraderExecutor} (h : e.OrdersBuilt)
    (hs : e.step cfg a = some e') : e'.OrdersBuilt := by
  cases step_moves hs with
  | start =>
    unfold start
    split
    · exact ⟨trivial, h.sent⟩
    · exact h
  | execute job =>
    unfold execute
    split
    · exact h
    · exact ⟨h.stage, h.sent⟩
  | stop => exact ⟨h.stage, h.sent⟩
  | take stage => exact h.take
  | tlsUp task stage => exact ⟨trivial, h.sent⟩
  | tlsFailed task stage => exact h.connectFailed task
  | send task request stage => exact h.sendRequest stage
  | sendFailed task request stage => exact h.fail task _ request
  | readFailed task request stage => exact h.fail task _ request
  | readFrame task request frame stage => exact h.onFrame task request frame
  | undecodable => exact h
  | snapshotFailed task stage => exact h.connectFailed task
  | snapshotFrame task frame stage => exact h.onSnapshot task frame
  | timeout task stage => exact h.connectFailed task
  | close stage => exact h.closeStream
  | join stage => exact ⟨trivial, h.closeStream.sent⟩

theorem reachable_ordersBuilt (h : (machine cfg).Reachable e) : e.OrdersBuilt := by
  apply (machine cfg).invariant _ _ h
  · exact ⟨trivial, by simp [machine]⟩
  · intro s a t _ hI hs
    exact step_ordersBuilt hI hs

end CTraderExecutor

end LatencyArb
