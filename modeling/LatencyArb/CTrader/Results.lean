import LatencyArb.CTrader.Executor

/-!
# Whose result a callback gets

`JobStep` says what a step can do to the requests on the wire and to the callbacks. A result read
from an `EXECUTION_EVENT` belongs to its job as long as no event of an earlier job is left to be
read by the exchange of a later order.
-/

namespace LatencyArb

namespace CTrader

/-- The result of the first attempt, kept during the second. -/
def Stage.failed : Stage → Option Outcome
  | .tls task => task.failed
  | .exchange task _ _ => task.failed
  | .snapshot task => task.failed
  | .unstarted => none
  | .idle => none
  | .finished => none

/-- The event that `place_order` reads, where its exchange ends with this frame. -/
def Frame.event (frame : Frame) : Option ExecutionEvent :=
  match frame.content with
  | .execution event =>
    if frame.type = Payload.executionEvent ∧ frame.raw ≠ "" then some event else none
  | _ => none

lemma Frame.event_eq_some {frame : Frame} {event : ExecutionEvent} :
    frame.event = some event ↔
      frame.type = Payload.executionEvent ∧ frame.raw ≠ "" ∧ frame.content = .execution event := by
  unfold Frame.event
  constructor
  · intro h
    split at h
    · rename_i content heq
      split at h
      · rename_i hframe
        rw [heq]
        cases h
        exact ⟨hframe.1, hframe.2, rfl⟩
      · cases h
    · cases h
  · rintro ⟨htype, hraw, hcontent⟩
    rw [hcontent]
    exact if_pos ⟨htype, hraw⟩

/-- Nothing of the result is read from an event. -/
def Outcome.Blank (o : Outcome) : Prop :=
  o.frame = none ∧ o.result.status = "" ∧ o.result.orderId = 0 ∧ o.result.positionId = 0

end CTrader

open CTrader

namespace CTraderExecutor

variable {cfg : Config}

/-- The results `place_order` can return in the step `a` from `e`. -/
def Returns (e : CTraderExecutor) (a : Action) (o : Outcome) : Prop :=
  o.Blank ∨ ∃ task order info frame event,
    e.stage = .exchange task (.newOrder order info) true ∧ a = .read (.frame frame) ∧
    frame.event = some event ∧ o = { result := resultOf event, frame := some frame }

inductive JobStep (e : CTraderExecutor) (a : Action) (e' : CTraderExecutor) : Prop where
  | quiet (sent : e'.sent = e.sent) (reports : e'.reports = e.reports)
      (failed : e'.stage.failed = none ∨ e'.stage.failed = e.stage.failed)
  | send (order : NewOrderReq) (job : OrderJob)
      (sent : e'.sent = e.sent ++ [⟨order, job, e.reports.length⟩]) (reports : e'.reports = e.reports)
      (failed : e'.stage.failed = e.stage.failed)
  | retry (o : Outcome) (returned : e.Returns a o) (sent : e'.sent = e.sent)
      (reports : e'.reports = e.reports) (failed : e'.stage.failed = some o)
  | report (o : Outcome) (returned : e.Returns a o ∨ e.stage.failed = some o)
      (sent : e'.sent = e.sent) (reports : e'.reports = e.reports ++ [o])
      (failed : e'.stage.failed = none)

/-- `e` is in the middle of a step from `e₀` with `task` in hand. -/
structure Handling (e₀ e : CTraderExecutor) (task : Task) : Prop where
  sent : e.sent = e₀.sent
  reports : e.reports = e₀.reports
  failed : e₀.stage.failed = task.failed

section Handling

variable {e₀ e : CTraderExecutor} {task : Task} {a : Action}

lemma Handling.ask (h : Handling e₀ e task) (request : Request) :
    JobStep e₀ a (e.ask task request) :=
  .quiet h.sent h.reports (Or.inr h.failed.symm)

lemma Handling.askOrder (h : Handling e₀ e task) (info : SymbolInfo) :
    JobStep e₀ a (e.askOrder task info) :=
  .quiet h.sent h.reports (Or.inr h.failed.symm)

lemma Handling.placeOrder (h : Handling e₀ e task) : JobStep e₀ a (e.placeOrder task) := by
  unfold CTraderExecutor.placeOrder
  by_cases hinfo : (!e.syminfo.valid || e.syminfo.symbolId == 0) = true
  · rw [if_pos hinfo]
    exact h.ask _
  · rw [if_neg hinfo]
    exact h.askOrder _

lemma Handling.report (h : Handling e₀ e task) {o : Outcome}
    (ho : e₀.Returns a o ∨ e₀.stage.failed = some o) : JobStep e₀ a (e.report o) := by
  have hreports : (e.report o).reports = e₀.reports ++ [o] := by
    simp only [CTraderExecutor.report, h.reports]
  exact .report o ho h.sent hreports rfl

lemma Handling.disconnect (h : Handling e₀ e task) : Handling e₀ e.disconnect task :=
  ⟨h.sent, h.reports, h.failed⟩

lemma Handling.attemptDone (h : Handling e₀ e task) {o : Outcome} (ho : e₀.Returns a o) :
    JobStep e₀ a (e.attemptDone task o) := by
  unfold CTraderExecutor.attemptDone
  by_cases hok : o.result.ok = true
  · rw [if_pos hok]
    exact h.report (Or.inl ho)
  · rw [if_neg hok]
    split
    · exact .retry o ho h.sent h.reports rfl
    · exact h.report (Or.inl ho)

lemma Handling.connectFailed (h : Handling e₀ e task) : JobStep e₀ a (e.connectFailed task) := by
  unfold CTraderExecutor.connectFailed
  split
  · exact .quiet h.sent h.reports (Or.inl rfl)
  · rename_i o ho
    exact h.disconnect.report (Or.inr (h.failed.trans ho))

lemma blank_of_error (error : String) : Outcome.Blank { result := { error := error } } :=
  ⟨rfl, rfl, rfl, rfl⟩

lemma Handling.fail (h : Handling e₀ e task) (error : String) (request : Request) :
    JobStep e₀ a (e.fail task error request) := by
  unfold CTraderExecutor.fail
  split
  · exact h.attemptDone (Or.inl (blank_of_error _))
  · exact h.attemptDone (Or.inl (blank_of_error _))
  · exact h.attemptDone (Or.inl (blank_of_error _))
  · exact h.connectFailed

lemma Handling.resolved (h : Handling e₀ e task) (info : SymbolInfo) (purpose : Purpose) :
    JobStep e₀ a (e.resolved task info purpose) := by
  cases purpose with
  | connect => exact .quiet h.sent h.reports (Or.inr h.failed.symm)
  | order => exact .quiet h.sent h.reports (Or.inr h.failed.symm)

lemma Handling.accept (h : Handling e₀ e task) (request : Request) (frame : Frame)
    (hreturns : ∀ order info event, request = .newOrder order info → frame.raw ≠ "" →
      frame.content = .execution event →
      e₀.Returns a { result := resultOf event, frame := some frame }) :
    JobStep e₀ a (e.accept cfg task request frame) := by
  unfold CTraderExecutor.accept
  by_cases hraw : frame.raw = ""
  · rw [if_pos hraw]
    exact h.fail _ _
  · rw [if_neg hraw]
    split
    · exact h.ask _
    · exact h.ask _
    · dsimp only
      split
      · exact h.fail _ _
      · exact h.ask _
    · exact h.fail _ _
    · exact h.resolved _ _
    · exact h.fail _ _
    · exact h.fail _ _
    · exact .quiet h.sent h.reports (Or.inr h.failed.symm)
    · rename_i hcontent
      exact h.attemptDone (hreturns _ _ _ rfl hraw hcontent)
    · exact h.attemptDone (Or.inl (blank_of_error _))

lemma Handling.storeSpot (h : Handling e₀ e task) (bid ask : Nat) :
    Handling e₀ (e.storeSpot bid ask) task :=
  ⟨h.sent, h.reports, h.failed⟩

lemma handling_of_stage {e : CTraderExecutor} {task : Task} (h : e.stage.failed = task.failed) :
    Handling e e task :=
  ⟨rfl, rfl, h⟩

end Handling

lemma onFrame_jobStep {e : CTraderExecutor} {task : Task} {request : Request}
    (hstage : e.stage = .exchange task request true) (frame : Frame) :
    JobStep e (.read (.frame frame)) (e.onFrame cfg task request frame) := by
  have h : Handling e e task := handling_of_stage (by rw [hstage]; rfl)
  unfold onFrame
  by_cases htype : frame.type = request.expect
  · rw [if_pos htype]
    apply h.accept
    intro order info event hrequest hraw hcontent
    subst hrequest
    have hevent : frame.event = some event := Frame.event_eq_some.mpr ⟨htype, hraw, hcontent⟩
    exact Or.inr ⟨task, order, info, frame, event, hstage, rfl, hevent, rfl⟩
  · rw [if_neg htype]
    obtain ⟨bid, ask, hquote⟩ := e.dispatchOther_quote frame
    split
    · rename_i e₁ error heq
      rw [heq] at hquote
      dsimp only at hquote
      have h₁ : Handling e e₁ task := hquote ▸ ⟨h.sent, h.reports, h.failed⟩
      exact h₁.fail _ _
    · rename_i e₁ heq
      rw [heq] at hquote
      dsimp only at hquote
      subst hquote
      exact .quiet rfl rfl (Or.inr rfl)

lemma onSnapshot_jobStep {e : CTraderExecutor} {task : Task} {a : Action}
    (h : Handling e e task) (frame : Frame) : JobStep e a (e.onSnapshot task frame) := by
  unfold onSnapshot
  split
  · split
    · exact (h.storeSpot _ _).placeOrder
    · exact .quiet rfl rfl (Or.inr rfl)
  · exact .quiet rfl rfl (Or.inr rfl)

lemma take_jobStep {e : CTraderExecutor} (hstage : e.stage = .idle) : JobStep e .take e.take := by
  unfold take
  split
  · exact .quiet rfl rfl (Or.inl rfl)
  · split
    · exact .quiet rfl rfl (Or.inr rfl)
    · rename_i job jobs hjobs
      have h : Handling e { e with jobs := jobs } { job := job } :=
        ⟨rfl, rfl, by rw [hstage]; rfl⟩
      dsimp only
      split
      · exact h.placeOrder
      · exact .quiet rfl rfl (Or.inl rfl)

lemma sendRequest_jobStep {e : CTraderExecutor} {task : Task} {request : Request} {a : Action}
    (h : Handling e e task) : JobStep e a (e.sendRequest task request) := by
  unfold sendRequest
  split
  · exact .send _ _ rfl rfl h.failed.symm
  · exact .quiet rfl rfl (Or.inr h.failed.symm)

theorem step_jobStep {e e' : CTraderExecutor} {a : Action} (hs : e.step cfg a = some e') :
    JobStep e a e' := by
  cases step_moves hs with
  | start =>
    unfold start
    split
    · exact .quiet rfl rfl (Or.inl rfl)
    · exact .quiet rfl rfl (Or.inr rfl)
  | execute job =>
    unfold execute
    split <;> exact .quiet rfl rfl (Or.inr rfl)
  | stop => exact .quiet rfl rfl (Or.inr rfl)
  | take stage => exact take_jobStep stage
  | tlsUp task stage => exact .quiet rfl rfl (Or.inr (by rw [stage]; rfl))
  | tlsFailed task stage => exact (handling_of_stage (by rw [stage]; rfl)).connectFailed
  | send task request stage =>
    exact sendRequest_jobStep (handling_of_stage (by rw [stage]; rfl))
  | sendFailed task request stage => exact (handling_of_stage (by rw [stage]; rfl)).fail _ _
  | readFailed task request stage => exact (handling_of_stage (by rw [stage]; rfl)).fail _ _
  | readFrame task request frame stage => exact onFrame_jobStep stage frame
  | undecodable => exact .quiet rfl rfl (Or.inr rfl)
  | snapshotFailed task stage => exact (handling_of_stage (by rw [stage]; rfl)).connectFailed
  | snapshotFrame task frame stage =>
    exact onSnapshot_jobStep (handling_of_stage (by rw [stage]; rfl)) frame
  | timeout task stage => exact (handling_of_stage (by rw [stage]; rfl)).connectFailed
  | close stage =>
    obtain ⟨hsent, hreports, hstage⟩ := e.closeStream_keeps
    exact .quiet hsent hreports (Or.inr (by rw [hstage]))
  | join stage =>
    obtain ⟨hsent, hreports, -⟩ := e.closeStream_keeps
    exact .quiet hsent hreports (Or.inl rfl)

/-- The job, by its callback, to whose request the server answered with the frame. -/
def callbackOf (e : CTraderExecutor) (frame : Frame) : Option Nat :=
  frame.owner.bind (fun i => (e.sent[i]?).map SentOrder.callback)

/-- Callback `k` says nothing of an order, or what an event for a request of its own job says. -/
def OwnResult (e : CTraderExecutor) (k : Nat) (o : Outcome) : Prop :=
  o.Blank ∨ ∃ frame event, o.frame = some frame ∧ frame.event = some event ∧
    o.result = resultOf event ∧ e.callbackOf frame = some k

def OwnResults (e : CTraderExecutor) : Prop := ∀ k o, e.reports[k]? = some o → e.OwnResult k o

/-- An event that arrives while an order waits answers a request, and not one of a job whose
callback has been made. -/
def nothingLeft (e : CTraderExecutor) (a : Action) : Bool :=
  match e.stage, a with
  | .exchange _ (.newOrder _ _) true, .read (.frame frame) =>
    frame.event.isNone || (e.callbackOf frame).any (fun k => decide (e.reports.length ≤ k))
  | _, _ => true

lemma nothingLeft_iff {e : CTraderExecutor} {task : Task} {order : NewOrderReq}
    {info : SymbolInfo} {frame : Frame} {event : ExecutionEvent}
    (hstage : e.stage = .exchange task (.newOrder order info) true)
    (hevent : frame.event = some event) :
    e.nothingLeft (.read (.frame frame)) = true ↔
      ∃ k, e.callbackOf frame = some k ∧ e.reports.length ≤ k := by
  simp [nothingLeft, hstage, hevent, Option.any_eq_true]

structure ResultsInv (e : CTraderExecutor) : Prop where
  calls : ∀ order ∈ e.sent, order.callback ≤ e.reports.length
  failed : ∀ o, e.stage.failed = some o → e.OwnResult e.reports.length o
  reports : e.OwnResults

lemma callbackOf_mono {e e' : CTraderExecutor} {frame : Frame} {k : Nat}
    (h : e.callbackOf frame = some k) (hsent : e.sent <+: e'.sent) :
    e'.callbackOf frame = some k := by
  obtain ⟨i, howner, hi⟩ := Option.bind_eq_some_iff.mp h
  obtain ⟨order, horder, rfl⟩ := Option.map_eq_some_iff.mp hi
  obtain ⟨hlt, rfl⟩ := List.getElem?_eq_some_iff.mp horder
  unfold callbackOf
  rw [howner, Option.bind_some, List.prefix_iff_getElem?.mp hsent i hlt]
  rfl

lemma callbackOf_le {e : CTraderExecutor} {frame : Frame} {k : Nat}
    (h : e.callbackOf frame = some k) (hcalls : ∀ order ∈ e.sent, order.callback ≤ e.reports.length) :
    k ≤ e.reports.length := by
  obtain ⟨i, -, hi⟩ := Option.bind_eq_some_iff.mp h
  obtain ⟨order, horder, rfl⟩ := Option.map_eq_some_iff.mp hi
  exact hcalls order (List.mem_of_getElem? horder)

lemma OwnResult.mono {e e' : CTraderExecutor} {o : Outcome} {k : Nat} (h : e.OwnResult k o)
    (hsent : e.sent <+: e'.sent) : e'.OwnResult k o := by
  rcases h with hblank | ⟨frame, event, hframe, hevent, hresult, hk⟩
  · exact Or.inl hblank
  · exact Or.inr ⟨frame, event, hframe, hevent, hresult, callbackOf_mono hk hsent⟩

lemma Returns.ownResult {e : CTraderExecutor} {a : Action} {o : Outcome} (ho : e.Returns a o)
    (hcalls : ∀ order ∈ e.sent, order.callback ≤ e.reports.length)
    (hleft : e.nothingLeft a = true) : e.OwnResult e.reports.length o := by
  rcases ho with hblank | ⟨task, order, info, frame, event, hstage, rfl, hevent, rfl⟩
  · exact Or.inl hblank
  · obtain ⟨k, hk, hge⟩ := (nothingLeft_iff hstage hevent).mp hleft
    have hlast : k = e.reports.length := le_antisymm (callbackOf_le hk hcalls) hge
    exact Or.inr ⟨frame, event, rfl, hevent, rfl, hlast ▸ hk⟩

lemma OwnResults.mono {e e' : CTraderExecutor} (h : e.OwnResults) (hsent : e.sent <+: e'.sent)
    (hreports : e'.reports = e.reports) : e'.OwnResults := by
  intro k o hk
  rw [hreports] at hk
  exact (h k o hk).mono hsent

lemma JobStep.resultsInv {e e' : CTraderExecutor} {a : Action} (hs : JobStep e a e')
    (hI : e.ResultsInv) (hleft : e.nothingLeft a = true) : e'.ResultsInv := by
  cases hs with
  | quiet sent reports failed =>
    have hprefix : e.sent <+: e'.sent := by rw [sent]
    refine ⟨by rw [sent, reports]; exact hI.calls, ?_, hI.reports.mono hprefix reports⟩
    intro o ho
    rw [reports]
    rcases failed with hnone | hsame
    · rw [hnone] at ho
      cases ho
    · exact (hI.failed o (hsame ▸ ho)).mono hprefix
  | send order job sent reports failed =>
    have hprefix : e.sent <+: e'.sent := by
      rw [sent]
      exact List.prefix_append _ _
    refine ⟨?_, ?_, hI.reports.mono hprefix reports⟩
    · intro o ho
      rw [reports]
      rw [sent] at ho
      rcases List.mem_append.mp ho with hold | hnew
      · exact hI.calls o hold
      · rw [List.mem_singleton.mp hnew]
    · intro o ho
      rw [reports]
      exact (hI.failed o (failed ▸ ho)).mono hprefix
  | retry o returned sent reports failed =>
    have hprefix : e.sent <+: e'.sent := by rw [sent]
    refine ⟨by rw [sent, reports]; exact hI.calls, ?_, hI.reports.mono hprefix reports⟩
    intro o' ho'
    rw [failed, Option.some.injEq] at ho'
    subst ho'
    rw [reports]
    exact (returned.ownResult hI.calls hleft).mono hprefix
  | report o returned sent reports failed =>
    have hprefix : e.sent <+: e'.sent := by rw [sent]
    refine ⟨?_, by simp [failed], ?_⟩
    · intro order horder
      rw [sent] at horder
      rw [reports, List.length_append]
      exact (hI.calls order horder).trans (Nat.le_add_right _ _)
    · intro k o' hk
      rw [reports, List.getElem?_append] at hk
      split at hk
      · exact (hI.reports k o' hk).mono hprefix
      · rename_i hlt
        have hlast : k = e.reports.length := by
          have := (List.getElem?_eq_some_iff.mp hk).1
          simp only [List.length_singleton] at this
          omega
        subst hlast
        simp only [Nat.sub_self, List.getElem?_cons_zero, Option.some.injEq] at hk
        subst hk
        rcases returned with hreturns | hfailed
        · exact (hreturns.ownResult hI.calls hleft).mono hprefix
        · exact (hI.failed o hfailed).mono hprefix

theorem reachable_resultsInv {run : List Action} {e : CTraderExecutor}
    (hleft : (machine cfg).Always run (fun e a _ => e.nothingLeft a = true))
    (hrun : (machine cfg).run (machine cfg).init run = some e) : e.ResultsInv := by
  have h0 : (machine cfg).init.ResultsInv := ⟨by simp [machine], by simp [machine, Stage.failed], by
    simp [machine, OwnResults]⟩
  apply (machine cfg).invariant_of_always h0 _ hleft hrun
  intro s a t _ hI hs hC
  exact (step_jobStep hs).resultsInv hI hC

/-- In every run that reads no event of an earlier job, the callbacks get their own results. -/
theorem results_own_of_nothingLeft (run : List Action) (e : CTraderExecutor)
    (hleft : (machine cfg).Always run (fun e a _ => e.nothingLeft a = true))
    (hrun : (machine cfg).run (machine cfg).init run = some e) : e.OwnResults :=
  (reachable_resultsInv hleft hrun).reports

/-- At an event that ends the job at once the condition is also necessary. -/
theorem decided_ownResults_iff {e : CTraderExecutor} {task : Task} {order : NewOrderReq}
    {info : SymbolInfo} {frame : Frame} {event : ExecutionEvent} (hI : e.ResultsInv)
    (hstage : e.stage = .exchange task (.newOrder order info) true)
    (hevent : frame.event = some event)
    (hends : (resultOf event).ok = true ∨ task.failed.isSome = true) :
    (e.onFrame cfg task (.newOrder order info) frame).OwnResults ↔
      e.nothingLeft (.read (.frame frame)) = true := by
  have hdone : e.onFrame cfg task (.newOrder order info) frame =
      e.report { result := resultOf event, frame := some frame } := by
    obtain ⟨htype, hraw, hcontent⟩ := Frame.event_eq_some.mp hevent
    simp only [onFrame, Request.expect, htype, ↓reduceIte, accept, hraw, hcontent, attemptDone]
    rcases hends with hok | hsecond
    · rw [if_pos hok]
    · obtain ⟨o, ho⟩ := Option.isSome_iff_exists.mp hsecond
      split
      · rfl
      · rw [ho]
  constructor
  · intro hown
    rw [hdone] at hown
    have hlast := hown e.reports.length { result := resultOf event, frame := some frame }
      (by simp [report])
    rcases hlast with hblank | ⟨f, _, hf, -, -, hk⟩
    · cases hblank.1
    · cases hf
      exact (nothingLeft_iff hstage hevent).mpr ⟨e.reports.length, hk, le_rfl⟩
  · intro hleft
    exact ((onFrame_jobStep hstage frame).resultsInv hI hleft).reports

def answer (type : Int) (content : Content) : Action :=
  .read (.frame { type := type, raw := "payload", content := content })

/-- A connect that goes through, with the server's answers about its symbols. -/
def connecting (symbols : List (String × Int)) (symbolId : Int) (details : SymbolDetails) :
    List Action :=
  [.tls true, .send true, answer Payload.applicationAuthRes .undecoded,
    .send true, answer Payload.accountAuthRes .undecoded,
    .send true, answer Payload.symbolsListRes (.symbolsList symbols),
    .send true, answer Payload.symbolByIdRes (.symbolById [details]),
    .send true, answer Payload.subscribeSpotsRes .undecoded,
    answer Payload.spotEvent (.spot symbolId 265000000 265010000)]

/-- The server reports on the order request with number `owner`. -/
def orderEvent (owner : Nat) (executionType : String) (orderId : Int) : Action :=
  .read (.frame {
    type := Payload.executionEvent
    raw := "payload"
    content := .execution { executionType := executionType, orderId := orderId, positionId := none }
    owner := some owner })

/-- Two orders on one connection; the second exchange ends with the event given. -/
def twoOrders (last : Action) : List Action :=
  [Action.start, .execute ⟨"XAU/USD", "buy", 1, 20, 40⟩, .execute ⟨"XAU/USD", "sell", 1, 20, 40⟩, .take] ++
    connecting [("XAUUSD", 41)] 41 ⟨2, 1, 10000⟩ ++
    [Action.send true, orderEvent 0 "ORDER_ACCEPTED" 501, .take, .send true, last]

theorem results_own_of_nothingLeft_twoOrders :
    ((machine {}).run (machine {}).init (twoOrders (orderEvent 1 "ORDER_FILLED" 502))).map
      (fun e => e.reports.map (fun o => o.result.orderId)) = some [501, 502] ∧
    ∀ e, (machine {}).run (machine {}).init (twoOrders (orderEvent 1 "ORDER_FILLED" 502)) = some e →
      e.OwnResults := by
  refine ⟨by decide +kernel, ?_⟩
  intro e hrun
  exact results_own_of_nothingLeft _ e ((machine {}).always_of_checks (by decide +kernel)) hrun

/-- The second event of the first order is still unread when the second order is sent. -/
theorem second_job_gets_first_result :
    ∃ e, (machine {}).run (machine {}).init (twoOrders (orderEvent 0 "ORDER_FILLED" 501)) = some e ∧
      e.reports.map (fun o => o.result.orderId) = [501, 501] ∧ ¬e.OwnResults := by
  have hrun : ((machine {}).run (machine {}).init (twoOrders (orderEvent 0 "ORDER_FILLED" 501))).isSome =
      true := by decide +kernel
  obtain ⟨e, he⟩ := Option.isSome_iff_exists.mp hrun
  have hids : ((machine {}).run (machine {}).init (twoOrders (orderEvent 0 "ORDER_FILLED" 501))).map
      (fun e => e.reports.map (fun o => o.result.orderId)) = some [501, 501] := by decide +kernel
  have hsource : ((machine {}).run (machine {}).init (twoOrders (orderEvent 0 "ORDER_FILLED" 501))).map
      (fun e => e.reports[1]?.map (fun o => o.frame.map e.callbackOf)) =
        some (some (some (some 0))) := by decide +kernel
  rw [he, Option.map_some, Option.some.injEq] at hids hsource
  refine ⟨e, he, hids, ?_⟩
  intro hown
  obtain ⟨o, ho, hframe⟩ := Option.map_eq_some_iff.mp hsource
  obtain ⟨frame, hf, hk⟩ := Option.map_eq_some_iff.mp hframe
  rcases hown 1 o ho with hblank | ⟨frame', _, hf', -, -, hk'⟩
  · rw [hblank.1] at hf
    cases hf
  · rw [hf, Option.some.injEq] at hf'
    subst hf'
    rw [hk, Option.some.injEq] at hk'
    cases hk'

end CTraderExecutor

end LatencyArb
