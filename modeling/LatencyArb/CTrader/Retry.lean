import LatencyArb.CTrader.Results

/-!
# Which orders are sent a second time

`worker_loop` makes a second attempt after every failed first one. An order the server has answered
is then sent again unless the answer was that the order is accepted or filled.
-/

namespace LatencyArb

namespace CTrader

/-- The frame ends an exchange that waits for an execution event. -/
def Frame.endsOrder (frame : Frame) : Bool :=
  decide (frame.type ∈ [Payload.executionEvent, Payload.orderErrorEvent, Payload.errorRes,
    Payload.clientDisconnect])

/-- An execution event that says that the order is accepted or filled. -/
def Frame.acceptsOrder (frame : Frame) : Bool :=
  frame.event.any (fun event =>
    decide (event.executionType ∈ ["ORDER_ACCEPTED", "ORDER_FILLED", "ACCEPTED", "FILLED"]))

end CTrader

open CTrader

namespace CTraderExecutor

variable {cfg : Config}

/-- No run from `t` on sends a request of the job whose callback has number `k`. -/
def NeverAgain (cfg : Config) (k : Nat) (t : CTraderExecutor) : Prop :=
  ∀ as u, (machine cfg).run t as = some u → ∀ order ∈ u.sent.drop t.sent.length, order.callback ≠ k

/-- When the server's answer ends the exchange of a first attempt, the order is not sent again. -/
def AnsweredOnce (cfg : Config) (s : CTraderExecutor) (a : Action) (t : CTraderExecutor) : Prop :=
  ∀ task order info frame, s.stage = .exchange task (.newOrder order info) true →
    task.failed = none → a = .read (.frame frame) → t.stage ≠ s.stage →
    NeverAgain cfg s.reports.length t

/-- A frame that ends the exchange of a first attempt says that the order is accepted or filled. -/
def acceptedFirst (s : CTraderExecutor) (a : Action) : Bool :=
  match s.stage, a with
  | .exchange task (.newOrder _ _) true, .read (.frame frame) =>
    task.failed.isSome || !frame.endsOrder || frame.acceptsOrder
  | _, _ => true

lemma acceptedFirst_iff {s : CTraderExecutor} {task : Task} {order : NewOrderReq}
    {info : SymbolInfo} {frame : Frame} (hstage : s.stage = .exchange task (.newOrder order info) true)
    (hfirst : task.failed = none) (hends : frame.endsOrder = true) :
    s.acceptedFirst (.read (.frame frame)) = true ↔ frame.acceptsOrder = true := by
  simp [acceptedFirst, hstage, hfirst, hends]

/-! ## The callbacks of what is sent later -/

lemma JobStep.grows {e e' : CTraderExecutor} {a : Action} (hs : JobStep e a e') :
    e.reports.length ≤ e'.reports.length ∧
      ∃ fresh, e'.sent = e.sent ++ fresh ∧ ∀ order ∈ fresh, e.reports.length ≤ order.callback := by
  cases hs with
  | quiet sent reports failed => exact ⟨by rw [reports], [], by simp [sent], by simp⟩
  | send order job sent reports failed => exact ⟨by rw [reports], _, sent, by simp⟩
  | retry o returned sent reports failed => exact ⟨by rw [reports], [], by simp [sent], by simp⟩
  | report o returned sent reports failed =>
    exact ⟨by simp [reports], [], by simp [sent], by simp⟩

lemma run_grows {e e' : CTraderExecutor} {as : List Action}
    (hrun : (machine cfg).run e as = some e') :
    ∃ fresh, e'.sent = e.sent ++ fresh ∧ ∀ order ∈ fresh, e.reports.length ≤ order.callback := by
  induction as generalizing e with
  | nil =>
    cases hrun
    exact ⟨[], by simp, by simp⟩
  | cons a as ih =>
    rw [Machine.run_cons] at hrun
    obtain ⟨t, ht, hrest⟩ := Option.bind_eq_some_iff.mp hrun
    obtain ⟨hreports, first, hfirst, hcalls⟩ := (step_jobStep ht).grows
    obtain ⟨later, hlater, hlast⟩ := ih hrest
    refine ⟨first ++ later, by rw [hlater, hfirst, List.append_assoc], ?_⟩
    intro order horder
    rcases List.mem_append.mp horder with h | h
    · exact hcalls order h
    · exact hreports.trans (hlast order h)

/-- Once its callback is made a job is not sent again. -/
lemma neverAgain_of_reported {k : Nat} {t : CTraderExecutor} (h : k < t.reports.length) :
    NeverAgain cfg k t := by
  intro as u hrun order horder
  obtain ⟨fresh, hsent, hcalls⟩ := run_grows hrun
  rw [hsent, List.drop_left] at horder
  have hge := hcalls order horder
  omega

/-! ## The second attempt -/

lemma findSymbol_listed (sym : String) (id : Int) : findSymbol sym [(sym, id)] = id := by
  simp [findSymbol]

/-- A server that lists the configured symbol and answers every request of `connect`. -/
def reconnecting (cfg : Config) : List Action :=
  connecting [(configuredSymbol cfg, 41)] 41 ⟨2, 1, 10000⟩ ++ [Action.send true]

/-- A request that is no order, and the answer to it. -/
lemma run_exchange {e u : CTraderExecutor} {task : Task} {request : Request} {type : Int}
    {content : Content} {as : List Action} (hstage : e.stage = .exchange task request false)
    (hsend : e.sendRequest task request = { e with stage := .exchange task request true })
    (haccept : ({ e with stage := .exchange task request true } : CTraderExecutor).accept cfg task request
      { type := type, raw := "payload", content := content } = u)
    (htype : request.expect = type) :
    (machine cfg).run e (.send true :: answer type content :: as) = (machine cfg).run u as := by
  have hsent : (machine cfg).step e (.send true) = some { e with stage := .exchange task request true } := by
    simp [machine, step, hstage, hsend]
  have hread : (machine cfg).step { e with stage := .exchange task request true }
      (answer type content) = some u := by
    simp [machine, step, answer, mayArrive, onRead, onFrame, htype, haccept]
  rw [Machine.run_cons, hsent, Option.bind_some, Machine.run_cons, hread, Option.bind_some]

/-- The first snapshot of the symbol is followed by the order. -/
lemma run_snapshot {e : CTraderExecutor} {task : Task} (hstage : e.stage = .snapshot task)
    (hinfo : e.syminfo = symbolInfo 41 ⟨2, 1, 10000⟩) :
    ∃ u order, (machine cfg).run e
        [answer Payload.spotEvent (.spot 41 265000000 265010000), .send true] = some u ∧
      u.sent = e.sent ++ [⟨order, task.job, e.reports.length⟩] := by
  simp [machine, answer, step, mayArrive, onRead, hstage, onSnapshot, storeSpot, hinfo, symbolInfo,
    placeOrder, askOrder, ask, sendRequest]

lemma reconnecting_sends (cfg : Config) {t : CTraderExecutor} {task : Task} (hstage : t.stage = .tls task) :
    ∃ u order, (machine cfg).run t (reconnecting cfg) = some u ∧
      u.sent = t.sent ++ [⟨order, task.job, t.reports.length⟩] := by
  have htls : (machine cfg).step t (.tls true) =
      some (({ t with connected := true, stream := true } : CTraderExecutor).ask task .applicationAuth) := by
    simp [machine, step, hstage]
  have happlication : ∀ e : CTraderExecutor, e.accept cfg task .applicationAuth
      ⟨Payload.applicationAuthRes, "payload", .undecoded, none⟩ = e.ask task .accountAuth := by
    intro e
    simp [accept]
  have haccount : ∀ e : CTraderExecutor, e.accept cfg task .accountAuth
      ⟨Payload.accountAuthRes, "payload", .undecoded, none⟩ = e.ask task (.symbolsList .connect) := by
    intro e
    simp [accept]
  have hlist : ∀ e : CTraderExecutor, e.accept cfg task (.symbolsList .connect)
      ⟨Payload.symbolsListRes, "payload", .symbolsList [(configuredSymbol cfg, 41)], none⟩ =
        e.ask task (.symbolById .connect 41) := by
    intro e
    simp [accept, wantedSymbol, findSymbol_listed]
  have hdetails : ∀ e : CTraderExecutor, e.accept cfg task (.symbolById .connect 41)
      ⟨Payload.symbolByIdRes, "payload", .symbolById [⟨2, 1, 10000⟩], none⟩ =
        ({ e with syminfo := symbolInfo 41 ⟨2, 1, 10000⟩ } : CTraderExecutor).ask task .subscribeSpots := by
    intro e
    simp [accept, resolved]
  have hspots : ∀ e : CTraderExecutor, e.accept cfg task .subscribeSpots
      ⟨Payload.subscribeSpotsRes, "payload", .undecoded, none⟩ = { e with stage := .snapshot task } := by
    intro e
    simp [accept]
  generalize hinfo : symbolInfo 41 ⟨2, 1, 10000⟩ = info at hdetails
  simp only [reconnecting, connecting, List.cons_append, List.nil_append]
  rw [Machine.run_cons, htls, Option.bind_some]
  rw [run_exchange rfl rfl (happlication _) rfl, run_exchange rfl rfl (haccount _) rfl, run_exchange rfl rfl (hlist _) rfl,
    run_exchange rfl rfl (hdetails _) rfl, run_exchange rfl rfl (hspots _) rfl]
  exact run_snapshot rfl hinfo.symm

/-- After a failed first attempt the order can be sent a second time. -/
lemma not_neverAgain {t : CTraderExecutor} {task : Task} (hstage : t.stage = .tls task) :
    ¬NeverAgain cfg t.reports.length t := by
  intro hnever
  obtain ⟨u, order, hrun, hsent⟩ := reconnecting_sends cfg hstage
  have hmem : (⟨order, task.job, t.reports.length⟩ : SentOrder) ∈ u.sent.drop t.sent.length := by
    rw [hsent, List.drop_left]
    exact List.mem_singleton_self _
  exact hnever _ u hrun _ hmem rfl

/-! ## The end of the first attempt -/

section FirstAttempt

variable {s t : CTraderExecutor} {task : Task} {order : NewOrderReq} {info : SymbolInfo}
  {frame : Frame}

lemma dispatchOther_open (hends : frame.endsOrder = false) : (s.dispatchOther frame).2 = none := by
  simp only [Frame.endsOrder, List.mem_cons, List.not_mem_nil, or_false,
    decide_eq_false_iff_not, not_or] at hends
  obtain ⟨-, hreject, herror, hdisconnect⟩ := hends
  unfold dispatchOther
  rw [if_neg hreject, if_neg herror, if_neg hdisconnect]
  split
  · split <;> rfl
  · rfl

lemma onFrame_open (hends : frame.endsOrder = false) :
    (s.onFrame cfg task (.newOrder order info) frame).stage = s.stage := by
  have htype : frame.type ≠ (Request.newOrder order info).expect := by
    intro heq
    simp [Frame.endsOrder, heq, Request.expect] at hends
  obtain ⟨bid, ask, hquote⟩ := s.dispatchOther_quote frame
  unfold onFrame
  rw [if_neg htype]
  split
  · rename_i error heq
    have hnone := dispatchOther_open (s := s) hends
    rw [heq] at hnone
    cases hnone
  · rename_i heq
    rw [heq] at hquote
    dsimp only at hquote
    subst hquote
    rfl

lemma publicStatus_ok (executionType : String) :
    (publicStatus executionType = "ACCEPTED" ∨ publicStatus executionType = "FILLED") ↔
      executionType ∈ ["ORDER_ACCEPTED", "ORDER_FILLED", "ACCEPTED", "FILLED"] := by
  unfold publicStatus
  split
  · simp [*]
  · split
    · simp [*]
    · split
      · simp [*]
      · simp [*]

lemma acceptsOrder_iff :
    frame.acceptsOrder = true ↔
      ∃ event, frame.event = some event ∧ (resultOf event).ok = true := by
  simp only [Frame.acceptsOrder, Option.any_eq_true, decide_eq_true_eq, resultOf, publicStatus_ok]

lemma onFrame_accepted (haccepts : frame.acceptsOrder = true) :
    (s.onFrame cfg task (.newOrder order info) frame).stage = .idle ∧
      (s.onFrame cfg task (.newOrder order info) frame).reports.length = s.reports.length + 1 := by
  obtain ⟨event, hevent, hok⟩ := acceptsOrder_iff.mp haccepts
  obtain ⟨htype, hraw, hcontent⟩ := Frame.event_eq_some.mp hevent
  simp [onFrame, Request.expect, htype, accept, hraw, hcontent, attemptDone, hok, report]

lemma attemptDone_failed {o : Outcome} (hok : o.result.ok = false) (hfirst : task.failed = none) :
    (s.attemptDone task o).stage = .tls { task with failed := some o } ∧
      (s.attemptDone task o).reports = s.reports := by
  simp [attemptDone, hok, hfirst, disconnect]

lemma fail_order_failed (error : String) (hfirst : task.failed = none) :
    ∃ o, (s.fail task error (.newOrder order info)).stage = .tls { task with failed := some o } ∧
      (s.fail task error (.newOrder order info)).reports = s.reports :=
  ⟨_, attemptDone_failed rfl hfirst⟩

variable (cfg s order info) in
/-- Any other answer is a failure like any other: the worker reconnects for a second attempt. -/
lemma onFrame_refused (hends : frame.endsOrder = true) (haccepts : frame.acceptsOrder = false)
    (hfirst : task.failed = none) :
    ∃ o, (s.onFrame cfg task (.newOrder order info) frame).stage =
        .tls { task with failed := some o } ∧
      (s.onFrame cfg task (.newOrder order info) frame).reports = s.reports := by
  unfold onFrame
  by_cases htype : frame.type = (Request.newOrder order info).expect
  · rw [if_pos htype]
    unfold accept
    by_cases hraw : frame.raw = ""
    · rw [if_pos hraw]
      exact fail_order_failed "" hfirst
    · rw [if_neg hraw]
      split
      all_goals try contradiction
      · rename_i event heq hcontent
        have hevent : frame.event = some event := Frame.event_eq_some.mpr ⟨htype, hraw, hcontent⟩
        have hok : (resultOf event).ok = false := by
          by_contra hok
          rw [acceptsOrder_iff.mpr ⟨event, hevent, Bool.not_eq_false _ ▸ hok⟩] at haccepts
          cases haccepts
        exact ⟨_, attemptDone_failed hok hfirst⟩
      · exact ⟨_, attemptDone_failed rfl hfirst⟩
  · rw [if_neg htype]
    have herror : (s.dispatchOther frame).1 = s ∧ (s.dispatchOther frame).2.isSome = true := by
      have htypes : frame.type = Payload.orderErrorEvent ∨ frame.type = Payload.errorRes ∨
          frame.type = Payload.clientDisconnect := by
        have hevent : frame.type ≠ Payload.executionEvent := htype
        simpa [Frame.endsOrder, hevent] using hends
      unfold dispatchOther
      rcases htypes with h | h | h <;> simp [h, Payload.spotEvent, Payload.orderErrorEvent,
        Payload.errorRes, Payload.clientDisconnect]
    split
    · rename_i e error heq
      rw [heq] at herror
      have hsame : e = s := herror.1
      rw [hsame]
      exact fail_order_failed error hfirst
    · rename_i heq
      rw [heq] at herror
      cases herror.2

lemma onFrame_ends (hends : frame.endsOrder = true) (hfirst : task.failed = none) :
    (s.onFrame cfg task (.newOrder order info) frame).stage ≠
      .exchange task (.newOrder order info) true := by
  by_cases haccepts : frame.acceptsOrder = true
  · rw [(onFrame_accepted haccepts).1]
    exact Stage.noConfusion
  · rw [Bool.not_eq_true] at haccepts
    obtain ⟨o, htls, -⟩ := onFrame_refused cfg s order info hends haccepts hfirst
    rw [htls]
    exact Stage.noConfusion

/-- The frame that ends the exchange of a first attempt decides whether the order can follow again. -/
lemma onFrame_never_again_iff (hfirst : task.failed = none) (hends : frame.endsOrder = true) :
    NeverAgain cfg s.reports.length (s.onFrame cfg task (.newOrder order info) frame) ↔
      frame.acceptsOrder = true := by
  constructor
  · intro hnever
    by_contra haccepts
    rw [Bool.not_eq_true] at haccepts
    obtain ⟨o, htls, hreports⟩ := onFrame_refused cfg s order info hends haccepts hfirst
    rw [← hreports] at hnever
    exact not_neverAgain htls hnever
  · intro haccepts
    apply neverAgain_of_reported
    rw [(onFrame_accepted haccepts).2]
    exact Nat.lt_succ_self _

end FirstAttempt

lemma step_read_frame {s t : CTraderExecutor} {task : Task} {order : NewOrderReq}
    {info : SymbolInfo} {frame : Frame} (hstage : s.stage = .exchange task (.newOrder order info) true)
    (hs : s.step cfg (.read (.frame frame)) = some t) :
    t = s.onFrame cfg task (.newOrder order info) frame := by
  simp only [step, onRead, hstage] at hs
  split at hs
  · exact (Option.some.inj hs).symm
  · cases hs

lemma answeredOnce_iff {s t : CTraderExecutor} {a : Action} (hs : s.step cfg a = some t) :
    AnsweredOnce cfg s a t ↔ s.acceptedFirst a = true := by
  constructor
  · intro honce
    unfold acceptedFirst
    split
    · rename_i task order info frame hstage
      by_cases hfirst : task.failed = none
      · by_cases hends : frame.endsOrder = true
        · have ht := step_read_frame hstage hs
          have hmoves : t.stage ≠ s.stage := by
            rw [ht, hstage]
            exact onFrame_ends hends hfirst
          have hnever := honce task order info frame hstage hfirst rfl hmoves
          rw [ht] at hnever
          rw [(onFrame_never_again_iff hfirst hends).mp hnever, Bool.or_true]
        · simp [hends]
      · simp [Option.isSome_iff_ne_none.mpr hfirst]
    · rfl
  · intro hfirst task order info frame hstage hnone ha hmoves
    subst ha
    have ht := step_read_frame hstage hs
    have hends : frame.endsOrder = true := by
      by_contra hopen
      rw [Bool.not_eq_true] at hopen
      exact hmoves (by rw [ht]; exact onFrame_open hopen)
    rw [ht, onFrame_never_again_iff hnone hends]
    exact (acceptedFirst_iff hstage hnone hends).mp hfirst

/-- In a run every order is sent again only after a transport failure exactly when every answer that
ends a first attempt is that the order is accepted or filled. -/
theorem resent_after_transport_failure_iff (cfg : Config) (run : List Action) :
    (machine cfg).Always run (AnsweredOnce cfg) ↔
      (machine cfg).Always run (fun s a _ => s.acceptedFirst a = true) :=
  (machine cfg).always_congr (fun _ _ _ _ hs => answeredOnce_iff hs) run

/-- One order up to the wait for its execution event. -/
def firstAttempt : List Action :=
  [Action.start, .execute ⟨"XAU/USD", "buy", 1, 20, 40⟩, .take] ++
    connecting [("XAUUSD", 41)] 41 ⟨2, 1, 10000⟩ ++ [Action.send true]

/-- The server rejects the order, and the worker sends it a second time. -/
theorem rejected_order_sent_again :
    ((machine {}).run (machine {}).init
      (firstAttempt ++ [orderEvent 0 "ORDER_REJECTED" 501] ++ reconnecting {})).map
        (fun e => e.sent.map SentOrder.callback) = some [0, 0] ∧
    ¬(machine {}).Always (firstAttempt ++ [orderEvent 0 "ORDER_REJECTED" 501] ++ reconnecting {})
      (AnsweredOnce {}) := by
  refine ⟨by decide +kernel, ?_⟩
  intro honce
  have hrejected : ((machine {}).run (machine {}).init firstAttempt).map
      (fun s => (s.acceptedFirst (orderEvent 0 "ORDER_REJECTED" 501),
        (s.step {} (orderEvent 0 "ORDER_REJECTED" 501)).isSome)) = some (false, true) := by
    decide +kernel
  obtain ⟨s, hs, hpair⟩ := Option.map_eq_some_iff.mp hrejected
  simp only [Prod.mk.injEq] at hpair
  obtain ⟨t, ht⟩ := Option.isSome_iff_exists.mp hpair.2
  have haccepted := (answeredOnce_iff ht).mp
    (honce firstAttempt _ s t (List.prefix_append _ _) hs ht)
  rw [hpair.1] at haccepted
  cases haccepted

end CTraderExecutor

end LatencyArb
