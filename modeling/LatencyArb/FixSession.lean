import LatencyArb.FixClient
import LatencyArb.Library.Machine

/-!
# The FIX client with its callers, its peer and its clock

The machine in which `FixClient` meets every schedule of orders, socket answers, inbound data and
time. `WriteStep` says once what a step can write; what becomes of the orders and of the inbound
data is proved here too.
-/

namespace LatencyArb

inductive SessionAction where
  | start
  | order (s : Signal)
  | wait (ms : Nat)
  | data  -- bytes of the peer arrive
  | event (event : FixEvent)
  | stop

/-- The client and the value of `now_ms`. `unsent` (the orders enqueued and not yet completely sent),
`startMs` and `arrivals` (when the session started and when its peer's data arrived) only record the
run. -/
structure FixSession where
  client : FixClient := {}
  nowMs : Int := 0
  unsent : List Signal := []
  startMs : Int := 0
  arrivals : List Int := []

namespace FixSession

/-- The orders that remain once the event has happened. -/
def unsentAfter (s : FixSession) (event : FixEvent) : List Signal :=
  match s.client.phase, event with
  | .sending (order :: _), .send true _ =>
    if s.client.fdOpen then s.unsent.erase order else s.unsent
  | _, _ => s.unsent

def onEvent (s : FixSession) (event : FixEvent) (client : FixClient) : FixSession :=
  { s with
    client := client
    unsent := s.unsentAfter event
    startMs := if client.session = s.client.session then s.startMs else s.nowMs
    arrivals := if client.session = s.client.session then s.arrivals else [] }

/-- A thread that is assigned before it is joined ends the program: no step. -/
def start (s : FixSession) : Option FixSession :=
  if s.client.running then some s
  else
    match s.client.phase with
    | .offline => some { s with client := { s.client with running := true } }
    | _ => none

def step (cfg : Config) (s : FixSession) : SessionAction → Option FixSession
  | .start => s.start
  | .order order => some { s with client := s.client.sendOrder order, unsent := s.unsent ++ [order] }
  | .wait ms => some { s with nowMs := s.nowMs + ms }
  | .data => if s.client.fdOpen then some { s with arrivals := s.arrivals ++ [s.nowMs] } else none
  | .event event => (s.client.step cfg s.nowMs event).map (s.onEvent event)
  | .stop => some { s with client := s.client.stop }

def machine (cfg : Config) : Machine FixSession SessionAction where
  init := {}
  step := step cfg

/-! ## What a step can do -/

inductive Moves (cfg : Config) (s : FixSession) : SessionAction → FixSession → Prop where
  | started : Moves cfg s .start s
  | start (phase : s.client.phase = .offline) :
      Moves cfg s .start { s with client := { s.client with running := true } }
  | order (order : Signal) :
      Moves cfg s (.order order)
        { s with client := s.client.sendOrder order, unsent := s.unsent ++ [order] }
  | wait (ms : Nat) : Moves cfg s (.wait ms) { s with nowMs := s.nowMs + ms }
  | data (fd : s.client.fdOpen = true) : Moves cfg s .data { s with arrivals := s.arrivals ++ [s.nowMs] }
  | event (event : FixEvent) (client : FixClient)
      (step : FixClient.Moves cfg s.nowMs s.client event client) :
      Moves cfg s (.event event) (s.onEvent event client)
  | stop : Moves cfg s .stop { s with client := s.client.stop }

variable {cfg : Config} {s t : FixSession} {a : SessionAction}

theorem step_moves (hs : s.step cfg a = some t) : Moves cfg s a t := by
  cases a with
  | start =>
    simp only [step, start] at hs
    split at hs
    · cases hs
      exact .started
    · split at hs <;> cases hs
      exact .start ‹_›
  | order order =>
    cases hs
    exact .order order
  | wait ms =>
    cases hs
    exact .wait ms
  | data =>
    simp only [step] at hs
    split at hs <;> cases hs
    exact .data ‹_›
  | event event =>
    obtain ⟨client, hclient, rfl⟩ := Option.map_eq_some_iff.mp hs
    exact .event event client (FixClient.step_moves hclient)
  | stop =>
    cases hs
    exact .stop

end FixSession

namespace FixClient

/-- The event hands a frame to the socket. -/
def writes (nowMs : Int) (c : FixClient) (event : FixEvent) : Bool :=
  match c.phase, event with
  | .connecting, .connect _ _ => true
  | .sending (_ :: _), .send _ _ => c.fdOpen
  | .beat, .beat _ _ => c.fdOpen && decide (c.beatDue nowMs)
  | _, _ => false

/-- What an event can write: nothing, the Logon of a new session, or with the next number an order or
a heartbeat on the open socket. -/
inductive WriteStep (cfg : Config) (nowMs : Int) (c : FixClient) (event : FixEvent) (c' : FixClient) :
    Prop where
  | quiet (idle : c.writes nowMs event = false) (written : c'.written = c.written)
      (session : c'.session = c.session)
      (fd : c'.fdOpen = true → c.fdOpen = true ∧ c'.seqOut = c.seqOut)
  | logon (sent : Bool) (sendingTime : String) (phase : c.phase = .connecting)
      (happens : event = .connect sent sendingTime)
      (written : c'.written = c.written ++ [⟨c.session + 1, LatencyArb.logon cfg c.seqOut sendingTime, sent⟩])
      (session : c'.session = c.session + 1) (seqOut : c'.seqOut = c.seqOut)
  | order (s : Signal) (rest : List Signal) (sent : Bool) (sendingTime : String)
      (phase : c.phase = .sending (s :: rest)) (happens : event = .send sent sendingTime)
      (fd : c.fdOpen = true)
      (written : c'.written =
        c.written ++ [⟨c.session, newOrderSingle cfg s c.seqOut sendingTime, sent⟩])
      (session : c'.session = c.session) (seqOut : c'.seqOut = c.seqOut + 1)
  | heartbeat (sent : Bool) (sendingTime : String) (phase : c.phase = .beat)
      (happens : event = .beat sent sendingTime) (fd : c.fdOpen = true) (due : c.beatDue nowMs)
      (written : c'.written =
        c.written ++ [⟨c.session, LatencyArb.heartbeat cfg c.seqOut sendingTime, sent⟩])
      (session : c'.session = c.session) (seqOut : c'.seqOut = c.seqOut + 1)

variable {cfg : Config} {nowMs : Int} {c c' : FixClient} {event : FixEvent}

lemma sendNext_writeStep {s : Signal} {rest : List Signal} (sent : Bool) (sendingTime : String)
    (hphase : c.phase = .sending (s :: rest)) :
    WriteStep cfg nowMs c (.send sent sendingTime) (c.sendNext cfg s rest sent sendingTime) := by
  by_cases hfd : c.fdOpen = true
  · cases sent with
    | true =>
      rw [sendNext_sent hfd]
      exact .order s rest true sendingTime hphase rfl hfd rfl rfl rfl
    | false =>
      rw [sendNext_failed hfd]
      exact .order s rest false sendingTime hphase rfl hfd rfl rfl rfl
  · rw [sendNext_closed (Bool.not_eq_true _ ▸ hfd)]
    exact .quiet (by simp [writes, hphase, hfd]) rfl rfl (by simp [close])

lemma sendHeartbeat_writeStep (sent : Bool) (sendingTime : String) (hphase : c.phase = .beat) :
    WriteStep cfg nowMs c (.beat sent sendingTime) (c.sendHeartbeat cfg nowMs sent sendingTime) := by
  by_cases hdue : c.beatDue nowMs
  · by_cases hfd : c.fdOpen = true
    · cases sent with
      | true =>
        rw [sendHeartbeat_sent hdue hfd]
        obtain ⟨hwritten, hsession, hseq, -, -, -⟩ := timeoutCheck_keeps nowMs { c with
          seqOut := c.seqOut + 1
          written := c.written ++ [⟨c.session, LatencyArb.heartbeat cfg c.seqOut sendingTime, true⟩]
          lastBeat := nowMs }
        exact .heartbeat true sendingTime hphase rfl hfd hdue hwritten hsession hseq
      | false =>
        rw [sendHeartbeat_failed hdue hfd]
        exact .heartbeat false sendingTime hphase rfl hfd hdue rfl rfl rfl
    · rw [sendHeartbeat_closed hdue (Bool.not_eq_true _ ▸ hfd)]
      exact .quiet (by simp [writes, hphase, hfd]) rfl rfl (by simp [close])
  · rw [sendHeartbeat_idle hdue]
    obtain ⟨hwritten, hsession, hseq, -, hfd, -⟩ := timeoutCheck_keeps nowMs c
    exact .quiet (by simp [writes, hphase, hdue]) hwritten hsession (fun h => ⟨hfd h, hseq⟩)

theorem Moves.writeStep (h : Moves cfg nowMs c event c') : WriteStep cfg nowMs c event c' := by
  cases h with
  | attempt phase => exact .quiet (by simp [writes, phase]) rfl rfl (fun h => ⟨h, rfl⟩)
  | connectFailed phase => exact .quiet (by simp [writes, phase]) rfl rfl (by simp [close])
  | connect sent sendingTime phase =>
    cases sent with
    | true =>
      rw [startSession_sent]
      exact .logon true sendingTime phase rfl rfl rfl rfl
    | false =>
      rw [startSession_failed]
      exact .logon false sendingTime phase rfl rfl rfl rfl
  | swap phase => exact .quiet (by simp [writes, phase]) rfl rfl (fun h => ⟨h, rfl⟩)
  | leave phase => exact .quiet (by simp [writes, phase]) rfl rfl (by simp [close])
  | drained sent sendingTime phase =>
    exact .quiet (by simp [writes, phase]) rfl rfl (fun h => ⟨h, rfl⟩)
  | send s rest sent sendingTime phase => exact sendNext_writeStep sent sendingTime phase
  | beat sent sendingTime phase => exact sendHeartbeat_writeStep sent sendingTime phase

/-! ## The orders of the batch and of the mailbox -/

def inLoop (c : FixClient) : Bool :=
  match c.phase with
  | .drain => true
  | .sending _ => true
  | .beat => true
  | _ => false

def batch (c : FixClient) : List Signal :=
  match c.phase with
  | .sending batch => batch
  | _ => []

lemma sendHeartbeat_keeps (cfg : Config) (nowMs : Int) (c : FixClient) (sent : Bool)
    (sendingTime : String) :
    (c.sendHeartbeat cfg nowMs sent sendingTime).orders = c.orders ∧
      (c.sendHeartbeat cfg nowMs sent sendingTime).batch = [] := by
  have hcheck : ∀ c : FixClient, (c.timeoutCheck nowMs).orders = c.orders ∧
      (c.timeoutCheck nowMs).batch = [] := by
    intro c
    unfold timeoutCheck
    split <;> simp [close, batch]
  by_cases hdue : c.beatDue nowMs
  · by_cases hfd : c.fdOpen = true
    · cases sent with
      | true =>
        rw [sendHeartbeat_sent hdue hfd]
        exact hcheck _
      | false =>
        rw [sendHeartbeat_failed hdue hfd]
        exact ⟨rfl, rfl⟩
    · rw [sendHeartbeat_closed hdue (Bool.not_eq_true _ ▸ hfd)]
      exact ⟨rfl, rfl⟩
  · rw [sendHeartbeat_idle hdue]
    exact hcheck c

end FixClient

namespace FixSession

variable {cfg : Config} {s t : FixSession} {a : SessionAction}

/-- Every order not completely sent is in the batch or in the mailbox, in its place. -/
def Accounted (s : FixSession) : Prop := s.unsent = s.client.batch ++ s.client.orders

/-- When the event loop returns the mailbox holds the orders not completely sent, in their order. -/
def OrdersKept (s t : FixSession) : Prop :=
  s.client.inLoop = true → t.client.phase = .offline → t.client.orders = t.unsent

/-- The socket takes the whole frame of an order. -/
def orderTaken (s : FixSession) (a : SessionAction) : Bool :=
  match s.client.phase, a with
  | .sending (_ :: _), .event (.send sent _) => s.client.fdOpen && sent
  | _, _ => true

lemma Accounted.ordersKept (h : t.Accounted) : OrdersKept s t := by
  intro _ hphase
  rw [h, FixClient.batch, hphase, List.nil_append]

lemma send_accounted {order : Signal} {rest : List Signal} {sent : Bool} {sendingTime : String}
    (hacc : s.Accounted) (hphase : s.client.phase = .sending (order :: rest)) :
    (s.client.fdOpen && sent) = true →
      (s.onEvent (.send sent sendingTime)
        (s.client.sendNext cfg order rest sent sendingTime)).Accounted := by
  intro htaken
  simp only [Bool.and_eq_true] at htaken
  obtain ⟨hfd, rfl⟩ := htaken
  rw [FixClient.sendNext_sent hfd]
  unfold Accounted at hacc ⊢
  simp [onEvent, unsentAfter, hphase, hfd, FixClient.batch, hacc]

lemma send_lost {order : Signal} {rest : List Signal} {sent : Bool} {sendingTime : String}
    (hacc : s.Accounted) (hphase : s.client.phase = .sending (order :: rest))
    (hfail : (s.client.fdOpen && sent) = false) :
    ¬OrdersKept s (s.onEvent (.send sent sendingTime)
      (s.client.sendNext cfg order rest sent sendingTime)) := by
  intro hkept
  have hloop : s.client.inLoop = true := by simp [FixClient.inLoop, hphase]
  have hunsent : s.unsentAfter (.send sent sendingTime) = order :: (rest ++ s.client.orders) := by
    have hall : s.unsent = order :: (rest ++ s.client.orders) := by
      simpa [Accounted, FixClient.batch, hphase] using hacc
    cases sent with
    | true =>
      rw [Bool.and_true] at hfail
      simp [unsentAfter, hphase, hfail, hall]
    | false => simp [unsentAfter, hphase, hall]
  have hlost : (s.client.sendNext cfg order rest sent sendingTime).phase = .offline ∧
      (s.client.sendNext cfg order rest sent sendingTime).orders = s.client.orders := by
    by_cases hfd : s.client.fdOpen = true
    · obtain rfl : sent = false := by simpa [hfd] using hfail
      rw [FixClient.sendNext_failed hfd]
      exact ⟨rfl, rfl⟩
    · rw [FixClient.sendNext_closed (Bool.not_eq_true _ ▸ hfd)]
      exact ⟨rfl, rfl⟩
  have heq := hkept hloop hlost.1
  rw [show (s.onEvent (.send sent sendingTime) _).unsent = s.unsentAfter (.send sent sendingTime)
    from rfl, hunsent] at heq
  have hlen := congrArg List.length (hlost.2.symm.trans heq)
  simp only [List.length_cons, List.length_append] at hlen
  omega

lemma unsentAfter_of_batch_nil (event : FixEvent) (h : s.client.batch = []) :
    s.unsentAfter event = s.unsent := by
  unfold unsentAfter
  split
  · rename_i hphase
    simp [FixClient.batch, hphase] at h
  · rfl

lemma onEvent_accounted {event : FixEvent} {client : FixClient} (hacc : s.Accounted)
    (hs : s.client.batch = []) (ht : client.batch ++ client.orders = s.client.orders) :
    (s.onEvent event client).Accounted := by
  unfold Accounted at hacc ⊢
  rw [hs, List.nil_append] at hacc
  exact (unsentAfter_of_batch_nil event hs).trans (hacc.trans ht.symm)

lemma step_accounted (hacc : s.Accounted) (hs : s.step cfg a = some t) (hC : s.orderTaken a = true) :
    t.Accounted := by
  cases step_moves hs with
  | started => exact hacc
  | start phase => exact hacc
  | order order =>
    unfold Accounted at hacc ⊢
    rw [hacc, List.append_assoc]
    rfl
  | wait ms => exact hacc
  | data fd => exact hacc
  | stop => exact hacc
  | event event client step =>
    cases step with
    | attempt phase => exact onEvent_accounted hacc (by simp [FixClient.batch, phase]) rfl
    | connectFailed phase => exact onEvent_accounted hacc (by simp [FixClient.batch, phase]) rfl
    | connect sent sendingTime phase =>
      apply onEvent_accounted hacc (by simp [FixClient.batch, phase])
      cases sent with
      | true =>
        rw [FixClient.startSession_sent]
        rfl
      | false =>
        rw [FixClient.startSession_failed]
        rfl
    | swap phase => exact onEvent_accounted hacc (by simp [FixClient.batch, phase]) (by simp [FixClient.batch])
    | leave phase => exact onEvent_accounted hacc (by simp [FixClient.batch, phase]) rfl
    | drained sent sendingTime phase =>
      exact onEvent_accounted hacc (by simp [FixClient.batch, phase]) rfl
    | send order rest sent sendingTime phase =>
      apply send_accounted hacc phase
      simpa [orderTaken, phase] using hC
    | beat sent sendingTime phase =>
      obtain ⟨horders, hbatch⟩ := s.client.sendHeartbeat_keeps cfg s.nowMs sent sendingTime
      apply onEvent_accounted hacc (by simp [FixClient.batch, phase])
      rw [horders, hbatch, List.nil_append]

theorem step_ordersKept_iff (hacc : s.Accounted) (hs : s.step cfg a = some t) :
    OrdersKept s t ↔ s.orderTaken a = true := by
  constructor
  · intro hkept
    unfold orderTaken
    split
    · rename_i order rest sent sendingTime hphase
      by_contra hfail
      obtain ⟨client, hclient, rfl⟩ := Option.map_eq_some_iff.mp hs
      simp only [FixClient.step, hphase, Option.some.injEq] at hclient
      subst hclient
      exact send_lost hacc hphase (Bool.not_eq_true _ ▸ hfail) hkept
    · rfl
  · intro hC
    exact (step_accounted hacc hs hC).ordersKept

/-- In a run every return of the event loop leaves the orders not completely sent in the mailbox
exactly when the socket takes every order it is given. -/
theorem orders_kept_iff (cfg : Config) (run : List SessionAction) :
    (machine cfg).Always run (fun s _ t => OrdersKept s t) ↔
      (machine cfg).Always run (fun s a _ => s.orderTaken a = true) := by
  apply (machine cfg).always_iff_along (I := Accounted)
  · rfl
  · intro s a t _ hacc hs hC
    exact step_accounted hacc hs hC
  · intro s a t _ hacc hs
    exact step_ordersKept_iff hacc hs

def sampleSignal (side : Side) : Signal :=
  { side := side, lead := 2, brokerBid := 1, brokerAsk := 1, threshold := 1 / 2, edge := 1 / 2
    tsMs := 1, symbol := "BTC/USD", reason := if side = .buy then "lead_gt_ask" else "bid_gt_lead" }

/-- A session with two orders in the batch. -/
def twoInBatch : List SessionAction :=
  [.order (sampleSignal .buy), .order (sampleSignal .sell), .event .attempt,
    .event (.connect true ""), .event .swap]

/-- The socket refuses the first order, and both are gone. -/
theorem refused_batch_lost :
    ((machine {}).run (machine {}).init (twoInBatch ++ [SessionAction.event (.send false "")])).map
      (fun s => (s.client.orders, s.unsent)) = some ([], [sampleSignal .buy, sampleSignal .sell]) ∧
    ¬(machine {}).Always (twoInBatch ++ [SessionAction.event (.send false "")]) (fun s _ t => OrdersKept s t) := by
  refine ⟨by decide +kernel, ?_⟩
  intro hkept
  have hbefore : ((machine {}).run (machine {}).init twoInBatch).map
      (fun s => (decide (s.unsent = s.client.batch ++ s.client.orders),
        s.orderTaken (.event (.send false "")), (s.step {} (.event (.send false ""))).isSome)) =
      some (true, false, true) := by decide +kernel
  obtain ⟨s, hs, hfacts⟩ := Option.map_eq_some_iff.mp hbefore
  simp only [Prod.mk.injEq, decide_eq_true_eq] at hfacts
  obtain ⟨hacc, hrefused, hnext⟩ := hfacts
  obtain ⟨t, ht⟩ := Option.isSome_iff_exists.mp hnext
  have htaken := (step_ordersKept_iff hacc ht).mp
    (hkept twoInBatch _ s t List.prefix_rfl hs ht)
  rw [hrefused] at htaken
  cases htaken

/-! ## The peer's data -/

/-- The iteration sends its heartbeat if one is due, and so comes to the peer timeout. -/
def reachesTimeout (s : FixSession) (sent : Bool) : Prop :=
  s.client.beatDue s.nowMs → s.client.fdOpen = true ∧ sent = true

instance (s : FixSession) (sent : Bool) : Decidable (s.reachesTimeout sent) := by
  unfold reachesTimeout
  infer_instance

/-- Nothing arrived from the peer during the last one and a half heartbeat intervals. -/
def silent (s : FixSession) : Bool :=
  s.arrivals.all (fun arrivedMs => decide (CompileTime.kFIXHeartbeatS * 1500 < s.nowMs - arrivedMs))

/-- The event loop ends by the peer timeout only if the peer is silent. -/
def DropsSilent (s : FixSession) (a : SessionAction) (t : FixSession) : Prop :=
  ∀ sent sendingTime, s.client.phase = .beat → a = .event (.beat sent sendingTime) →
    s.reachesTimeout sent → t.client.phase = .offline → s.silent = true

/-- An iteration that comes to the timeout late in the session finds the peer silent. -/
def quietWhenOld (s : FixSession) (a : SessionAction) : Bool :=
  match s.client.phase, a with
  | .beat, .event (.beat sent _) =>
    !decide (s.reachesTimeout sent) ||
      decide (s.nowMs - s.startMs ≤ CompileTime.kFIXHeartbeatS * 1500) || s.silent
  | _, _ => true

/-- The silence clock of a session stands where the session started. -/
def ClockStands (s : FixSession) : Prop :=
  s.client.inLoop = true → s.client.lastRecv = s.startMs

lemma onEvent_clock {event : FixEvent} {client : FixClient} (hI : s.ClockStands)
    (hsession : client.session = s.client.session) (hrecv : client.lastRecv = s.client.lastRecv)
    (hloop : client.inLoop = true → s.client.inLoop = true) :
    (s.onEvent event client).ClockStands := by
  intro h
  have hstart : (s.onEvent event client).startMs = s.startMs := if_pos hsession
  rw [hstart]
  exact hrecv.trans (hI (hloop h))

end FixSession

namespace FixClient

/-- Within a session the silence clock is never set. -/
lemma sendNext_lastRecv (cfg : Config) (c : FixClient) (s : Signal) (rest : List Signal)
    (sent : Bool) (sendingTime : String) :
    (c.sendNext cfg s rest sent sendingTime).session = c.session ∧
      (c.sendNext cfg s rest sent sendingTime).lastRecv = c.lastRecv := by
  by_cases hfd : c.fdOpen = true
  · cases sent with
    | true => simp [sendNext_sent hfd]
    | false => simp [sendNext_failed hfd, close]
  · simp [sendNext_closed (Bool.not_eq_true _ ▸ hfd), close]

lemma timeoutCheck_lastRecv (nowMs : Int) (c : FixClient) :
    (c.timeoutCheck nowMs).session = c.session ∧ (c.timeoutCheck nowMs).lastRecv = c.lastRecv := by
  unfold timeoutCheck
  split <;> simp [close]

lemma sendHeartbeat_lastRecv (cfg : Config) (nowMs : Int) (c : FixClient) (sent : Bool)
    (sendingTime : String) :
    (c.sendHeartbeat cfg nowMs sent sendingTime).session = c.session ∧
      (c.sendHeartbeat cfg nowMs sent sendingTime).lastRecv = c.lastRecv := by
  by_cases hdue : c.beatDue nowMs
  · by_cases hfd : c.fdOpen = true
    · cases sent with
      | true =>
        rw [sendHeartbeat_sent hdue hfd]
        exact timeoutCheck_lastRecv ..
      | false => simp [sendHeartbeat_failed hdue hfd, close]
    · simp [sendHeartbeat_closed hdue (Bool.not_eq_true _ ▸ hfd), close]
  · rw [sendHeartbeat_idle hdue]
    exact timeoutCheck_lastRecv ..

lemma timeoutCheck_offline_iff (nowMs : Int) (c : FixClient) :
    (c.timeoutCheck nowMs).phase = .offline ↔
      CompileTime.kFIXHeartbeatS * 1500 < nowMs - c.lastRecv := by
  unfold timeoutCheck
  split <;> simp [close, *]

end FixClient

namespace FixSession

variable {cfg : Config} {s t : FixSession} {a : SessionAction}

lemma step_clock (hI : s.ClockStands) (hs : s.step cfg a = some t) : t.ClockStands := by
  cases step_moves hs with
  | started => exact hI
  | start phase => exact hI
  | order order => exact hI
  | wait ms => exact hI
  | data fd => exact hI
  | stop => exact hI
  | event event client step =>
    cases step with
    | attempt phase => exact onEvent_clock hI rfl rfl (by simp [FixClient.inLoop])
    | connectFailed phase => exact onEvent_clock hI rfl rfl (by simp [FixClient.inLoop, FixClient.close])
    | connect sent sendingTime phase =>
      cases sent with
      | true =>
        intro _
        rw [FixClient.startSession_sent]
        simp [onEvent]
      | false =>
        intro hloop
        rw [FixClient.startSession_failed] at hloop
        cases hloop
    | swap phase => exact onEvent_clock hI rfl rfl (by simp [FixClient.inLoop, phase])
    | leave phase => exact onEvent_clock hI rfl rfl (by simp [FixClient.inLoop, FixClient.close])
    | drained sent sendingTime phase => exact onEvent_clock hI rfl rfl (by simp [FixClient.inLoop, phase])
    | send order rest sent sendingTime phase =>
      obtain ⟨hsession, hrecv⟩ := s.client.sendNext_lastRecv cfg order rest sent sendingTime
      exact onEvent_clock hI hsession hrecv (by simp [FixClient.inLoop, phase])
    | beat sent sendingTime phase =>
      obtain ⟨hsession, hrecv⟩ := s.client.sendHeartbeat_lastRecv cfg s.nowMs sent sendingTime
      exact onEvent_clock hI hsession hrecv (by simp [FixClient.inLoop, phase])

theorem reachable_clock (hs : (machine cfg).Reachable s) : s.ClockStands := by
  apply (machine cfg).invariant _ _ hs
  · intro h
    cases h
  · intro s a t _ hI hstep
    exact step_clock hI hstep

/-- The iteration that comes to the timeout ends the session when the session is old. -/
lemma beat_offline_iff {sent : Bool} (sendingTime : String) (hI : s.ClockStands)
    (hphase : s.client.phase = .beat) (hreaches : s.reachesTimeout sent) :
    (s.client.sendHeartbeat cfg s.nowMs sent sendingTime).phase = .offline ↔
      CompileTime.kFIXHeartbeatS * 1500 < s.nowMs - s.startMs := by
  have hstands : s.client.lastRecv = s.startMs := hI (by simp [FixClient.inLoop, hphase])
  by_cases hdue : s.client.beatDue s.nowMs
  · obtain ⟨hfd, rfl⟩ := hreaches hdue
    rw [FixClient.sendHeartbeat_sent hdue hfd, FixClient.timeoutCheck_offline_iff, hstands]
  · rw [FixClient.sendHeartbeat_idle hdue, FixClient.timeoutCheck_offline_iff, hstands]

theorem step_dropsSilent_iff (hI : s.ClockStands) (hs : s.step cfg a = some t) :
    DropsSilent s a t ↔ s.quietWhenOld a = true := by
  constructor
  · intro hdrops
    unfold quietWhenOld
    split
    · rename_i sent sendingTime hphase
      by_cases hreaches : s.reachesTimeout sent
      · by_cases hold : s.nowMs - s.startMs ≤ CompileTime.kFIXHeartbeatS * 1500
        · simp [hold]
        · obtain ⟨client, hclient, rfl⟩ := Option.map_eq_some_iff.mp hs
          simp only [FixClient.step, hphase, Option.some.injEq] at hclient
          subst hclient
          have hsilent := hdrops sent sendingTime hphase rfl hreaches
            ((beat_offline_iff sendingTime hI hphase hreaches).mpr (not_le.mp hold))
          rw [hsilent, Bool.or_true]
      · simp [hreaches]
    · rfl
  · intro hquiet sent sendingTime hphase ha hreaches hoffline
    subst ha
    obtain ⟨client, hclient, rfl⟩ := Option.map_eq_some_iff.mp hs
    simp only [FixClient.step, hphase, Option.some.injEq] at hclient
    subst hclient
    have hold := (beat_offline_iff sendingTime hI hphase hreaches).mp hoffline
    simpa [quietWhenOld, hphase, hreaches, not_le.mpr hold] using hquiet

/-- In a run only silent peers are dropped exactly when every iteration that comes to the timeout more
than one and a half heartbeat intervals after the start of its session finds the peer silent. -/
theorem drops_silent_iff (cfg : Config) (run : List SessionAction) :
    (machine cfg).Always run DropsSilent ↔
      (machine cfg).Always run (fun s a _ => s.quietWhenOld a = true) :=
  (machine cfg).always_congr (fun _ _ _ hr hs => step_dropsSilent_iff (reachable_clock hr) hs) run

/-- A session of 46 seconds whose peer sends data all the time. -/
def talkative : List SessionAction :=
  [.event .attempt, .event (.connect true ""), .wait 45900, .data, .wait 100, .event .swap,
    .event (.send true "")]

/-- The peer is dropped a tenth of a second after it sent data. -/
theorem talkative_peer_dropped :
    ((machine {}).run (machine {}).init (talkative ++ [SessionAction.event (.beat true "")])).map
      (fun s => (s.client.connected, s.arrivals, s.nowMs)) = some (false, [45900], 46000) ∧
    ¬(machine {}).Always (talkative ++ [SessionAction.event (.beat true "")]) DropsSilent := by
  refine ⟨by decide +kernel, ?_⟩
  intro hdrops
  have hbefore : ((machine {}).run (machine {}).init talkative).map
      (fun s => (s.quietWhenOld (.event (.beat true "")),
        (s.step {} (.event (.beat true ""))).isSome)) = some (false, true) := by decide +kernel
  obtain ⟨s, hs, hfacts⟩ := Option.map_eq_some_iff.mp hbefore
  simp only [Prod.mk.injEq] at hfacts
  obtain ⟨t, ht⟩ := Option.isSome_iff_exists.mp hfacts.2
  have hquiet := (step_dropsSilent_iff (reachable_clock ⟨talkative, hs⟩) ht).mp
    (hdrops talkative _ s t List.prefix_rfl hs ht)
  rw [hfacts.1] at hquiet
  cases hquiet

end FixSession

end LatencyArb
