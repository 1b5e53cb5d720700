import LatencyArb.Fix.Inbound
import LatencyArb.Library.Machine

/-!
# The FIX executor (`src/fix_executor.cpp`)

`session_loop` and the handlers that `io_.run()` calls, cut at their accesses to the mailbox, to the
flags of `stop` and to the operations on the stream. The `io_context` is a queue of handlers that
outlives the streams: what a session leaves in it runs in the next one.
-/

namespace LatencyArb

namespace Fix

/-- Where the session thread stands: at the test of `session_loop`, in `connect`, in the wait before
the next attempt; in `run_read_loop` before each of its three calls and then in `io_.run()`, or in
`process_inbound` within it. A `finished` thread is to be joined. -/
inductive Stage where
  | unstarted
  | top
  | connecting
  | backoff (untilMs : Int)
  | draining
  | listening
  | timing
  | running
  | parsing
  | finished
  deriving DecidableEq

/-- The completion of `async_read_some`; the bytes come with the number of their stream, which the
executor does not see. -/
inductive ReadOutcome where
  | data (stream : Nat) (bytes : Bytes)
  | failed
  | aborted

inductive Handler where
  | drain
  | logout
  | wrote (ok : Bool)
  | read (outcome : ReadOutcome)
  | timer (aborted : Bool)

/-- A frame of `wqueue_`, with the session it is built in and the order it is built from. -/
structure Outgoing where
  session : Nat
  message : Message
  job : Option OrderJob := none

/-- A frame handed to `async_write`, with the number of the stream. -/
structure Handed where
  stream : Nat
  frame : Outgoing

/-- The arguments of `execute`. -/
structure OrderCall where
  instrument : String
  side : String
  volume : ℚ
  stopPrice : ℚ
  takePrice : ℚ

inductive ConnectResult where
  | up | failed | threw

inductive Action where
  | start
  | stop
  | stopPost
  | join
  | execute (call : OrderCall)
  | post  -- of a call of `execute` that has enqueued its order
  | wait (ms : Nat)
  | loop
  | connect (result : ConnectResult)
  | retry
  | drain
  | listen
  | arm
  | handle
  | parse
  | leave
  | wrote (ok : Bool)
  | received (bytes : Bytes)
  | readFailed
  | expire

/-- The heartbeat interval of `start_hb_timer`. -/
def heartbeatMs (cfg : Config) : Int :=
  if 0 < cfg.fixHeartbeatS then cfg.fixHeartbeatS * 1000 else kDefaultHbMs

def backoffMs (cfg : Config) : Int :=
  (if 0 < cfg.wsReconnectBaseS then cfg.wsReconnectBaseS else 2) * 1000

/-- The sequence bookkeeping of `handle_frame`: the last inbound number, and where a resend request
begins. -/
def noteSeq (seqIn : Nat) (f : Bytes) : Nat × Option Nat :=
  let sn := atol (scanTag f 34)
  if isDigits (scanTag f 34) ∧ 0 < sn then
    if seqIn = 0 then (sn, none)
    else if seqIn + 1 < sn then (sn, some sn)
    else (max seqIn sn, none)
  else (seqIn, none)

end Fix

open LatencyArb.Fix

/-- The executor's state. `stopping` and `joining` are a `stop` before its post and before its join,
`posting` the calls of `execute` before theirs. `writes`, `reads` and `timer` are the operations under
way. `session` (the number of the stream), `queued` (the frames given to `io_write`), `handed`,
`logouts`, `results`, and of the session `heard` (the bytes read), `handled` and `resends` only record
the run. -/
structure FixExecutor where
  running : Bool := false
  stopped : Bool := false
  stopping : Bool := false
  joining : Bool := false
  wake : Bool := false
  orders : List OrderJob := []
  queueLimit : Nat := 256
  nextOrderId : Nat := 1
  posting : Nat := 0
  connected : Bool := false
  stream : Bool := false
  seqOut : Nat := 1
  seqIn : Nat := 0
  lastRecvMs : Int := 0
  lastSendMs : Int := 0
  inbound : Bytes := []
  wqueue : List Outgoing := []
  writing : Bool := false
  pendingOrders : List OrderJob := []
  ioStopped : Bool := false
  handlers : List Handler := []
  writes : Nat := 0
  reads : Nat := 0
  timer : Option Int := none
  nowMs : Int := 0
  stamps : Nat := 0
  stage : Stage := .unstarted
  session : Nat := 0
  queued : List Outgoing := []
  handed : List Handed := []
  logouts : List Outgoing := []
  results : List ExecutionResult := []
  heard : Bytes := []
  handled : List Bytes := []
  resends : List Nat := []

namespace FixExecutor

/-! ## The callers -/

def halted (e : FixExecutor) : Bool := e.stopped || !e.running

/-- A thread that is assigned before it is joined ends the program: no step. -/
def start (e : FixExecutor) : Option FixExecutor :=
  if e.running then some e
  else
    match e.stage with
    | .unstarted => some { e with running := true, stopped := false, stage := .top }
    | _ => none

def stop (e : FixExecutor) : FixExecutor :=
  if e.stopped then e
  else { e with stopped := true, running := false, wake := true, stopping := true }

/-- A handler is ready to run. -/
def post (e : FixExecutor) (h : Handler) : FixExecutor := { e with handlers := e.handlers ++ [h] }

def dequeue (e : FixExecutor) (rest : List Handler) : FixExecutor := { e with handlers := rest }

/-- The wait of the timer is cancelled. -/
def cancelTimer (e : FixExecutor) : FixExecutor :=
  match e.timer with
  | none => e
  | some _ => ({ e with timer := none } : FixExecutor).post (.timer true)

def join (e : FixExecutor) : FixExecutor :=
  ({ e with joining := false, stage := .unstarted } : FixExecutor).cancelTimer

def newJob (e : FixExecutor) (call : OrderCall) : OrderJob where
  instrument := call.instrument
  side := call.side
  volume := call.volume
  stopPrice := call.stopPrice
  takePrice := call.takePrice
  orderId := e.nextOrderId
  clOrdId := "LL" ++ toString e.nextOrderId
  t0Ms := e.nowMs

def execute (e : FixExecutor) (call : OrderCall) : FixExecutor :=
  if call.instrument = "" ∨ (call.side ≠ "buy" ∧ call.side ≠ "sell") ∨ call.volume ≤ 0 then e
  else if e.queueLimit ≤ e.orders.length then { e with nextOrderId := e.nextOrderId + 1 }
  else
    { e with
      nextOrderId := e.nextOrderId + 1
      orders := e.orders ++ [e.newJob call]
      posting := e.posting + 1 }

/-! ## The write queue -/

def pumpWrite (e : FixExecutor) : FixExecutor :=
  if e.writing || !e.stream then e
  else
    match e.wqueue with
    | [] => e
    | frame :: _ =>
      { e with
        writing := true
        writes := e.writes + 1
        handed := e.handed ++ [⟨e.session, frame⟩] }

def ioWrite (e : FixExecutor) (frame : Outgoing) : FixExecutor :=
  ({ e with
    lastSendMs := e.nowMs
    wqueue := e.wqueue ++ [frame]
    queued := e.queued ++ [frame] } : FixExecutor).pumpWrite

variable (cfg : Config) (utc : Nat → String)

/-- `io_write` of a message that is built now; `utc` is what the calls of `utc_now` return. -/
def send (e : FixExecutor) (build : Nat → String → Message) (job : Option OrderJob := none) :
    FixExecutor :=
  ({ e with seqOut := e.seqOut + 1, stamps := e.stamps + 1 } : FixExecutor).ioWrite
    ⟨e.session, build e.seqOut (utc e.stamps), job⟩

def sendOrder (e : FixExecutor) (job : OrderJob) : FixExecutor :=
  ({ e with
    pendingOrders := e.pendingOrders.filter (fun j => decide (j.clOrdId ≠ job.clOrdId)) ++ [job]
    stamps := e.stamps + 1 } : FixExecutor).send utc (buildOrder cfg job (utc e.stamps)) (some job)

/-- Without a connection the orders are parked back in front. -/
def drainOrders (e : FixExecutor) : FixExecutor :=
  if !e.connected then e
  else e.orders.foldl (sendOrder cfg utc) { e with orders := [] }

/-! ## The session -/

def startRead (e : FixExecutor) : FixExecutor :=
  if e.stopped || !e.stream || !e.connected then e else { e with reads := e.reads + 1 }

def startHbTimer (e : FixExecutor) : FixExecutor :=
  if e.stopped || !e.connected then e
  else { e.cancelTimer with timer := some (e.nowMs + heartbeatMs cfg) }

/-- The new session before its Logon; the inbound buffer, the inbound number and the write queue stay. -/
def opened (e : FixExecutor) : FixExecutor :=
  { e with
    stream := true
    connected := true
    seqOut := 1
    session := e.session + 1
    heard := []
    handled := []
    resends := [] }

/-- A successful `connect`, up to the restart of the `io_context`. -/
def startSession (e : FixExecutor) : FixExecutor :=
  { e.opened.send utc (buildLogon cfg) with ioStopped := false, stage := .draining }

def connectFailed (e : FixExecutor) (threw : Bool) : FixExecutor :=
  { e with stream := !threw, stage := .backoff (e.nowMs + backoffMs cfg) }

def loopTest (e : FixExecutor) : FixExecutor :=
  { e with stage := if e.halted then .finished else .connecting }

/-- The end of `io_.run()`: stopped, or out of work. -/
def runOver (e : FixExecutor) : Bool :=
  e.ioStopped || (e.handlers.isEmpty && e.writes == 0 && e.reads == 0 && e.timer.isNone)

/-- `disconnect`, which aborts the operations under way on the stream, at the end of a session. -/
def leave (e : FixExecutor) : FixExecutor :=
  { e with
    connected := false
    stream := false
    handlers := e.handlers ++ List.replicate e.reads (.read .aborted) ++
      List.replicate e.writes (.wrote false)
    reads := 0
    writes := 0
    stage := .top }

/-! ## The handlers -/

def onExecutionReport (e : FixExecutor) (f : Bytes) : FixExecutor :=
  if scanTag f 11 = [] then e
  else
    match e.pendingOrders.find? (fun job => decide (ascii job.clOrdId = scanTag f 11)) with
    | none => e
    | some job =>
      match executionResult job f e.nowMs with
      | none => e
      | some r =>
        { e with
          pendingOrders := e.pendingOrders.filter (fun j => decide (j.clOrdId ≠ job.clOrdId))
          results := e.results ++ [r] }

/-- The dispatch by MsgType; a Logon, a Heartbeat, a Logout and a ResendRequest are only printed. -/
def dispatch (e : FixExecutor) (f : Bytes) : FixExecutor :=
  if scanTag f 35 = ascii "8" then e.onExecutionReport f
  else if scanTag f 35 = ascii "1" then e.send utc (buildHeartbeat cfg (scanTag f 112))
  else if scanTag f 35 = ascii "4" then { e with seqIn := 0 }
  else e

/-- A gap in the inbound numbers is answered by a resend request. -/
def noteFrame (e : FixExecutor) (f : Bytes) : FixExecutor :=
  match noteSeq e.seqIn f with
  | (seqIn, none) => { e with seqIn := seqIn }
  | (seqIn, some beginSeq) =>
    ({ e with seqIn := seqIn, resends := e.resends ++ [beginSeq] } : FixExecutor).send utc
      (buildResendRequest cfg beginSeq)

def handleFrame (e : FixExecutor) (f : Bytes) : FixExecutor :=
  (({ e with lastRecvMs := e.nowMs, handled := e.handled ++ [f] } : FixExecutor).noteFrame cfg utc
    f).dispatch cfg utc f

/-- `on_read` goes on once `process_inbound` has returned. -/
def readAgain (e : FixExecutor) : FixExecutor := { e.startRead with stage := .running }

/-- One round of the loop of `process_inbound`. -/
def parse (e : FixExecutor) : FixExecutor :=
  match scan e.inbound with
  | .wait keep => ({ e with inbound := keep } : FixExecutor).readAgain
  | .skip rest => { e with inbound := rest }
  | .item f rest =>
    let e := ({ e with inbound := rest } : FixExecutor).handleFrame cfg utc f
    if e.halted then e.readAgain else e

def onRead (e : FixExecutor) : ReadOutcome → FixExecutor
  | .aborted => e
  | .failed => { e with ioStopped := true }
  | .data stream bytes =>
    { e with
      lastRecvMs := e.nowMs
      inbound := e.inbound ++ bytes
      heard := if stream = e.session then e.heard ++ bytes else e.heard
      stage := .parsing }

def popWritten (e : FixExecutor) : FixExecutor :=
  { e with writing := false, wqueue := e.wqueue.tail }

/-- The completion handler of `async_write`. -/
def onWrote (e : FixExecutor) (ok : Bool) : FixExecutor :=
  if ok then e.popWritten.pumpWrite
  else { e.popWritten with connected := false, ioStopped := true }

def onTimer (e : FixExecutor) (aborted : Bool) : FixExecutor :=
  if aborted || !e.connected || e.halted then e
  else if heartbeatMs cfg * 3 / 2 < e.nowMs - e.lastRecvMs then { e with ioStopped := true }
  else if heartbeatMs cfg ≤ e.nowMs - e.lastSendMs then
    (e.send utc (buildHeartbeat cfg [])).startHbTimer cfg
  else e.startHbTimer cfg

/-- The handler `stop` posts: a Logout, written at once, and the end of `io_.run()`. -/
def onLogout (e : FixExecutor) : FixExecutor :=
  if e.stream && e.connected then
    { e with
      seqOut := e.seqOut + 1
      stamps := e.stamps + 1
      logouts := e.logouts ++ [⟨e.session, buildLogout cfg e.seqOut (utc e.stamps), none⟩]
      ioStopped := true }
  else { e with ioStopped := true }

def handle (e : FixExecutor) : Handler → FixExecutor
  | .drain => e.drainOrders cfg utc
  | .logout => e.onLogout cfg utc
  | .wrote ok => e.onWrote ok
  | .read outcome => e.onRead outcome
  | .timer aborted => e.onTimer cfg utc aborted

def step (e : FixExecutor) : Action → Option FixExecutor
  | .start => e.start
  | .stop => some e.stop
  | .stopPost =>
    if e.stopping then
      some (({ e with stopping := false, joining := true } : FixExecutor).post .logout)
    else none
  | .join =>
    if e.joining && (e.stage == .finished || e.stage == .unstarted) then some e.join else none
  | .execute call => some (e.execute call)
  | .post =>
    if 0 < e.posting then
      some (({ e with posting := e.posting - 1 } : FixExecutor).post .drain)
    else none
  | .wait ms => some { e with nowMs := e.nowMs + ms }
  | .loop =>
    match e.stage with
    | .top => some e.loopTest
    | _ => none
  | .connect result =>
    match e.stage, result with
    | .connecting, .up => some (e.startSession cfg utc)
    | .connecting, .failed => some (e.connectFailed cfg false)
    | .connecting, .threw => some (e.connectFailed cfg true)
    | _, _ => none
  | .retry =>
    match e.stage with
    | .backoff untilMs =>
      if untilMs ≤ e.nowMs ∨ e.running = false ∨ e.wake = true then
        some { e with wake := false, stage := .top }
      else none
    | _ => none
  | .drain =>
    match e.stage with
    | .draining => some { e.drainOrders cfg utc with stage := .listening }
    | _ => none
  | .listen =>
    match e.stage with
    | .listening =>
      some { ({ e with lastRecvMs := e.nowMs } : FixExecutor).startRead with stage := .timing }
    | _ => none
  | .arm =>
    match e.stage with
    | .timing => some { e.startHbTimer cfg with stage := .running }
    | _ => none
  | .handle =>
    match e.stage, e.ioStopped, e.handlers with
    | .running, false, h :: rest => some ((e.dequeue rest).handle cfg utc h)
    | _, _, _ => none
  | .parse =>
    match e.stage with
    | .parsing => some (e.parse cfg utc)
    | _ => none
  | .leave =>
    match e.stage with
    | .running => if e.runOver then some e.leave else none
    | _ => none
  | .wrote ok =>
    if 0 < e.writes then
      some (({ e with writes := e.writes - 1 } : FixExecutor).post (.wrote ok))
    else none
  | .received bytes =>
    if 0 < e.reads then
      some (({ e with reads := e.reads - 1 } : FixExecutor).post (.read (.data e.session bytes)))
    else none
  | .readFailed =>
    if 0 < e.reads then
      some (({ e with reads := e.reads - 1 } : FixExecutor).post (.read .failed))
    else none
  | .expire =>
    match e.timer with
    | some dueMs =>
      if dueMs ≤ e.nowMs then
        some (({ e with timer := none } : FixExecutor).post (.timer false))
      else none
    | none => none

def machine : Machine FixExecutor Action where
  init := {}
  step := step cfg utc

/-! ## What a step can do -/

inductive Moves (cfg : Config) (utc : Nat → String) (e : FixExecutor) : Action → FixExecutor → Prop where
  | started (running : e.running = true) : Moves cfg utc e .start e
  | start (stage : e.stage = .unstarted) :
      Moves cfg utc e .start { e with running := true, stopped := false, stage := .top }
  | stop : Moves cfg utc e .stop e.stop
  | stopPost :
      Moves cfg utc e .stopPost
        (({ e with stopping := false, joining := true } : FixExecutor).post .logout)
  | join (stage : e.stage = .finished ∨ e.stage = .unstarted) : Moves cfg utc e .join e.join
  | execute (call : OrderCall) : Moves cfg utc e (.execute call) (e.execute call)
  | post :
      Moves cfg utc e .post (({ e with posting := e.posting - 1 } : FixExecutor).post .drain)
  | wait (ms : Nat) : Moves cfg utc e (.wait ms) { e with nowMs := e.nowMs + ms }
  | loop (stage : e.stage = .top) : Moves cfg utc e .loop e.loopTest
  | connected (stage : e.stage = .connecting) :
      Moves cfg utc e (.connect .up) (e.startSession cfg utc)
  | connectFailed (result : ConnectResult) (threw : Bool) (failed : result ≠ .up)
      (stage : e.stage = .connecting) : Moves cfg utc e (.connect result) (e.connectFailed cfg threw)
  | retry (untilMs : Int) (stage : e.stage = .backoff untilMs) :
      Moves cfg utc e .retry { e with wake := false, stage := .top }
  | drain (stage : e.stage = .draining) :
      Moves cfg utc e .drain { e.drainOrders cfg utc with stage := .listening }
  | listen (stage : e.stage = .listening) :
      Moves cfg utc e .listen
        { ({ e with lastRecvMs := e.nowMs } : FixExecutor).startRead with stage := .timing }
  | arm (stage : e.stage = .timing) :
      Moves cfg utc e .arm { e.startHbTimer cfg with stage := .running }
  | handle (h : Handler) (rest : List Handler) (stage : e.stage = .running)
      (going : e.ioStopped = false) (next : e.handlers = h :: rest) :
      Moves cfg utc e .handle ((e.dequeue rest).handle cfg utc h)
  | parse (stage : e.stage = .parsing) : Moves cfg utc e .parse (e.parse cfg utc)
  | leave (stage : e.stage = .running) (ended : e.runOver = true) : Moves cfg utc e .leave e.leave
  | wrote (ok : Bool) (writes : 0 < e.writes) :
      Moves cfg utc e (.wrote ok)
        (({ e with writes := e.writes - 1 } : FixExecutor).post (.wrote ok))
  | received (bytes : Bytes) (reads : 0 < e.reads) :
      Moves cfg utc e (.received bytes)
        (({ e with reads := e.reads - 1 } : FixExecutor).post (.read (.data e.session bytes)))
  | readFailed (reads : 0 < e.reads) :
      Moves cfg utc e .readFailed
        (({ e with reads := e.reads - 1 } : FixExecutor).post (.read .failed))
  | expire (dueMs : Int) (timer : e.timer = some dueMs) :
      Moves cfg utc e .expire (({ e with timer := none } : FixExecutor).post (.timer false))

variable {cfg utc} {e e' : FixExecutor} {a : Action}

lemma start_moves (hs : e.start = some e') : Moves cfg utc e .start e' := by
  unfold start at hs
  split at hs
  · cases hs
    exact .started ‹_›
  · split at hs <;> cases hs
    exact .start ‹_›

lemma connect_moves {result : ConnectResult} (hs : e.step cfg utc (.connect result) = some e') :
    Moves cfg utc e (.connect result) e' := by
  simp only [step] at hs
  split at hs
  · cases hs
    exact .connected ‹_›
  · cases hs
    exact .connectFailed .failed false (by simp) ‹_›
  · cases hs
    exact .connectFailed .threw true (by simp) ‹_›
  · cases hs

theorem step_moves (hs : e.step cfg utc a = some e') : Moves cfg utc e a e' := by
  cases a with
  | start => exact start_moves hs
  | stop =>
    cases hs
    exact .stop
  | stopPost =>
    simp only [step] at hs
    split at hs <;> cases hs
    exact .stopPost
  | join =>
    simp only [step] at hs
    split at hs <;> cases hs
    rename_i hjoin
    simp only [Bool.and_eq_true, Bool.or_eq_true, beq_iff_eq] at hjoin
    exact .join hjoin.2
  | execute call =>
    cases hs
    exact .execute call
  | post =>
    simp only [step] at hs
    split at hs <;> cases hs
    exact .post
  | wait ms =>
    cases hs
    exact .wait ms
  | loop =>
    simp only [step] at hs
    split at hs <;> cases hs
    exact .loop ‹_›
  | connect result => exact connect_moves hs
  | retry =>
    simp only [step] at hs
    split at hs
    · split at hs <;> cases hs
      exact .retry _ ‹_›
    · cases hs
  | drain =>
    simp only [step] at hs
    split at hs <;> cases hs
    exact .drain ‹_›
  | listen =>
    simp only [step] at hs
    split at hs <;> cases hs
    exact .listen ‹_›
  | arm =>
    simp only [step] at hs
    split at hs <;> cases hs
    exact .arm ‹_›
  | handle =>
    simp only [step] at hs
    split at hs <;> cases hs
    rename_i h rest hstage hgoing hnext
    exact .handle h rest hstage hgoing hnext
  | parse =>
    simp only [step] at hs
    split at hs <;> cases hs
    exact .parse ‹_›
  | leave =>
    simp only [step] at hs
    split at hs
    · split at hs <;> cases hs
      exact .leave ‹_› ‹_›
    · cases hs
  | wrote ok =>
    simp only [step] at hs
    split at hs <;> cases hs
    exact .wrote ok ‹_›
  | received bytes =>
    simp only [step] at hs
    split at hs <;> cases hs
    exact .received bytes ‹_›
  | readFailed =>
    simp only [step] at hs
    split at hs <;> cases hs
    exact .readFailed ‹_›
  | expire =>
    simp only [step] at hs
    split at hs
    · split at hs <;> cases hs
      exact .expire _ ‹_›
    · cases hs

/-! ## A round of `process_inbound` -/

lemma parse_wait {keep : Bytes} (h : scan e.inbound = .wait keep) :
    e.parse cfg utc = ({ e with inbound := keep } : FixExecutor).readAgain := by
  simp only [parse, h]

lemma parse_skip {rest : Bytes} (h : scan e.inbound = .skip rest) :
    e.parse cfg utc = { e with inbound := rest } := by
  simp only [parse, h]

lemma parse_item {f rest : Bytes} (h : scan e.inbound = .item f rest) :
    e.parse cfg utc =
      if (({ e with inbound := rest } : FixExecutor).handleFrame cfg utc f).halted then
        (({ e with inbound := rest } : FixExecutor).handleFrame cfg utc f).readAgain
      else ({ e with inbound := rest } : FixExecutor).handleFrame cfg utc f := by
  simp only [parse, h]

end FixExecutor

end LatencyArb
