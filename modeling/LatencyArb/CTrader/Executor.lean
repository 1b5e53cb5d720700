import LatencyArb.CTrader.Protocol
import LatencyArb.Library.Machine

/-!
# The cTrader worker (`src/ctrader_executor.cpp`)

`worker_loop` with everything it calls, cut at its accesses to the mailbox and to the stream. A label
of the machine says what the callers, the network and the server do next; the server may send any
frame, but a frame belongs to no request that has not been sent.
-/

namespace LatencyArb

namespace CTrader

/-- The end of one call of `place_order`: its result, and the frame of the `EXECUTION_EVENT` the
result is read from, if it is read from one. -/
structure Outcome where
  result : ExecutionResult
  frame : Option Frame := none
  deriving DecidableEq

/-- The job in hand; `failed` is the outcome of the first attempt during the second one. -/
structure Task where
  job : OrderJob
  failed : Option Outcome := none

/-- The two calls of `resolve_symbol`: in `connect` and in `place_order`. -/
inductive Purpose where
  | connect | order
  deriving DecidableEq

/-- The requests that go through `exchange`; an order keeps the local `info` it was built with. -/
inductive Request where
  | applicationAuth
  | accountAuth
  | symbolsList (purpose : Purpose)
  | symbolById (purpose : Purpose) (id : Int)
  | subscribeSpots
  | newOrder (order : NewOrderReq) (info : SymbolInfo)

def Request.expect : Request → Int
  | .applicationAuth => Payload.applicationAuthRes
  | .accountAuth => Payload.accountAuthRes
  | .symbolsList _ => Payload.symbolsListRes
  | .symbolById _ _ => Payload.symbolByIdRes
  | .subscribeSpots => Payload.subscribeSpotsRes
  | .newOrder _ _ => Payload.executionEvent

/-- Where the worker stands. In an exchange it is about to send the request or, once `awaiting`, it
reads frames; a `finished` worker has left its loop and is to be joined, and without a worker
(`running_` is false) it is `unstarted`. -/
inductive Stage where
  | unstarted
  | idle
  | tls (task : Task)
  | exchange (task : Task) (request : Request) (awaiting : Bool)
  | snapshot (task : Task)
  | finished

/-- An order request on the wire, with the number of the callback its job will get. -/
structure SentOrder where
  order : NewOrderReq
  job : OrderJob
  callback : Nat

inductive ReadResult where
  | failed
  | undecodable
  | frame (frame : Frame)

inductive Action where
  | start
  | execute (job : OrderJob)
  | stop
  | take
  | tls (ok : Bool)
  | send (ok : Bool)
  | read (result : ReadResult)
  | timeout
  | join

end CTrader

open CTrader

/-- The executor's state; `sent` and `reports` (the callbacks made) only record the run. -/
structure CTraderExecutor where
  stopped : Bool := false
  jobs : List OrderJob := []
  queueLimit : Nat := 256
  connected : Bool := false
  stream : Bool := false
  syminfo : SymbolInfo := {}
  spotBid : ℚ := 0
  spotAsk : ℚ := 0
  nextId : Nat := 0
  stage : Stage := .unstarted
  sent : List SentOrder := []
  reports : List Outcome := []

namespace CTraderExecutor

variable (cfg : Config)

def configuredSymbol : String := if cfg.ctraderSymbol = "" then "XAU/USD" else cfg.ctraderSymbol

/-- The argument of `resolve_symbol`. -/
def wantedSymbol (task : Task) : Purpose → String
  | .connect => configuredSymbol cfg
  | .order => task.job.symbol

def start (e : CTraderExecutor) : CTraderExecutor :=
  match e.stage with
  | .unstarted => { e with stopped := false, stage := .idle }
  | _ => e

def execute (e : CTraderExecutor) (job : OrderJob) : CTraderExecutor :=
  if e.queueLimit ≤ e.jobs.length then e else { e with jobs := e.jobs ++ [job] }

def disconnect (e : CTraderExecutor) : CTraderExecutor :=
  { e with connected := false, stream := false, spotBid := 0, spotAsk := 0 }

/-- The end of `stop`, once the worker is joined. -/
def closeStream (e : CTraderExecutor) : CTraderExecutor := if e.stream then e.disconnect else e

/-- The callback, after which the worker is back at the top of its loop. -/
def report (e : CTraderExecutor) (outcome : Outcome) : CTraderExecutor :=
  { e with reports := e.reports ++ [outcome], stage := .idle }

def ask (e : CTraderExecutor) (task : Task) (request : Request) : CTraderExecutor :=
  { e with stage := .exchange task request false }

def askOrder (e : CTraderExecutor) (task : Task) (info : SymbolInfo) : CTraderExecutor :=
  ({ e with nextId := e.nextId + 1 } : CTraderExecutor).ask task
    (.newOrder (buildOrder task.job info (e.nextId + 1)) info)

/-- `place_order` up to its first exchange. -/
def placeOrder (e : CTraderExecutor) (task : Task) : CTraderExecutor :=
  if !e.syminfo.valid || e.syminfo.symbolId == 0 then e.ask task (.symbolsList .order)
  else e.askOrder task e.syminfo

/-- The end of an attempt in `worker_loop`: a failed first one is followed by a reconnect. -/
def attemptDone (e : CTraderExecutor) (task : Task) (outcome : Outcome) : CTraderExecutor :=
  if outcome.result.ok then e.report outcome
  else
    match task.failed with
    | none => { e.disconnect with stage := .tls { task with failed := some outcome } }
    | some _ => e.report outcome

/-- `connect` returns false: the job is dropped, or the first attempt's outcome is reported. -/
def connectFailed (e : CTraderExecutor) (task : Task) : CTraderExecutor :=
  match task.failed with
  | none => { e.disconnect with stage := .idle }
  | some outcome => e.disconnect.report outcome

/-- The caller of `exchange` gives up with this error text. -/
def fail (e : CTraderExecutor) (task : Task) (error : String) : Request → CTraderExecutor
  | .newOrder _ _ =>
    e.attemptDone task {
      result := { error := if error = "" then "no execution event (timeout)" else error } }
  | .symbolsList .order => e.attemptDone task { result := { error := "symbol resolve: " ++ error } }
  | .symbolById .order _ => e.attemptDone task { result := { error := "symbol resolve: " ++ error } }
  | _ => e.connectFailed task

def resolved (e : CTraderExecutor) (task : Task) (info : SymbolInfo) : Purpose → CTraderExecutor
  | .connect => ({ e with syminfo := info } : CTraderExecutor).ask task .subscribeSpots
  | .order => ({ e with syminfo := info } : CTraderExecutor).askOrder task info

/-- The caller of `exchange` gets the payload it was waiting for. -/
def accept (e : CTraderExecutor) (task : Task) (request : Request) (frame : Frame) :
    CTraderExecutor :=
  if frame.raw = "" then e.fail task "" request
  else
    match request, frame.content with
    | .applicationAuth, _ => e.ask task .accountAuth
    | .accountAuth, _ => e.ask task (.symbolsList .connect)
    | .symbolsList purpose, .symbolsList symbols =>
      let sym := wantedSymbol cfg task purpose
      let id := findSymbol sym symbols
      if id = 0 then e.fail task ("symbol not found: " ++ sym) request
      else e.ask task (.symbolById purpose id)
    | .symbolsList _, _ => e.fail task "parse list res" request
    | .symbolById purpose id, .symbolById (sp :: _) => e.resolved task (symbolInfo id sp) purpose
    | .symbolById _ _, .symbolById [] => e.fail task "empty symbol-by-id res" request
    | .symbolById _ _, _ => e.fail task "parse by-id res" request
    | .subscribeSpots, _ => { e with stage := .snapshot task }
    | .newOrder _ _, .execution event =>
      e.attemptDone task { result := resultOf event, frame := some frame }
    | .newOrder _ _, _ =>
      e.attemptDone task { result := { error := "parse execution event" } }

def storeSpot (e : CTraderExecutor) (bid ask : Nat) : CTraderExecutor :=
  { e with spotBid := bid / kPriceScale, spotAsk := ask / kPriceScale }

/-- `dispatch_other`; an error text ends the exchange. -/
def dispatchOther (e : CTraderExecutor) (frame : Frame) : CTraderExecutor × Option String :=
  if frame.type = Payload.spotEvent then
    match frame.content with
    | .spot _ bid ask => (e.storeSpot bid ask, none)
    | _ => (e, none)
  else if frame.type = Payload.orderErrorEvent then
    (e, some ("order rejected: " ++ (frame.raw.take 64).toString))
  else if frame.type = Payload.errorRes then
    (e, some ("api error: " ++ (frame.raw.take 64).toString))
  else if frame.type = Payload.clientDisconnect then (e, some "client disconnected by server")
  else (e, none)

def onFrame (e : CTraderExecutor) (task : Task) (request : Request) (frame : Frame) :
    CTraderExecutor :=
  if frame.type = request.expect then e.accept cfg task request frame
  else
    match e.dispatchOther frame with
    | (e, some error) => e.fail task error request
    | (e, none) => e

/-- The loop of `subscribe_spot`: the first snapshot of the symbol makes the connection ready. -/
def onSnapshot (e : CTraderExecutor) (task : Task) (frame : Frame) : CTraderExecutor :=
  match frame.content with
  | .spot symbolId bid ask =>
    if frame.type = Payload.spotEvent ∧ symbolId = e.syminfo.symbolId then
      (e.storeSpot bid ask).placeOrder task
    else e
  | _ => e

def take (e : CTraderExecutor) : CTraderExecutor :=
  if e.stopped then { e with stage := .finished }
  else
    match e.jobs with
    | [] => e
    | job :: jobs =>
      let e := { e with jobs := jobs }
      if e.connected && e.stream then e.placeOrder { job := job }
      else { e with stage := .tls { job := job } }

def sendRequest (e : CTraderExecutor) (task : Task) (request : Request) : CTraderExecutor :=
  match request with
  | .newOrder order _ =>
    { e with
      sent := e.sent ++ [⟨order, task.job, e.reports.length⟩]
      stage := .exchange task request true }
  | _ => { e with stage := .exchange task request true }

/-- The frame belongs to no request that has not been sent. -/
def mayArrive (e : CTraderExecutor) : ReadResult → Bool
  | .frame frame => frame.owner.all (fun i => decide (i < e.sent.length))
  | _ => true

def onRead (e : CTraderExecutor) (result : ReadResult) : Option CTraderExecutor :=
  match e.stage, result with
  | .exchange task request true, .failed => some (e.fail task "read failed (transport)" request)
  | .exchange _ _ true, .undecodable => some e
  | .exchange task request true, .frame frame => some (e.onFrame cfg task request frame)
  | .snapshot task, .failed => some (e.connectFailed task)
  | .snapshot _, .undecodable => some e
  | .snapshot task, .frame frame => some (e.onSnapshot task frame)
  | _, _ => none

def step (e : CTraderExecutor) : Action → Option CTraderExecutor
  | .start => some e.start
  | .execute job => some (e.execute job)
  | .stop => some { e with stopped := true }
  | .take =>
    match e.stage with
    | .idle => some e.take
    | _ => none
  | .tls ok =>
    match e.stage with
    | .tls task =>
      if ok then
        some (({ e with connected := true, stream := true } : CTraderExecutor).ask task .applicationAuth)
      else some (e.connectFailed task)
    | _ => none
  | .send ok =>
    match e.stage with
    | .exchange task request false =>
      if ok then some (e.sendRequest task request)
      else some (e.fail task "send failed (transport)" request)
    | _ => none
  | .read result => if e.mayArrive result then e.onRead cfg result else none
  | .timeout =>
    match e.stage with
    | .snapshot task => some (e.connectFailed task)
    | _ => none
  | .join =>
    match e.stage with
    | .unstarted => some e.closeStream
    | .finished => some { e.closeStream with stage := .unstarted }
    | _ => none

def machine : Machine CTraderExecutor Action where
  init := {}
  step := step cfg

/-! ## What a step can do -/

inductive Moves (cfg : Config) (e : CTraderExecutor) : Action → CTraderExecutor → Prop where
  | start : Moves cfg e .start e.start
  | execute (job : OrderJob) : Moves cfg e (.execute job) (e.execute job)
  | stop : Moves cfg e .stop { e with stopped := true }
  | take (stage : e.stage = .idle) : Moves cfg e .take e.take
  | tlsUp (task : Task) (stage : e.stage = .tls task) :
      Moves cfg e (.tls true)
        (({ e with connected := true, stream := true } : CTraderExecutor).ask task .applicationAuth)
  | tlsFailed (task : Task) (stage : e.stage = .tls task) :
      Moves cfg e (.tls false) (e.connectFailed task)
  | send (task : Task) (request : Request) (stage : e.stage = .exchange task request false) :
      Moves cfg e (.send true) (e.sendRequest task request)
  | sendFailed (task : Task) (request : Request) (stage : e.stage = .exchange task request false) :
      Moves cfg e (.send false) (e.fail task "send failed (transport)" request)
  | readFailed (task : Task) (request : Request) (stage : e.stage = .exchange task request true) :
      Moves cfg e (.read .failed) (e.fail task "read failed (transport)" request)
  | readFrame (task : Task) (request : Request) (frame : Frame)
      (stage : e.stage = .exchange task request true) :
      Moves cfg e (.read (.frame frame)) (e.onFrame cfg task request frame)
  | undecodable : Moves cfg e (.read .undecodable) e
  | snapshotFailed (task : Task) (stage : e.stage = .snapshot task) :
      Moves cfg e (.read .failed) (e.connectFailed task)
  | snapshotFrame (task : Task) (frame : Frame) (stage : e.stage = .snapshot task) :
      Moves cfg e (.read (.frame frame)) (e.onSnapshot task frame)
  | timeout (task : Task) (stage : e.stage = .snapshot task) :
      Moves cfg e .timeout (e.connectFailed task)
  | close (stage : e.stage = .unstarted) : Moves cfg e .join e.closeStream
  | join (stage : e.stage = .finished) :
      Moves cfg e .join { e.closeStream with stage := .unstarted }

variable {cfg} {e e' : CTraderExecutor} {a : Action}

lemma onRead_moves {result : ReadResult} (hs : e.onRead cfg result = some e') :
    Moves cfg e (.read result) e' := by
  unfold onRead at hs
  split at hs
  · rename_i hstage
    cases hs
    exact .readFailed _ _ hstage
  · cases hs
    exact .undecodable
  · rename_i hstage
    cases hs
    exact .readFrame _ _ _ hstage
  · rename_i hstage
    cases hs
    exact .snapshotFailed _ hstage
  · cases hs
    exact .undecodable
  · rename_i hstage
    cases hs
    exact .snapshotFrame _ _ hstage
  · cases hs

theorem step_moves (hs : e.step cfg a = some e') : Moves cfg e a e' := by
  unfold step at hs
  split at hs
  · cases hs
    exact .start
  · cases hs
    exact .execute _
  · cases hs
    exact .stop
  · split at hs <;> cases hs
    exact .take ‹_›
  · split at hs
    · rename_i hstage
      split at hs <;> cases hs
      · rename_i hok
        rw [hok]
        exact .tlsUp _ hstage
      · rename_i hok
        rw [Bool.not_eq_true] at hok
        rw [hok]
        exact .tlsFailed _ hstage
    · cases hs
  · split at hs
    · rename_i hstage
      split at hs <;> cases hs
      · rename_i hok
        rw [hok]
        exact .send _ _ hstage
      · rename_i hok
        rw [Bool.not_eq_true] at hok
        rw [hok]
        exact .sendFailed _ _ hstage
    · cases hs
  · split at hs
    · exact onRead_moves hs
    · cases hs
  · split at hs <;> cases hs
    exact .timeout _ ‹_›
  · split at hs <;> cases hs
    · exact .close ‹_›
    · exact .join ‹_›

/-- A frame that does not end the exchange leaves all but the quote as it is. -/
lemma dispatchOther_quote (e : CTraderExecutor) (frame : Frame) :
    ∃ bid ask, (e.dispatchOther frame).1 = { e with spotBid := bid, spotAsk := ask } := by
  unfold dispatchOther
  split
  · split
    · exact ⟨_, _, rfl⟩
    · exact ⟨e.spotBid, e.spotAsk, rfl⟩
  · split
    · exact ⟨e.spotBid, e.spotAsk, rfl⟩
    · split
      · exact ⟨e.spotBid, e.spotAsk, rfl⟩
      · split <;> exact ⟨e.spotBid, e.spotAsk, rfl⟩

lemma closeStream_keeps (e : CTraderExecutor) :
    e.closeStream.sent = e.sent ∧ e.closeStream.reports = e.reports ∧
      e.closeStream.stage = e.stage := by
  unfold closeStream
  split <;> exact ⟨rfl, rfl, rfl⟩

lemma closeStream_closed (e : CTraderExecutor) :
    (e.closeStream.connected && e.closeStream.stream) = false := by
  unfold closeStream
  by_cases hstream : e.stream = true
  · rw [if_pos hstream]
    rfl
  · rw [if_neg hstream]
    simp [hstream]

end CTraderExecutor

end LatencyArb
