import LatencyArb.Config
import LatencyArb.Library.Decimal
import LatencyArb.Library.Machine
import LatencyArb.Library.Search

/-!
# The OANDA executor (`src/oanda_executor.cpp`)

The request `send_market_order` builds for a job, and `worker_loop` cut at its accesses to the
mailbox and to the connection. A label of the machine says what the callers and the network do
next; of each write it also says whether the broker gets the complete request.
-/

namespace LatencyArb

namespace Oanda

/-! ## The request -/

def escapeJson (c : Char) : String :=
  if c = '\"' then "\\\""
  else if c = '\\' then "\\\\"
  else if c = '\n' then "\\n"
  else if c = '\r' then "\\r"
  else String.singleton c

def jsonStr (s : String) : String := "\"" ++ String.join (s.toList.map escapeJson) ++ "\""

def distanceStr (pips : ℚ) : String :=
  let s := trimZeros (fixedPoint 6 pips)
  if s = "" then "0" else s

structure OrderJob where
  instrument : String
  side : String
  units : ℚ
  stoplossPips : ℚ
  takeprofitPips : ℚ
  deriving DecidableEq, Inhabited

/-- The fields of the body that depend on the job; `units` is the cast to `long long`. -/
structure MarketOrder where
  instrument : String
  units : Int
  stopLossDistance : String
  takeProfitDistance : String
  deriving DecidableEq

def MarketOrder.body (order : MarketOrder) : String :=
  "\x7b\"order\":\x7b" ++
    "\"type\":\"MARKET\"," ++
    "\"instrument\":" ++ jsonStr order.instrument ++ "," ++
    "\"units\":" ++ jsonStr (toString order.units) ++ "," ++
    "\"timeInForce\":\"FOK\"," ++
    "\"positionFill\":\"DEFAULT\"," ++
    "\"stopLossOnFill\":\x7b\"distance\":\"" ++ order.stopLossDistance ++ "\"\x7d," ++
    "\"takeProfitOnFill\":\x7b\"distance\":\"" ++ order.takeProfitDistance ++ "\"\x7d" ++
    "\x7d\x7d"

structure Request where
  target : String
  host : String
  userAgent : String
  contentType : String
  authorization : String
  order : MarketOrder
  deriving DecidableEq

def hostOf (cfg : Config) : String :=
  if cfg.oandaHost = "" then "api-fxpractice.oanda.com" else cfg.oandaHost

def marketOrder (job : OrderJob) : MarketOrder where
  instrument := job.instrument
  units := truncZero job.units
  stopLossDistance := distanceStr job.stoplossPips
  takeProfitDistance := distanceStr job.takeprofitPips

def buildRequest (cfg : Config) (job : OrderJob) : Request where
  target := "/v3/accounts/" ++ cfg.oandaAccountId ++ "/orders"
  host := hostOf cfg
  userAgent := "lead-lag-latency/1.0"
  contentType := "application/json"
  authorization := "Bearer " ++ cfg.oandaToken
  order := marketOrder job

/-! ## The response -/

structure Response where
  status : Nat
  body : String

structure ExecutionResult where
  ok : Bool := false
  httpStatus : Nat := 0
  orderId : Nat := 0
  transactionId : String := ""
  error : String := ""
  deriving DecidableEq

def trimView (s : String) : List Char :=
  let space := fun c => decide (c ∈ [' ', '\t', '\r', '\n'])
  ((s.toList.dropWhile space).reverse.dropWhile space).reverse

/-- What follows the first `"id":` of the trimmed body. -/
def transactionId (body : String) : String :=
  let b := trimView body
  let key := "\"id\":".toList
  match findSub key b with
  | some p => String.ofList (b.drop (p + key.length))
  | none => ""

def resultOf (orderId : Nat) (second : Bool) (res : Response) : ExecutionResult :=
  if 200 ≤ res.status ∧ res.status < 300 then
    { ok := true
      httpStatus := res.status
      orderId := orderId
      transactionId := transactionId res.body }
  else
    { httpStatus := res.status
      orderId := orderId
      error := "HTTP " ++ toString res.status ++ ": " ++ (res.body.take 256).toString ++
        if second then " (after reconnect)" else "" }

/-- What a write or a read throws. -/
inductive Failure where
  | exception (what : String)
  | unknown

def Failure.error : Failure → String
  | .exception what => "exec exception: " ++ what ++ " (reconnect retry also failed)"
  | .unknown => "exec exception (unknown)"

/-! ## The worker -/

/-- The job in `send_market_order`. During the second attempt `retry` says whether the broker has
received the request of the first one, which the executor does not know. -/
structure Task where
  job : OrderJob
  orderId : Nat
  retry : Option Bool := none

/-- Where the worker stands: at its first `connect`, at the test of its loop, about to block in
`cv_.wait`, about to write the request (or to connect for it), waiting for the response; a `finished`
worker is to be joined. -/
inductive Stage where
  | unstarted
  | opening
  | top
  | wait
  | attempt (task : Task)
  | reading (task : Task) (received : Bool)
  | finished

/-- A complete request at the broker. -/
structure Received where
  job : OrderJob
  orderId : Nat
  request : Request

inductive Action where
  | start
  | stop
  | stopWake
  | join
  | execute (job : OrderJob)
  | connect (ok : Bool)
  | loop
  | take
  | write (received : Bool) (failure : Option Failure)
  | read (reply : Except Failure Response)

end Oanda

open Oanda

/-- The executor's state. `stopping` is a `stop` between its two accesses. `leftBehind` (the orders
the last take left in the mailbox), `roused` (the accepted orders and the stops since), `received`
and `results` (the callbacks made) only record the run. -/
structure OandaExecutor where
  running : Bool := false
  stopping : Bool := false
  wake : Bool := false
  jobs : List OrderJob := []
  queueLimit : Nat := 256
  connected : Bool := false
  nextId : Nat := 0
  stage : Stage := .unstarted
  leftBehind : Nat := 0
  roused : Nat := 0
  received : List Received := []
  results : List ExecutionResult := []

namespace OandaExecutor

variable (cfg : Config)

/-- A thread that is assigned before it is joined ends the program: no step. -/
def start (e : OandaExecutor) : Option OandaExecutor :=
  if e.running then some e
  else
    match e.stage with
    | .unstarted => some { e with running := true, stage := .opening }
    | _ => none

def stop (e : OandaExecutor) : OandaExecutor :=
  if e.running then { e with running := false, stopping := true } else e

def execute (e : OandaExecutor) (job : OrderJob) : OandaExecutor :=
  if job.instrument = "" ∨ (job.side ≠ "buy" ∧ job.side ≠ "sell") then e
  else if e.queueLimit ≤ e.jobs.length then e
  else { e with jobs := e.jobs ++ [job], wake := true, roused := e.roused + 1 }

/-- The worker leaves its loop. -/
def finish (e : OandaExecutor) : OandaExecutor := { e with connected := false, stage := .finished }

def loopTest (e : OandaExecutor) : OandaExecutor :=
  if e.running then { e with stage := .wait } else e.finish

/-- The predicate of `cv_.wait`. -/
def waitOver (e : OandaExecutor) : Bool := e.wake || !e.running

def take (e : OandaExecutor) : OandaExecutor :=
  match e.jobs with
  | [] =>
    let e := { e with wake := false, leftBehind := 0, roused := 0 }
    if e.running then { e with stage := .top } else e.finish
  | job :: jobs =>
    { e with
      wake := false
      jobs := jobs
      nextId := e.nextId + 1
      leftBehind := jobs.length
      roused := 0
      stage := .attempt { job := job, orderId := e.nextId + 1 } }

/-- `send_market_order` returns and the callback is made. -/
def report (e : OandaExecutor) (result : ExecutionResult) : OandaExecutor :=
  { e with results := e.results ++ [result], stage := .top }

/-- A write or a read throws: the second attempt follows the first, and none the second. -/
def transportFailed (e : OandaExecutor) (task : Task) (received : Bool) (failure : Failure) :
    OandaExecutor :=
  let e := { e with connected := false }
  match task.retry with
  | none => { e with stage := .attempt { task with retry := some received } }
  | some _ => e.report { orderId := task.orderId, error := failure.error }

def writeRequest (e : OandaExecutor) (task : Task) (received : Bool) (failure : Option Failure) :
    OandaExecutor :=
  let e := if received then
      { e with received := e.received ++ [⟨task.job, task.orderId, buildRequest cfg task.job⟩] }
    else e
  match failure with
  | none => { e with stage := .reading task received }
  | some failure => e.transportFailed task received failure

def step (e : OandaExecutor) : Action → Option OandaExecutor
  | .start => e.start
  | .stop => some e.stop
  | .stopWake =>
    if e.stopping then some { e with wake := true, stopping := false, roused := e.roused + 1 }
    else none
  | .join =>
    match e.stage with
    | .finished => if e.stopping then none else some { e with stage := .unstarted }
    | _ => none
  | .execute job => some (e.execute job)
  | .connect ok =>
    match e.stage with
    | .opening => some { e with connected := e.running && ok, stage := .top }
    | .attempt task =>
      if e.connected then none
      else if ok then some { e with connected := true }
      else some (e.report { orderId := task.orderId })
    | _ => none
  | .loop =>
    match e.stage with
    | .top => some e.loopTest
    | _ => none
  | .take =>
    match e.stage with
    | .wait => if e.waitOver then some e.take else none
    | _ => none
  | .write received failure =>
    match e.stage with
    | .attempt task => if e.connected then some (e.writeRequest cfg task received failure) else none
    | _ => none
  | .read reply =>
    match e.stage with
    | .reading task received =>
      match reply with
      | .error failure => some (e.transportFailed task received failure)
      | .ok res => some (e.report (resultOf task.orderId task.retry.isSome res))
    | _ => none

def machine : Machine OandaExecutor Action where
  init := {}
  step := step cfg

/-! ## What a step can do -/

inductive Moves (cfg : Config) (e : OandaExecutor) : Action → OandaExecutor → Prop where
  | started (running : e.running = true) : Moves cfg e .start e
  | start (stage : e.stage = .unstarted) :
      Moves cfg e .start { e with running := true, stage := .opening }
  | stop : Moves cfg e .stop e.stop
  | stopWake :
      Moves cfg e .stopWake { e with wake := true, stopping := false, roused := e.roused + 1 }
  | join (stage : e.stage = .finished) : Moves cfg e .join { e with stage := .unstarted }
  | execute (job : OrderJob) : Moves cfg e (.execute job) (e.execute job)
  | opened (ok : Bool) (stage : e.stage = .opening) :
      Moves cfg e (.connect ok) { e with connected := e.running && ok, stage := .top }
  | reconnected (task : Task) (stage : e.stage = .attempt task) :
      Moves cfg e (.connect true) { e with connected := true }
  | connectFailed (task : Task) (stage : e.stage = .attempt task) :
      Moves cfg e (.connect false) (e.report { orderId := task.orderId })
  | loop (stage : e.stage = .top) : Moves cfg e .loop e.loopTest
  | take (stage : e.stage = .wait) (woken : e.waitOver = true) : Moves cfg e .take e.take
  | write (task : Task) (received : Bool) (failure : Option Failure)
      (stage : e.stage = .attempt task) :
      Moves cfg e (.write received failure) (e.writeRequest cfg task received failure)
  | readFailed (task : Task) (received : Bool) (failure : Failure)
      (stage : e.stage = .reading task received) :
      Moves cfg e (.read (.error failure)) (e.transportFailed task received failure)
  | read (task : Task) (received : Bool) (res : Response)
      (stage : e.stage = .reading task received) :
      Moves cfg e (.read (.ok res)) (e.report (resultOf task.orderId task.retry.isSome res))

variable {cfg} {e e' : OandaExecutor} {a : Action}

lemma start_moves (hs : e.start = some e') : Moves cfg e .start e' := by
  unfold start at hs
  split at hs
  · cases hs
    exact .started ‹_›
  · split at hs <;> cases hs
    exact .start ‹_›

lemma connect_moves {ok : Bool} (hs : e.step cfg (.connect ok) = some e') :
    Moves cfg e (.connect ok) e' := by
  simp only [step] at hs
  split at hs
  · cases hs
    exact .opened _ ‹_›
  · rename_i hstage
    split at hs
    · cases hs
    · split at hs <;> cases hs
      · rename_i hok
        rw [hok]
        exact .reconnected _ hstage
      · rename_i hok
        rw [Bool.not_eq_true] at hok
        rw [hok]
        exact .connectFailed _ hstage
  · cases hs

theorem step_moves (hs : e.step cfg a = some e') : Moves cfg e a e' := by
  cases a with
  | start => exact start_moves hs
  | stop =>
    cases hs
    exact .stop
  | stopWake =>
    simp only [step] at hs
    split at hs <;> cases hs
    exact .stopWake
  | join =>
    simp only [step] at hs
    split at hs
    · split at hs <;> cases hs
      exact .join ‹_›
    · cases hs
  | execute job =>
    cases hs
    exact .execute job
  | connect ok => exact connect_moves hs
  | loop =>
    simp only [step] at hs
    split at hs <;> cases hs
    exact .loop ‹_›
  | take =>
    simp only [step] at hs
    split at hs
    · split at hs <;> cases hs
      exact .take ‹_› ‹_›
    · cases hs
  | write received failure =>
    simp only [step] at hs
    split at hs
    · split at hs <;> cases hs
      exact .write _ _ _ ‹_›
    · cases hs
  | read reply =>
    simp only [step] at hs
    split at hs
    · rename_i hstage
      split at hs <;> cases hs
      · exact .readFailed _ _ _ hstage
      · exact .read _ _ _ hstage
    · cases hs

end OandaExecutor

end LatencyArb
