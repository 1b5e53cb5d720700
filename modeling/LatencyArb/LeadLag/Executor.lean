import LatencyArb.Wire.Codec
import LatencyArb.Library.FormEncoding
import LatencyArb.Library.Loop

/-!
# The FXCM executor (`src/lead_lag.cpp`)

The order that `build_order_body` writes, what `fxcm_post` makes of an answer, and the loop of `execute`.
`nlohmann::json` is given by its `parse` and its `dump`.
-/

namespace LatencyArb

open Numeral Wire

namespace LeadLag

structure Config where
  fxcmSymbol : List UInt8 := bytesOf "BTC/USD"
  fxcmHost : List UInt8 := bytesOf "api.fxcm.com"
  fxcmPath : List UInt8 := bytesOf "/trading/open_trade"
  fxcmToken : List UInt8 := []
  fxcmAccountId : List UInt8 := []
  fxcmTimeInForce : List UInt8 := bytesOf "FOK"
  fxcmUseJson : Bool := false
  fxcmRetryDelayMs : Int := 100
  tradeAmount : Double := .finite (1 / 1000)
  stopLossPips : Int := 50
  takeProfitPips : Int := 100
  maxOpenPositions : Int := 1
  dryRun : Bool := true

structure Signal where
  direction : List UInt8
  reason : List UInt8
  refPrice : ℚ
  changePct : ℚ

/-! ## JSON values -/

inductive Json where
  | null
  | bool (b : Bool)
  | number (x : ℚ)
  | string (s : List UInt8)
  | array (items : List Json)
  | object (fields : List (List UInt8 × Json))

namespace Json

/-- The value under a key, where this is an object that has it. -/
def find? (key : String) : Json → Option Json
  | .object fields => fields.lookup (bytesOf key)
  | _ => none

/-- `get<bool>` throws on everything but a boolean. -/
def getBool : Json → Option Bool
  | .bool b => some b
  | _ => none

/-- `value` throws on everything but an object, and where `get` does. -/
def value {α : Type} (get : Json → Option α) (key : String) (default : α) (j : Json) : Option α :=
  match j with
  | .object fields =>
    match fields.lookup (bytesOf key) with
    | none => some default
    | some v => get v
  | _ => none

end Json

/-! ## The request -/

def isUnreserved (c : UInt8) : Bool :=
  (48 ≤ c && c ≤ 57) || (65 ≤ c && c ≤ 90) || (97 ≤ c && c ≤ 122) ||
    c == 45 || c == 95 || c == 46 || c == 126

def urlencode (s : List UInt8) : List UInt8 :=
  s.flatMap (fun c =>
    if isUnreserved c then [c] else [37, FormEncoding.hexChar (c >>> 4), FormEncoding.hexChar (c &&& 15)])

section

variable (parse : List UInt8 → Option Json) (dump : Json → List UInt8) (cfg : Config)

def buildOrderBody (s : Signal) : List UInt8 :=
  let isBuy := decide (s.direction = bytesOf "buy")
  let amount := fixed6 cfg.tradeAmount
  if cfg.fxcmUseJson then
    dump (.object [
      (bytesOf "account_id", .string cfg.fxcmAccountId),
      (bytesOf "symbol", .string cfg.fxcmSymbol),
      (bytesOf "is_buy", .bool isBuy),
      (bytesOf "amount", .string amount),
      (bytesOf "rate", .number 0),
      (bytesOf "at_market", .number 0),
      (bytesOf "order_type", .string (bytesOf "AtMarket")),
      (bytesOf "time_in_force", .string cfg.fxcmTimeInForce),
      (bytesOf "stop", .number (-cfg.stopLossPips : Int)),
      (bytesOf "limit", .number cfg.takeProfitPips),
      (bytesOf "is_in_pips", .bool true)])
  else
    bytesOf "account_id=" ++ urlencode cfg.fxcmAccountId ++
      bytesOf "&symbol=" ++ urlencode cfg.fxcmSymbol ++
      bytesOf "&is_buy=" ++ bytesOf (if isBuy then "true" else "false") ++
      bytesOf "&amount=" ++ urlencode amount ++
      bytesOf "&rate=0" ++
      bytesOf "&at_market=0" ++
      bytesOf "&order_type=AtMarket" ++
      bytesOf "&time_in_force=" ++ urlencode cfg.fxcmTimeInForce ++
      bytesOf "&stop=" ++ bytesOf (toString (-cfg.stopLossPips)) ++
      bytesOf "&limit=" ++ bytesOf (toString cfg.takeProfitPips) ++
      bytesOf "&is_in_pips=true"

structure Request where
  target : List UInt8
  host : List UInt8
  userAgent : List UInt8
  accept : List UInt8
  contentType : List UInt8
  authorization : List UInt8
  body : List UInt8
  deriving DecidableEq

def request (body : List UInt8) : Request where
  target := cfg.fxcmPath
  host := cfg.fxcmHost
  userAgent := bytesOf "lead-lag-hft/1.0"
  accept := bytesOf "application/json"
  contentType := bytesOf
    (if cfg.fxcmUseJson then "application/json" else "application/x-www-form-urlencoded")
  authorization := bytesOf "Bearer " ++ cfg.fxcmToken
  body := body

/-! ## The answer -/

/-- What comes of an HTTP round trip: an exception, or a response. -/
inductive Exchange where
  | failed (what : List UInt8)
  | answered (status : Nat) (body : List UInt8)

structure PostResult where
  ok : Bool := false
  retryable : Bool := false
  status : Nat := 0
  orderId : List UInt8 := []
  detail : List UInt8 := []
  deriving DecidableEq

/-- From `data` on; the result stays as it is where something throws. -/
def readOrderId (j : Json) (r : PostResult) : PostResult :=
  match j.value some "data" .null with
  | none => r
  | some data =>
    match data.find? "orderId" with
    | none => r
    | some (.string oid) => { r with orderId := oid }
    | some oid => { r with orderId := dump oid }

/-- The `try` around the body; the result stays as it is where something throws. -/
def readBody (body : List UInt8) (r : PostResult) : PostResult :=
  match parse body with
  | none => r
  | some j =>
    match j.value some "response" .null with
    | none => r
    | some resp =>
      if r.ok then
        match resp.value Json.getBool "executed" false with
        | none => r
        | some true => readOrderId dump j r
        | some false => readOrderId dump j { r with ok := false, retryable := false, detail := body.take 200 }
      else readOrderId dump j r

def fxcmPost : Exchange → PostResult
  | .failed what => { retryable := true, detail := what }
  | .answered status body =>
    readBody parse dump body
      { ok := decide (200 ≤ status ∧ status < 300)
        retryable := decide (500 ≤ status ∨ status = 429)
        status := status }

/-! ## `execute` -/

structure TradeTelemetry where
  direction : List UInt8
  refPrice : ℚ
  changePct : ℚ
  fxcmStatus : Nat
  orderId : List UInt8

inductive Event where
  | post (request : Request) (result : PostResult)
  | sleep (ms : Int)
  | trade (row : TradeTelemetry)

def kMaxAttempts : Nat := 2

/-- An order in the loop of `execute`, before this attempt. -/
structure Order where
  signal : Signal
  attempt : Nat := 1
  last : PostResult := {}
  placed : Bool := false
  events : List Event := []

namespace Order

/-- The loop goes on. -/
def open? (o : Order) : Bool := !o.placed && decide (o.attempt ≤ kMaxAttempts)

/-- One round of the loop. -/
def post (o : Order) (answer : Exchange) : Order :=
  let last := fxcmPost parse dump answer
  let events := o.events ++ [.post (request cfg (buildOrderBody dump cfg o.signal)) last]
  if last.ok then { o with last := last, placed := true, events := events }
  else
    { o with
      attempt := o.attempt + 1
      last := last
      events := events ++
        if o.attempt < kMaxAttempts ∧ last.retryable then [.sleep cfg.fxcmRetryDelayMs] else [] }

/-- The loop with an answer for each attempt. -/
def postNext (answers : Nat → Exchange) (o : Order) : Option Order :=
  if o.open? then some (o.post parse dump cfg (answers o.attempt)) else none

/-- The row written behind the loop. -/
def telemetry (o : Order) : TradeTelemetry where
  direction := o.signal.direction
  refPrice := o.signal.refPrice
  changePct := o.signal.changePct
  fxcmStatus := o.last.status
  orderId := if o.placed then o.last.orderId else []

end Order

/-- The two tests at the head of `execute`. -/
def skips (openPositions : Int) : Bool := cfg.dryRun || decide (cfg.maxOpenPositions ≤ openPositions)

/-- `execute` where nothing else happens between its steps. -/
def execute (openPositions : Int) (s : Signal) (answers : Nat → Exchange) : List Event :=
  if skips cfg openPositions then []
  else
    let o := Loop.run (Order.postNext parse dump cfg answers) kMaxAttempts { signal := s }
    o.events ++ [.trade o.telemetry]

end

end LeadLag

end LatencyArb
