import LatencyArb.Config
import LatencyArb.Library.Decimal

/-!
# The cTrader messages (`src/ctrader_executor.cpp`)

The requests the executor sends and the frames it reads. A frame has the bytes of its payload and
what they decode to.
-/

namespace LatencyArb

namespace CTrader

namespace Payload

def applicationAuthRes : Int := 2101
def accountAuthRes : Int := 2103
def symbolsListRes : Int := 2115
def symbolByIdRes : Int := 2117
def subscribeSpotsRes : Int := 2128
def executionEvent : Int := 2126
def orderErrorEvent : Int := 2132
def spotEvent : Int := 2131
def errorRes : Int := 2142
def clientDisconnect : Int := 2148

end Payload

def kPriceScale : Nat := 100000

structure OrderJob where
  symbol : String
  side : String
  volume : ℚ
  stoplossPips : ℚ
  takeprofitPips : ℚ
  deriving DecidableEq, Inhabited

structure SymbolInfo where
  symbolId : Int := 0
  digits : Int := 0
  pipPosition : Int := 1
  lotSize : Int := 1000000
  valid : Bool := false
  deriving DecidableEq, Inhabited

/-- What `resolve_symbol` reads of a `ProtoOASymbol`. -/
structure SymbolDetails where
  digits : Int
  pipPosition : Int
  lotSize : Int
  deriving DecidableEq

/-- What `place_order` reads of a `ProtoOAExecutionEvent`. -/
structure ExecutionEvent where
  executionType : String
  orderId : Int
  positionId : Option Int
  deriving DecidableEq

/-- What the bytes of a payload decode to; `undecoded` where they decode to none of the others. -/
inductive Content where
  | symbolsList (symbols : List (String × Int))
  | symbolById (symbols : List SymbolDetails)
  | spot (symbolId : Int) (bid ask : Nat)
  | execution (event : ExecutionEvent)
  | undecoded
  deriving DecidableEq

/-- A decoded `ProtoMessage`. `owner` is the order request that made the server produce it, by its
number among all order requests sent; the executor does not see it. -/
structure Frame where
  type : Int
  raw : String
  content : Content
  owner : Option Nat := none
  deriving DecidableEq

/-- The lambda `norm` of `resolve_symbol`. -/
def norm (s : String) : String := String.ofList ((s.toList.filter Char.isAlphanum).map Char.toUpper)

/-- The id under the first name of the list that is equal to `sym` when normalized, else 0. -/
def findSymbol (sym : String) (symbols : List (String × Int)) : Int :=
  match symbols.find? (fun entry => norm entry.1 = norm sym) with
  | none => 0
  | some entry => entry.2

def symbolInfo (id : Int) (sp : SymbolDetails) : SymbolInfo where
  symbolId := id
  digits := sp.digits
  pipPosition := sp.pipPosition
  lotSize := if sp.lotSize ≤ 0 then 1000000 else sp.lotSize
  valid := true

structure NewOrderReq where
  symbolId : Int
  orderType : String
  tradeSide : String
  volume : Int
  relativeStopLoss : Option Int
  relativeTakeProfit : Option Int
  stopTriggerMethod : Option String
  clientOrderId : String
  deriving DecidableEq

/-- The request `place_order` builds for a job with the symbol information `info`. -/
def buildOrder (job : OrderJob) (info : SymbolInfo) (nextId : Nat) : NewOrderReq :=
  let buy := job.side = "buy" ∨ job.side = "BUY"
  let pipProto : ℚ := 10 ^ (5 - info.pipPosition)
  let relSl := roundAway (job.stoplossPips * pipProto)
  let relTp := roundAway (job.takeprofitPips * pipProto)
  { symbolId := info.symbolId
    orderType := "MARKET"
    tradeSide := if buy then "BUY" else "SELL"
    volume := roundAway (job.volume * info.lotSize)
    relativeStopLoss := if 0 < relSl then some relSl else none
    relativeTakeProfit := if 0 < relTp then some relTp else none
    stopTriggerMethod := if 0 < relSl ∨ 0 < relTp then some "TRADE" else none
    clientOrderId := "LL" ++ toString nextId }

structure ExecutionResult where
  ok : Bool := false
  status : String := ""
  orderId : Int := 0
  positionId : Int := 0
  error : String := ""
  deriving DecidableEq

def publicStatus (executionType : String) : String :=
  if executionType = "ORDER_ACCEPTED" then "ACCEPTED"
  else if executionType = "ORDER_FILLED" then "FILLED"
  else if executionType = "ORDER_REJECTED" then "REJECTED"
  else executionType

def resultOf (ev : ExecutionEvent) : ExecutionResult :=
  let status := publicStatus ev.executionType
  let ok := decide (status = "ACCEPTED" ∨ status = "FILLED")
  { ok := ok
    status := status
    orderId := ev.orderId
    positionId := ev.positionId.getD 0
    error := if ok then "" else "order rejected: " ++ status }

end CTrader

end LatencyArb
