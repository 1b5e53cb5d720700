import LatencyArb.Library.Search
import LatencyArb.Wire.SignalText

/-!
# The text of a broker quote

`quote_frame` (`src/zmq_pub.cpp`) writes a quote, and `BrokerSub` (`src/broker_sub.cpp`) reads the quotes of
its broker. The two have the fields in different orders.
-/

namespace LatencyArb

open Numeral

namespace Wire

/-- A `BrokerQuote` whose prices are doubles. -/
structure WireQuote where
  tsMs : Int := 0
  bid : Double := .finite 0
  ask : Double := .finite 0
  spread : Double := .finite 0
  latencyUs : Int := 0
  valid : Nat := 0
  session : Nat := 0
  deriving DecidableEq

/-! ## `quote_frame` -/

def WireQuote.fields (q : WireQuote) : List (List UInt8) :=
  [bytesOf (toString q.tsMs), fixed6 q.bid, fixed6 q.ask, fixed6 q.spread, bytesOf (toString q.latencyUs),
    bytesOf (toString q.session), bytesOf (toString q.valid)]

def quoteText (q : WireQuote) : List UInt8 := bytesOf "quote|" ++ [comma].intercalate q.fields

/-- The buffer of `quote_frame` has 160 bytes, the last of them for the NUL. -/
def quoteFrame (q : WireQuote) : List UInt8 := (quoteText q).take 159

/-! ## `BrokerSub` -/

/-- What stands behind the topic, without a bar. -/
def quoteBody (topic frame : List UInt8) : List UInt8 :=
  let body := match findSub topic frame with
    | some lp => frame.drop (lp + topic.length)
    | none => frame
  if body.head? = some 124 then body.tail else body

/-- A conversion to `uint8_t`. -/
def toByte (n : Int) : Nat := (n % 256).toNat

/-- Each field keeps its default where there are too few parts. -/
def quoteOf (parts : List (List UInt8)) : WireQuote where
  tsMs := if 4 ≤ parts.length then atoll (parts.getD 3 []) else 0
  bid := if 3 ≤ parts.length then strtod (parts.getD 0 []) else .finite 0
  ask := if 3 ≤ parts.length then strtod (parts.getD 1 []) else .finite 0
  spread := if 3 ≤ parts.length then strtod (parts.getD 2 []) else .finite 0
  latencyUs := if 5 ≤ parts.length then atoll (parts.getD 4 []) else 0
  valid := 1
  session := if 6 ≤ parts.length then toByte (atoll (parts.getD 5 [])) else 0

def parseQuote (topic frame : List UInt8) : WireQuote := quoteOf ((quoteBody topic frame).splitOn comma)

/-- The quotes that are pushed. -/
def acceptQuote (q : WireQuote) : Bool := q.bid.isPos && q.ask.isPos && q.bid.le q.ask

def readQuote (topic frame : List UInt8) : Option WireQuote :=
  if acceptQuote (parseQuote topic frame) then some (parseQuote topic frame) else none

end Wire

end LatencyArb
