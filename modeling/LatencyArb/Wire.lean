import LatencyArb.Strategy

/-!
# The signal text and the slippage gate (`src/wire.cpp`)
-/

namespace LatencyArb

/-- `encode_signal`: the text, unless it and its NUL do not fit into `cap` bytes. -/
def encodeSignal (s : Signal) (cap : Nat) : Option String :=
  let side := if s.side = .buy then "BUY" else "SELL"
  let text := "signal|" ++ side ++ "," ++ s.reason ++ "," ++ fixedPoint 6 s.lead ++ "," ++
    fixedPoint 6 s.brokerBid ++ "," ++ fixedPoint 6 s.brokerAsk ++ "," ++
    fixedPoint 6 s.threshold ++ "," ++ fixedPoint 6 s.edge ++ "," ++ toString s.tsMs
  if text.utf8ByteSize < cap then some text else none

def withinSlippageCap (s : Signal) : Bool :=
  decide (|s.edge| ≤ CompileTime.kMaxSlippageBroker ∨ 0 < s.edge)

end LatencyArb
