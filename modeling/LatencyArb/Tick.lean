import Mathlib

/-!
# Ticks and quotes (`include/llm/tick.h`)
-/

namespace LatencyArb

inductive Venue where
  | unknown | binance | deribit | bybit | broker
  deriving DecidableEq, Repr

structure Tick where
  tsMs : Int := 0
  tsNs : Int := 0
  bid : ℚ := 0
  ask : ℚ := 0
  last : ℚ := 0
  venue : Venue := .unknown
  seq : Nat := 0
  valid : Nat := 0
  deriving DecidableEq, Inhabited

namespace Tick

def isValid (t : Tick) : Bool := t.valid != 0

def mid (t : Tick) : ℚ := if 0 < t.bid ∧ 0 < t.ask then (t.bid + t.ask) * (1 / 2) else t.last

end Tick

structure BrokerQuote where
  tsMs : Int := 0
  bid : ℚ := 0
  ask : ℚ := 0
  spread : ℚ := 0
  latencyUs : Int := 0
  valid : Nat := 0
  session : Nat := 0
  deriving DecidableEq, Inhabited

def BrokerQuote.isValid (q : BrokerQuote) : Bool := q.valid != 0 && decide (0 < q.bid ∧ 0 < q.ask)

end LatencyArb
