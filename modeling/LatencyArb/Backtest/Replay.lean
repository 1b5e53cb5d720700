import LatencyArb.Backtest.Simulator
import LatencyArb.Library.Loop

/-!
# The replay of two tick streams (`src/backtest/backtest_engine.cpp`)

The locals of `run_impl` are the fields of `Replay`, its lambdas are functions on that state, and
its loop over the merged streams is `Loop.run` of `next`.
-/

namespace LatencyArb

/-- A record of a tick file (`include/backtest/tick_binary.hpp`). -/
structure BinaryTick where
  tsMs : Int := 0
  bid : ℚ := 0
  ask : ℚ := 0
  flags : Nat := 0
  deriving DecidableEq, Inhabited

namespace BinaryTick

def isValid (t : BinaryTick) : Bool := t.flags &&& 1 != 0

def mid (t : BinaryTick) : ℚ := (t.bid + t.ask) * (1 / 2)

end BinaryTick

structure Trade where
  signalTsMs : Int := 0
  fillTsMs : Int := 0
  side : Side := .none
  signalMark : ℚ := 0
  fillPrice : ℚ := 0
  pnl : ℚ := 0
  equityAfter : ℚ := 0
  deriving DecidableEq

structure BacktestResult where
  startTsMs : Int := 0
  endTsMs : Int := 0
  leadTicksConsumed : Nat := 0
  lagTicksConsumed : Nat := 0
  signalsEmitted : Nat := 0
  fills : Nat := 0
  rejections : Nat := 0
  initialCapital : ℚ := 0
  finalEquity : ℚ := 0
  totalPnl : ℚ := 0
  grossProfit : ℚ := 0
  grossLoss : ℚ := 0
  profitFactor : ℚ := 0
  maxDrawdown : ℚ := 0
  maxDrawdownPct : ℚ := 0
  trades : List Trade := []
  delayMs : Int := 0

/-- The `open_*` variables, which are read only while `has_open` is set. -/
structure OpenPosition where
  side : Side
  sigTs : Int
  fillTs : Int
  price : ℚ
  comm : ℚ
  mark : ℚ
  deriving DecidableEq

inductive Feed where
  | lead | lag
  deriving DecidableEq

/-- The locals of `run_impl`; `lead` and `lag` are the ticks not yet consumed. -/
structure Replay where
  lead : List BinaryTick
  lag : List BinaryTick
  strategy : Strategy := {}
  sim : ExecutionSimulator
  leadMid : ℚ := 0
  lagBid : ℚ := 0
  lagAsk : ℚ := 0
  lastBid : ℚ := 0
  lastAsk : ℚ := 0
  lastLead : ℚ := 0
  equity : ℚ
  peak : ℚ
  grossP : ℚ := 0
  grossL : ℚ := 0
  held : Option OpenPosition := none
  out : BacktestResult

namespace Replay

variable (cfg : Config) (params : ExecutionParams)

def recordTrade (s : Replay) (tr : Trade) : Replay :=
  let peak := max s.peak s.equity
  let dd := peak - s.equity
  let out := { s.out with trades := s.out.trades ++ [{ tr with equityAfter := s.equity }] }
  { s with
    peak := peak
    out := if out.maxDrawdown < dd then
        { out with maxDrawdown := dd, maxDrawdownPct := if 0 < peak then dd / peak * 100 else 0 }
      else out }

/-- The P&L of a round trip goes to the equity, and the round trip is counted as a fill. -/
def realize (s : Replay) (pnl : ℚ) : Replay :=
  { s with
    equity := s.equity + pnl
    grossP := if 0 ≤ pnl then s.grossP + pnl else s.grossP
    grossL := if 0 ≤ pnl then s.grossL else s.grossL + -pnl
    out := { s.out with fills := s.out.fills + 1 } }

def orderClosed (s : Replay) (pnl comm : ℚ) : Replay :=
  { s with strategy := s.strategy.onOrderClosed pnl comm }

def openPosition (s : Replay) (f : Fill) : Replay :=
  { s with held := some {
      side := f.side, sigTs := f.signalTsMs, fillTs := f.fillTsMs, price := f.fillPrice
      comm := f.commission, mark := f.signalMark } }

/-- The test of `close_open` on the position `p`. -/
def mustClose (p : OpenPosition) (nowMs : Int) (curLead curBid curAsk : ℚ) (force : Bool) : Bool :=
  if force then true
  else if 0 < params.holdMaxMs ∧ params.holdMaxMs ≤ nowMs - p.fillTs then true
  else decide (|curLead - 1 / 2 * (curBid + curAsk)| ≤ params.holdTolPts)

def exitPrice (p : OpenPosition) (curBid curAsk : ℚ) : ℚ :=
  if p.side = .buy then curBid - params.holdExitSlipPts - params.holdExitMarkupPts
  else curAsk + params.holdExitSlipPts + params.holdExitMarkupPts

def closeOpen (s : Replay) (nowMs : Int) (curLead curBid curAsk : ℚ) (force : Bool) : Replay :=
  match s.held with
  | none => s
  | some p =>
    if !mustClose params p nowMs curLead curBid curAsk force then s
    else
      let exit := exitPrice params p curBid curAsk
      let raw := if p.side = .buy then exit - p.price else p.price - exit
      let pnl := raw - p.comm
      let tr : Trade := {
        signalTsMs := p.sigTs, fillTsMs := nowMs, side := p.side, signalMark := p.mark
        fillPrice := p.price, pnl := pnl }
      { (((s.realize pnl).recordTrade tr).orderClosed pnl p.comm) with held := none }

/-- The round trip of the instant model, marked at the book of the fill. -/
def instantTrade (s : Replay) (f : Fill) : Replay :=
  let exit := if f.side = .buy then f.execBid else f.execAsk
  let raw := if f.side = .buy then exit - f.fillPrice else f.fillPrice - exit
  let pnl := raw - f.commission
  let tr : Trade := {
    signalTsMs := f.signalTsMs, fillTsMs := f.fillTsMs, side := f.side, signalMark := f.signalMark
    fillPrice := f.fillPrice, pnl := pnl }
  ((s.realize pnl).orderClosed pnl f.commission).recordTrade tr

def handleFill (s : Replay) (nowMs : Int) : Replay :=
  match s.sim.atFill nowMs s.lagBid s.lagAsk with
  | (_, none) => s
  | (sim, some f) =>
    let s := { s with sim := sim }
    if f.filled then
      if params.pnlModel = .holdConvergence then s.openPosition f else s.instantTrade f
    else { s with out := { s.out with rejections := s.out.rejections + 1 } }

def evaluateQuote (s : Replay) (nowMs : Int) : Replay :=
  if 0 < s.leadMid ∧ 0 < s.lagBid ∧ 0 < s.lagAsk then
    let q : BrokerQuote := {
      tsMs := nowMs, bid := s.lagBid, ask := s.lagAsk, spread := s.lagAsk - s.lagBid, valid := 1 }
    let d := (Strategy.evaluate cfg s.leadMid q).1
    match s.strategy.maybeEmit cfg d s.leadMid q nowMs with
    | (none, strategy) => { s with strategy := strategy }
    | (some sig, strategy) =>
      let r := s.sim.submit sig.side nowMs s.leadMid s.lagBid s.lagAsk
      if r.2 then
        { s with sim := r.1, strategy := strategy.onOrderPlaced
                 out := { s.out with signalsEmitted := s.out.signalsEmitted + 1 } }
      else { s with sim := r.1, strategy := strategy }
  else s

/-! ## The loop -/

/-- The feed whose tick is consumed next, with that tick taken from its stream. -/
def pick (s : Replay) : Option (Feed × BinaryTick × Replay) :=
  match s.lead, s.lag with
  | [], [] => none
  | t :: lead, [] => some (.lead, t, { s with lead := lead })
  | [], t :: lag => some (.lag, t, { s with lag := lag })
  | a :: lead, b :: lag =>
    if a.tsMs ≤ b.tsMs then some (.lead, a, { s with lead := lead })
    else some (.lag, b, { s with lag := lag })

def leadTick (s : Replay) (t : BinaryTick) : Replay :=
  if !t.isValid then s
  else
    { s with leadMid := t.mid
             out := { s.out with leadTicksConsumed := s.out.leadTicksConsumed + 1 } }

def quoted (s : Replay) (t : BinaryTick) : Replay :=
  { s with lagBid := t.bid, lagAsk := t.ask
           out := { s.out with lagTicksConsumed := s.out.lagTicksConsumed + 1 } }

/-- A held position rides the lag feed. -/
def ride (s : Replay) (nowMs : Int) : Replay :=
  if s.held.isSome ∨ params.pnlModel ≠ .holdConvergence then
    s.closeOpen params nowMs s.leadMid s.lagBid s.lagAsk false
  else s

def remember (s : Replay) : Replay :=
  { s with lastBid := s.lagBid, lastAsk := s.lagAsk, lastLead := s.leadMid }

def lagTick (s : Replay) (t : BinaryTick) : Replay :=
  if !t.isValid then s
  else
    let filled := (s.quoted t).handleFill params t.tsMs
    ((filled.ride params t.tsMs).evaluateQuote cfg t.tsMs).remember

def next (s : Replay) : Option Replay :=
  match s.pick with
  | none => none
  | some (.lead, t, s) => some (s.leadTick t)
  | some (.lag, t, s) => some (s.lagTick cfg params t)

def forceClose (s : Replay) (nowMs : Int) : Replay :=
  match s.held with
  | none => s
  | some p =>
    let s := if s.lastBid ≤ 0 ∨ s.lastAsk ≤ 0 then { s with lastBid := p.price, lastAsk := p.price }
      else s
    s.closeOpen params nowMs s.lastLead s.lastBid s.lastAsk true

def finish (s : Replay) : BacktestResult :=
  { s.out with
    finalEquity := s.equity
    totalPnl := s.equity - s.out.initialCapital
    grossProfit := s.grossP
    grossLoss := s.grossL
    profitFactor := if 0 < s.grossL then s.grossP / s.grossL
      else if 0 < s.grossP then 1000000000 else 0 }

def start (delayMs : Int) (lead lag : List BinaryTick) : Replay :=
  let capital := params.quantity * 1000
  { lead := lead, lag := lag
    sim := { params := { params with delayMs := delayMs } }
    equity := capital, peak := capital
    out := {
      delayMs := delayMs, initialCapital := capital
      startTsMs := min lead.head!.tsMs lag.head!.tsMs
      endTsMs := max lead.getLast!.tsMs lag.getLast!.tsMs } }

/-- The state after the loop over the merged streams. -/
def replayed (delayMs : Int) (lead lag : List BinaryTick) : Replay :=
  Loop.run (next cfg params) (lead.length + lag.length) (start params delayMs lead lag)

def drainMs (s : Replay) : Int := s.out.endTsMs + s.out.delayMs + 1

def runImpl (delayMs : Int) (lead lag : List BinaryTick) : BacktestResult :=
  if lead = [] ∨ lag = [] then { delayMs := delayMs, initialCapital := params.quantity * 1000 }
  else
    let s := replayed cfg params delayMs lead lag
    let drained := s.handleFill params s.drainMs
    (drained.forceClose params (s.drainMs + 1)).finish

end Replay

end LatencyArb
