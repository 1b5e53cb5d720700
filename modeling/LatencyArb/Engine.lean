import LatencyArb.Aggregator
import LatencyArb.FixClient
import LatencyArb.Library.Machine
import LatencyArb.Ring
import LatencyArb.Wire

/-!
# The live engine (`src/main.cpp`, `src/execution.cpp`)

The threads of the engine as one machine: the feed readers, `BrokerSub`, `strategy_loop`, the
`ExecutionDispatcher` worker, the FIX session thread and the main thread. Every access to a
ring, a mailbox or a clock is a step of its own, so that a list of actions is an interleaving.
-/

namespace LatencyArb

abbrev TickRing := SpscRing Tick 8192
abbrev QuoteRing := SpscRing BrokerQuote 8192

/-- Where `strategy_loop` stands in its iteration, with the locals it holds there. -/
inductive LoopPhase where
  | top
  | ingestFast (nowMs : Int)
  | ingestDeribit (nowMs : Int)
  | popQuote (nowMs : Int) (lead : ℚ)
  | submit (signal : Signal)
  | done

/-- Where the dispatcher's worker stands: with no signal, with one it has popped, or with one it
has published. -/
inductive WorkerPhase where
  | idle | holding (signal : Signal) | published (signal : Signal)

structure Dispatcher where
  queue : List Signal := []
  worker : WorkerPhase := .idle
  stopped : Bool := false

/-- The engine's state. `sys` is the system clock in epoch milliseconds and `origin` its value at
the first call of `now_ms`; the last four fields only record the run. -/
structure Engine where
  sys : Int
  origin : Option Int := none
  shutdown : Bool := false
  fastRing : TickRing := SpscRing.init (by decide)
  deribitRing : TickRing := SpscRing.init (by decide)
  brokerRing : QuoteRing := SpscRing.init (by decide)
  aggregator : Aggregator := {}
  strategy : Strategy := {}
  phase : LoopPhase := .top
  exec : Dispatcher := {}
  pub : List String := []
  fix : FixClient := {}
  fastSeen : List Tick := []
  deribitSeen : List Tick := []
  quotes : List BrokerQuote := []
  submitted : List Signal := []

inductive Action where
  | wait (ms : Nat)
  | fastMessage (bid ask : ℚ)
  | deribitMessage (price : ℚ)
  | brokerFrame (q : BrokerQuote)
  | strategy
  | worker
  | fix (event : FixEvent)
  | shutdown
  | stopExec
  | stopFix

namespace Engine

/-- The value `now_ms` returns: milliseconds since its first call. -/
def nowMs (e : Engine) : Int := e.sys - e.origin.getD e.sys

def readClock (e : Engine) : Engine := { e with origin := some (e.origin.getD e.sys) }

/-! ## Readers -/

/-- `BinanceWs::handle_message` on a bookTicker with these prices. -/
def binanceTick (sys : Int) (bid ask : ℚ) : Tick :=
  { tsMs := sys, bid := bid, ask := ask
    last := if 0 < bid ∧ 0 < ask then (bid + ask) * (1 / 2) else 0
    venue := .binance, valid := 1 }

/-- `BybitWs::handle_message`, which skips a message without two positive prices. -/
def bybitTick (sys : Int) (bid ask : ℚ) : Option Tick :=
  if bid ≤ 0 ∨ ask ≤ 0 then none
  else some { tsMs := sys, bid := bid, ask := ask, last := (bid + ask) * (1 / 2),
              venue := .bybit, valid := 1 }

def fastTick (cfg : Config) (sys : Int) (bid ask : ℚ) : Option Tick :=
  if cfg.fastFeed = "BYBIT" then bybitTick sys bid ask else some (binanceTick sys bid ask)

def deribitTick (sys : Int) (price : ℚ) : Option Tick :=
  if price ≤ 0 then none
  else some { tsMs := sys, bid := price, ask := price, last := price, venue := .deribit, valid := 1 }

def pushTick (ring : TickRing) : Option Tick → TickRing
  | none => ring
  | some t => (ring.push t).1

/-- `BrokerSub::run` on a frame parsed to `q`: only an uncrossed positive quote is pushed. -/
def brokerFrame (e : Engine) (q : BrokerQuote) : Engine :=
  if 0 < q.bid ∧ 0 < q.ask ∧ q.bid ≤ q.ask then
    { e with brokerRing := (e.brokerRing.push { q with valid := 1 }).1
             quotes := e.quotes ++ [{ q with valid := 1 }] }
  else e

/-! ## The strategy thread -/

def record (seen : List Tick) (t : Tick) : List Tick := if t.isValid then seen ++ [t] else seen

def ingestFast (e : Engine) (nowMs : Int) : Engine :=
  match e.fastRing.pop with
  | (ring, some t) =>
    { e with fastRing := ring, fastSeen := record e.fastSeen t
             aggregator := { e.aggregator with
               binance := Aggregator.ingestTick e.aggregator.binance nowMs t } }
  | (_, none) =>
    { e with phase := .ingestDeribit nowMs
             aggregator := { e.aggregator with
               binance := Aggregator.pruneOld e.aggregator.binance nowMs } }

/-- What follows the two ingests in an iteration: `update` returns, and without a lead the
iteration is over. -/
def afterUpdate (cfg : Config) (utcOffsetS : Int) (e : Engine) (nowMs : Int) : Engine :=
  match e.aggregator.lead cfg utcOffsetS nowMs with
  | none => { e with phase := .top }
  | some lead => { e with phase := .popQuote nowMs lead }

def ingestDeribit (cfg : Config) (utcOffsetS : Int) (e : Engine) (nowMs : Int) : Engine :=
  match e.deribitRing.pop with
  | (ring, some t) =>
    { e with deribitRing := ring, deribitSeen := record e.deribitSeen t
             aggregator := { e.aggregator with
               deribit := Aggregator.ingestTick e.aggregator.deribit nowMs t } }
  | (_, none) =>
    afterUpdate cfg utcOffsetS { e with
      aggregator := { e.aggregator with
        deribit := Aggregator.pruneOld e.aggregator.deribit nowMs } } nowMs

def evaluateQuote (cfg : Config) (e : Engine) (nowMs : Int) (lead : ℚ) (q : BrokerQuote) : Engine :=
  let d := (Strategy.evaluate cfg lead q).1
  match e.strategy.maybeEmit cfg d lead q nowMs with
  | (none, strategy) => { e with strategy := strategy, phase := .top }
  | (some signal, strategy) => { e with strategy := strategy, phase := .submit signal }

def popQuote (cfg : Config) (e : Engine) (nowMs : Int) (lead : ℚ) : Engine :=
  match e.brokerRing.pop with
  | (ring, some q) =>
    if q.isValid then evaluateQuote cfg { e with brokerRing := ring } nowMs lead q
    else { e with brokerRing := ring, phase := .top }
  | (_, none) => { e with phase := .top }

def strategyStep (cfg : Config) (utcOffsetS : Int) (e : Engine) : Option Engine :=
  match e.phase with
  | .top =>
    if e.shutdown then some { e with phase := .done }
    else some { e.readClock with phase := .ingestFast e.nowMs }
  | .ingestFast nowMs => some (e.ingestFast nowMs)
  | .ingestDeribit nowMs => some (e.ingestDeribit cfg utcOffsetS nowMs)
  | .popQuote nowMs lead => some (e.popQuote cfg nowMs lead)
  | .submit signal =>
    some { e with exec := { e.exec with queue := e.exec.queue ++ [signal] }
                  submitted := e.submitted ++ [signal], phase := .top }
  | .done => none

/-! ## The dispatcher's worker -/

def publishSignal (pub : List String) (s : Signal) : List String :=
  match encodeSignal s 320 with
  | none => pub
  | some frame => pub ++ [frame]

def workerStep (cfg : Config) (e : Engine) : Option Engine :=
  match e.exec.worker with
  | .idle =>
    if e.exec.stopped then none
    else
      match e.exec.queue with
      | [] => some e
      | s :: rest => some { e with exec := { e.exec with queue := rest, worker := .holding s } }
  | .holding s =>
    if !withinSlippageCap s then some { e with exec := { e.exec with worker := .idle } }
    else some { e with pub := publishSignal e.pub s, exec := { e.exec with worker := .published s } }
  | .published s =>
    some { e with fix := if cfg.fixEnabled then e.fix.sendOrder s else e.fix
                  exec := { e.exec with worker := .idle } }

/-! ## The machine -/

/-- The main thread's shutdown: it joins the strategy thread, then stops the dispatcher and joins
its worker, then stops the FIX client. -/
def strategyDone (e : Engine) : Bool :=
  match e.phase with
  | .done => true
  | _ => false

def workerExited (e : Engine) : Bool :=
  match e.exec.worker with
  | .idle => e.exec.stopped
  | _ => false

def step (cfg : Config) (utcOffsetS : Int) (e : Engine) : Action → Option Engine
  | .wait ms => some { e with sys := e.sys + ms }
  | .fastMessage bid ask =>
    some { e with fastRing := pushTick e.fastRing (fastTick cfg e.sys bid ask) }
  | .deribitMessage price =>
    some { e with deribitRing := pushTick e.deribitRing (deribitTick e.sys price) }
  | .brokerFrame q => some (e.brokerFrame q)
  | .strategy => e.strategyStep cfg utcOffsetS
  | .worker => e.workerStep cfg
  | .fix event =>
    (e.fix.step cfg e.nowMs event).map
      (fun fix => { (if event.readsClock then e.readClock else e) with fix := fix })
  | .shutdown => some { e with shutdown := true }
  | .stopExec =>
    if e.strategyDone then some { e with exec := { e.exec with stopped := true } } else none
  | .stopFix => if e.workerExited then some { e with fix := e.fix.stop } else none

/-- The engine of a process whose system clock shows `boot` when it starts: a clock that has been
set, for a tick stamped 0 counts as unstamped. -/
def machine (cfg : Config) (utcOffsetS : Int) (boot : ℕ+) : Machine Engine Action where
  init := { sys := boot }
  step := step cfg utcOffsetS

/-! ## What a step can do -/

inductive Moves (cfg : Config) (utcOffsetS : Int) (e : Engine) : Action → Engine → Prop where
  | wait (ms : Nat) : Moves cfg utcOffsetS e (.wait ms) { e with sys := e.sys + ms }
  | fastMessage (bid ask : ℚ) :
      Moves cfg utcOffsetS e (.fastMessage bid ask)
        { e with fastRing := pushTick e.fastRing (fastTick cfg e.sys bid ask) }
  | deribitMessage (price : ℚ) :
      Moves cfg utcOffsetS e (.deribitMessage price)
        { e with deribitRing := pushTick e.deribitRing (deribitTick e.sys price) }
  | brokerFrame (q : BrokerQuote) : Moves cfg utcOffsetS e (.brokerFrame q) (e.brokerFrame q)
  | leave (phase : e.phase = .top) : Moves cfg utcOffsetS e .strategy { e with phase := .done }
  | readClock (phase : e.phase = .top) :
      Moves cfg utcOffsetS e .strategy { e.readClock with phase := .ingestFast e.nowMs }
  | ingestFast (nowMs : Int) (phase : e.phase = .ingestFast nowMs) :
      Moves cfg utcOffsetS e .strategy (e.ingestFast nowMs)
  | ingestDeribit (nowMs : Int) (phase : e.phase = .ingestDeribit nowMs) :
      Moves cfg utcOffsetS e .strategy (e.ingestDeribit cfg utcOffsetS nowMs)
  | popQuote (nowMs : Int) (lead : ℚ) (phase : e.phase = .popQuote nowMs lead) :
      Moves cfg utcOffsetS e .strategy (e.popQuote cfg nowMs lead)
  | submit (signal : Signal) (phase : e.phase = .submit signal) :
      Moves cfg utcOffsetS e .strategy
        { e with exec := { e.exec with queue := e.exec.queue ++ [signal] }
                 submitted := e.submitted ++ [signal], phase := .top }
  | starve : Moves cfg utcOffsetS e .worker e
  | take (s : Signal) (rest : List Signal) (queue : e.exec.queue = s :: rest) :
      Moves cfg utcOffsetS e .worker
        { e with exec := { e.exec with queue := rest, worker := .holding s } }
  | drop (s : Signal) (worker : e.exec.worker = .holding s) (rejected : withinSlippageCap s = false) :
      Moves cfg utcOffsetS e .worker { e with exec := { e.exec with worker := .idle } }
  | publish (s : Signal) (worker : e.exec.worker = .holding s) (passed : withinSlippageCap s = true) :
      Moves cfg utcOffsetS e .worker
        { e with pub := publishSignal e.pub s, exec := { e.exec with worker := .published s } }
  | route (s : Signal) (worker : e.exec.worker = .published s) :
      Moves cfg utcOffsetS e .worker
        { e with fix := if cfg.fixEnabled then e.fix.sendOrder s else e.fix
                 exec := { e.exec with worker := .idle } }
  | session (event : FixEvent) (fix : FixClient) (step : e.fix.step cfg e.nowMs event = some fix) :
      Moves cfg utcOffsetS e (.fix event)
        { e with origin := if event.readsClock then some (e.origin.getD e.sys) else e.origin
                 fix := fix }
  | shutdown : Moves cfg utcOffsetS e .shutdown { e with shutdown := true }
  | stopExec : Moves cfg utcOffsetS e .stopExec { e with exec := { e.exec with stopped := true } }
  | stopFix : Moves cfg utcOffsetS e .stopFix { e with fix := e.fix.stop }

lemma strategyStep_moves {cfg : Config} {utcOffsetS : Int} {e e' : Engine}
    (hs : e.strategyStep cfg utcOffsetS = some e') : Moves cfg utcOffsetS e .strategy e' := by
  unfold strategyStep at hs
  split at hs
  · rename_i hphase
    split at hs <;> cases hs
    · exact .leave hphase
    · exact .readClock hphase
  · cases hs
    exact .ingestFast _ ‹_›
  · cases hs
    exact .ingestDeribit _ ‹_›
  · cases hs
    exact .popQuote _ _ ‹_›
  · cases hs
    exact .submit _ ‹_›
  · cases hs

lemma workerStep_moves {cfg : Config} {utcOffsetS : Int} {e e' : Engine}
    (hs : e.workerStep cfg = some e') : Moves cfg utcOffsetS e .worker e' := by
  unfold workerStep at hs
  split at hs
  · split at hs
    · cases hs
    · split at hs <;> cases hs
      · exact .starve
      · exact .take _ _ ‹_›
  · rename_i s hworker
    by_cases hpass : withinSlippageCap s = true
    · rw [if_neg (by simp [hpass])] at hs
      cases hs
      exact .publish s hworker hpass
    · rw [if_pos (by simp [hpass])] at hs
      cases hs
      exact .drop s hworker (by simpa using hpass)
  · cases hs
    exact .route _ ‹_›

theorem step_moves {cfg : Config} {utcOffsetS : Int} {e e' : Engine} {a : Action}
    (hs : e.step cfg utcOffsetS a = some e') : Moves cfg utcOffsetS e a e' := by
  cases a with
  | strategy => exact strategyStep_moves hs
  | worker => exact workerStep_moves hs
  | fix event =>
    obtain ⟨fix, hfix, rfl⟩ := Option.map_eq_some_iff.mp hs
    have heq : ({ (if event.readsClock then e.readClock else e) with fix := fix } : Engine) =
        { e with origin := if event.readsClock then some (e.origin.getD e.sys) else e.origin
                 fix := fix } := by
      cases event.readsClock <;> rfl
    rw [heq]
    exact .session event fix hfix
  | wait ms =>
    cases hs
    exact .wait ms
  | fastMessage bid ask =>
    cases hs
    exact .fastMessage bid ask
  | deribitMessage price =>
    cases hs
    exact .deribitMessage price
  | brokerFrame q =>
    cases hs
    exact .brokerFrame q
  | shutdown =>
    cases hs
    exact .shutdown
  | stopExec =>
    simp only [step] at hs
    split at hs <;> cases hs
    exact .stopExec
  | stopFix =>
    simp only [step] at hs
    split at hs <;> cases hs
    exact .stopFix

/-! ## The phases of an iteration in terms of the unread items -/

lemma pop_eq_of_cons {T : Type} {capacity : Nat} {ring : SpscRing T capacity} {item : T}
    {rest : List T} (h : ring.unread = item :: rest) : ring.pop = (ring.pop.1, some item) :=
  Prod.ext rfl (ring.pop_of_unread_cons h).2

lemma ingestFast_of_nil {e : Engine} (h : e.fastRing.unread = []) (nowMs : Int) :
    e.ingestFast nowMs = { e with
      phase := .ingestDeribit nowMs
      aggregator := { e.aggregator with
        binance := Aggregator.pruneOld e.aggregator.binance nowMs } } := by
  unfold ingestFast
  rw [SpscRing.pop_of_unread_nil _ h]

lemma ingestFast_of_cons {e : Engine} {t : Tick} {rest : List Tick}
    (h : e.fastRing.unread = t :: rest) (nowMs : Int) :
    e.ingestFast nowMs = { e with
      fastRing := e.fastRing.pop.1, fastSeen := record e.fastSeen t
      aggregator := { e.aggregator with
        binance := Aggregator.ingestTick e.aggregator.binance nowMs t } } := by
  unfold ingestFast
  rw [pop_eq_of_cons h]

lemma ingestDeribit_of_nil {e : Engine} (h : e.deribitRing.unread = []) (cfg : Config)
    (utcOffsetS nowMs : Int) :
    e.ingestDeribit cfg utcOffsetS nowMs = afterUpdate cfg utcOffsetS { e with
      aggregator := { e.aggregator with
        deribit := Aggregator.pruneOld e.aggregator.deribit nowMs } } nowMs := by
  unfold ingestDeribit
  rw [SpscRing.pop_of_unread_nil _ h]

lemma ingestDeribit_of_cons {e : Engine} {t : Tick} {rest : List Tick}
    (h : e.deribitRing.unread = t :: rest) (cfg : Config) (utcOffsetS nowMs : Int) :
    e.ingestDeribit cfg utcOffsetS nowMs = { e with
      deribitRing := e.deribitRing.pop.1, deribitSeen := record e.deribitSeen t
      aggregator := { e.aggregator with
        deribit := Aggregator.ingestTick e.aggregator.deribit nowMs t } } := by
  unfold ingestDeribit
  rw [pop_eq_of_cons h]

lemma popQuote_of_nil {e : Engine} (h : e.brokerRing.unread = []) (cfg : Config) (nowMs : Int)
    (lead : ℚ) : e.popQuote cfg nowMs lead = { e with phase := .top } := by
  unfold popQuote
  rw [SpscRing.pop_of_unread_nil _ h]

lemma popQuote_of_cons {e : Engine} {q : BrokerQuote} {rest : List BrokerQuote}
    (h : e.brokerRing.unread = q :: rest) (hq : q.isValid = true) (cfg : Config) (nowMs : Int)
    (lead : ℚ) :
    e.popQuote cfg nowMs lead =
      ({ e with brokerRing := e.brokerRing.pop.1 } : Engine).evaluateQuote cfg nowMs lead q := by
  unfold popQuote
  rw [pop_eq_of_cons h]
  exact if_pos hq

end Engine

end LatencyArb
