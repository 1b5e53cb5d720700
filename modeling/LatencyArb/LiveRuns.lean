import LatencyArb.OrderPath

/-!
# Orders in the runs of the live engine

Which runs submit a signal or write an order, decided by the configuration alone: the live
engine never reports an order to the strategy, so its risk gates stay as they are at the start.
-/

namespace LatencyArb

/-- The risk limits let a strategy without open orders and losses trade. -/
def Config.Tradable (cfg : Config) : Prop :=
  0 < cfg.maxOpenLots ∧ 0 < cfg.maxDailyLoss ∧ 0 < cfg.maxOrdersPerInterval

instance (cfg : Config) : Decidable cfg.Tradable := by
  unfold Config.Tradable
  infer_instance

namespace Strategy

def Untouched (s : Strategy) : Prop := s = { lastSignalMs := s.lastSignalMs }

lemma Untouched.stamp {s : Strategy} (h : s.Untouched) (ms : Int) :
    ({ s with lastSignalMs := ms } : Strategy).Untouched := by
  unfold Untouched at h ⊢
  rw [h]

lemma canTradeNow_iff_tradable {s : Strategy} (h : s.Untouched) (cfg : Config) (nowMs : Int) :
    s.canTradeNow cfg nowMs = true ↔ cfg.Tradable := by
  unfold Untouched at h
  rw [h]
  simp only [canTradeNow, intervalSpent, Config.Tradable, if_true]
  by_cases hl : cfg.maxOpenLots ≤ 0
  · simp [hl]
  · by_cases hp : (0 : ℚ) ≤ -cfg.maxDailyLoss
    · simp only [hl, hp, if_true, if_false, Bool.false_eq_true, false_iff]
      rintro ⟨-, hloss, -⟩
      linarith
    · simp only [hl, hp, if_false, Bool.false_eq_true, decide_eq_true_eq]
      constructor
      · exact fun ho => ⟨by omega, by linarith, ho⟩
      · exact fun ht => ht.2.2

end Strategy

namespace FixClient

/-- No order waits in the mailbox or in the batch, and only session messages were written. -/
structure NoOrder (c : FixClient) : Prop where
  orders : c.orders = []
  batch : ∀ batch, c.phase = .sending batch → batch = []
  written : ∀ w ∈ c.written, w.frame.IsSession

lemma NoOrder.close {c : FixClient} (h : c.NoOrder) : c.close.NoOrder :=
  ⟨h.orders, by simp [FixClient.close], h.written⟩

lemma NoOrder.stop {c : FixClient} (h : c.NoOrder) : c.stop.NoOrder :=
  ⟨h.orders, h.batch, h.written⟩

lemma NoOrder.sendFrame {c : FixClient} (h : c.NoOrder) (frame : FixFrame) (hf : frame.IsSession)
    (sent : Bool) : (c.sendFrame frame sent).1.NoOrder := by
  unfold FixClient.sendFrame
  split
  · exact h
  · refine ⟨h.orders, h.batch, ?_⟩
    intro w hw
    obtain hw | hw := List.mem_append.mp hw
    · exact h.written w hw
    · rw [List.mem_singleton.mp hw]
      exact hf

lemma NoOrder.beaten {c : FixClient} (h : c.NoOrder) (nowMs : Int) :
    ({ c with lastBeat := nowMs } : FixClient).NoOrder := ⟨h.orders, h.batch, h.written⟩

lemma NoOrder.timeoutCheck {c : FixClient} (h : c.NoOrder) (nowMs : Int) :
    (c.timeoutCheck nowMs).NoOrder := by
  unfold FixClient.timeoutCheck
  split
  · exact h.close
  · exact ⟨h.orders, by simp, h.written⟩

lemma NoOrder.startSession {c : FixClient} (h : c.NoOrder) (cfg : Config) (nowMs : Int) (sent : Bool)
    (sendingTime : String) : (c.startSession cfg nowMs sent sendingTime).NoOrder := by
  have hopened : ({ c with session := c.session + 1, fdOpen := true } : FixClient).NoOrder :=
    ⟨h.orders, h.batch, h.written⟩
  have hlogged := hopened.sendFrame (logon cfg c.seqOut sendingTime) (logon_isSession ..) sent
  unfold FixClient.startSession
  dsimp only
  split
  · exact ⟨hlogged.orders, by simp, hlogged.written⟩
  · exact hlogged.close

lemma NoOrder.sendHeartbeat {c : FixClient} (h : c.NoOrder) (cfg : Config) (nowMs : Int)
    (sent : Bool) (sendingTime : String) : (c.sendHeartbeat cfg nowMs sent sendingTime).NoOrder := by
  have hcounted : ({ c with seqOut := c.seqOut + 1 } : FixClient).NoOrder :=
    ⟨h.orders, h.batch, h.written⟩
  have hsent := hcounted.sendFrame (heartbeat cfg c.seqOut sendingTime) (heartbeat_isSession ..) sent
  unfold FixClient.sendHeartbeat
  dsimp only
  split
  · split
    · exact (hsent.beaten nowMs).timeoutCheck nowMs
    · exact hsent.close
  · exact h.timeoutCheck nowMs

/-- A session thread without orders stays without orders. -/
lemma step_noOrder (cfg : Config) (nowMs : Int) (c c' : FixClient) (event : FixEvent)
    (h : c.NoOrder) (hs : c.step cfg nowMs event = some c') : c'.NoOrder := by
  cases event with
  | attempt =>
    simp only [step] at hs
    split at hs
    · split at hs <;> cases hs
      exact ⟨h.orders, by simp, h.written⟩
    · cases hs
  | connectFailed =>
    simp only [step] at hs
    split at hs <;> cases hs
    exact h.close
  | connect sent sendingTime =>
    simp only [step] at hs
    split at hs <;> cases hs
    exact h.startSession cfg nowMs sent sendingTime
  | swap =>
    simp only [step] at hs
    split at hs
    · split at hs <;> cases hs
      · refine ⟨rfl, ?_, h.written⟩
        intro batch hb
        cases hb
        exact h.orders
      · exact h.close
    · cases hs
  | send sent sendingTime =>
    cases hp : c.phase with
    | sending batch =>
      obtain rfl := h.batch batch hp
      simp only [step, hp, Option.some.injEq] at hs
      subst hs
      exact ⟨h.orders, by simp, h.written⟩
    | _ => simp [step, hp] at hs
  | beat sent sendingTime =>
    simp only [step] at hs
    split at hs <;> cases hs
    exact h.sendHeartbeat cfg nowMs sent sendingTime

/-- A session thread with one order in its mailbox connects and writes the order. -/
lemma step_mailbox (cfg : Config) (nowMs : Int) (s : Signal) : ∃ c₁ c₂ c₃ c₄,
    step cfg nowMs { orders := [s] } .attempt = some c₁ ∧
      c₁.step cfg nowMs (.connect true "") = some c₂ ∧ c₂.step cfg nowMs .swap = some c₃ ∧
      c₃.step cfg nowMs (.send true "") = some c₄ ∧ ∃ w ∈ c₄.written, w.frame.IsNewOrder := by
  refine ⟨_, _, _, _, rfl, rfl, rfl, rfl, ⟨1, newOrderSingle cfg s 1 "", true⟩, ?_,
    newOrderSingle_isNewOrder ..⟩
  exact List.mem_cons_of_mem _ (List.mem_singleton_self _)

end FixClient

namespace Engine

variable {cfg : Config} {utcOffsetS : Int} {boot : ℕ+}

lemma reachable_untouched {e : Engine} (h : (machine cfg utcOffsetS boot).Reachable e) :
    e.strategy.Untouched := by
  refine Machine.invariant _ (I := fun e => e.strategy.Untouched) rfl ?_ h
  intro e a e' _ hI hstep
  obtain he | ⟨ms, he⟩ := (step_pathStep cfg utcOffsetS e e' a hstep).strategy_eq
  · rw [he]
    exact hI
  · rw [he]
    exact hI.stamp ms

/-- No signal anywhere between the strategy and the FIX client. -/
structure NoSignal (e : Engine) : Prop where
  phase : ∀ s, e.phase ≠ .submit s
  submitted : e.submitted = []
  queue : e.exec.queue = []
  worker : e.exec.worker = .idle

lemma step_noSignal (ht : ¬cfg.Tradable) {e e' : Engine} (hu : e.strategy.Untouched)
    (hn : e.NoSignal) (h : PathStep cfg e e') : e'.NoSignal := by
  have keep : (∀ s, e'.phase = .submit s → e.phase = .submit s) → e'.exec.queue = e.exec.queue →
      e'.exec.worker = e.exec.worker → e'.submitted = e.submitted → e'.NoSignal :=
    fun hp hq hw hs => ⟨fun s he => hn.phase s (hp s he), hs.trans hn.submitted,
      hq.trans hn.queue, hw.trans hn.worker⟩
  cases h with
  | other same phase => exact keep phase (by rw [same.exec]) (by rw [same.exec]) same.submitted
  | emit nowMs lead q d decided acts gate =>
    exact absurd ((Strategy.canTradeNow_iff_tradable hu cfg nowMs).mp gate) ht
  | submit s before => exact absurd before (hn.phase s)
  | take s rest queue => exact absurd (hn.queue.symm.trans queue) (by simp)
  | drop s worker => exact absurd (hn.worker.symm.trans worker) (by simp)
  | publish s worker => exact absurd (hn.worker.symm.trans worker) (by simp)
  | route s worker => exact absurd (hn.worker.symm.trans worker) (by simp)
  | session event fix phase strategy exec submitted =>
    exact keep (fun s he => phase ▸ he) (by rw [exec]) (by rw [exec]) submitted
  | stopExec phase strategy exec fix submitted =>
    exact keep (fun s he => phase ▸ he) (by rw [exec]) (by rw [exec]) submitted
  | stopFix phase strategy exec fix submitted =>
    exact keep (fun s he => phase ▸ he) (by rw [exec]) (by rw [exec]) submitted

lemma reachable_noSignal (ht : ¬cfg.Tradable) {e : Engine}
    (h : (machine cfg utcOffsetS boot).Reachable e) : e.NoSignal := by
  refine Machine.invariant _ (I := NoSignal) ⟨by simp [machine], rfl, rfl, rfl⟩ ?_ h
  intro e a e' hr hn hstep
  exact step_noSignal ht (reachable_untouched hr) hn (step_pathStep cfg utcOffsetS e e' a hstep)

lemma reachable_noOrder (hcfg : cfg.fixEnabled = false ∨ ¬cfg.Tradable) {e : Engine}
    (h : (machine cfg utcOffsetS boot).Reachable e) : e.fix.NoOrder := by
  refine Machine.invariant _ (I := fun e => e.fix.NoOrder)
    ⟨rfl, by simp [machine], by simp [machine]⟩ ?_ h
  intro e a e' hr hI hstep
  cases step_pathStep cfg utcOffsetS e e' a hstep with
  | other same phase => exact same.fix ▸ hI
  | route s worker phase strategy exec fix =>
    obtain hf | ht := hcfg
    · rw [fix, hf, if_neg Bool.false_ne_true]
      exact hI
    · exact absurd ((reachable_noSignal ht hr).worker.symm.trans worker) (by simp)
  | session event fix => exact FixClient.step_noOrder cfg e.nowMs e.fix e'.fix event hI fix
  | stopFix phase strategy exec fix => exact fix ▸ hI.stop
  | emit nowMs lead q d decided acts gate phase strategy exec fix => exact fix ▸ hI
  | submit s before phase strategy exec fix => exact fix ▸ hI
  | take s rest queue phase strategy exec fix => exact fix ▸ hI
  | drop s worker rejected phase strategy exec fix => exact fix ▸ hI
  | publish s worker passed phase strategy exec fix => exact fix ▸ hI
  | stopExec phase strategy exec fix => exact fix ▸ hI

/-! ## A run that submits a signal -/

variable (cfg utcOffsetS boot)

/-- An unspread quote at 1 and a whole price far enough above it to be a long decision. -/
def probeQuote : BrokerQuote := { bid := 1, ask := 1, valid := 1 }

def probePrice (cfg : Config) : ℤ :=
  max 1 (⌈1 + Strategy.dynamicThreshold cfg probeQuote⌉ + 1)

lemma round4_intCast (cfg : Config) (n : ℤ) : Strategy.round4 cfg n = n := by
  unfold Strategy.round4
  split
  · rfl
  · have hscale : (n : ℚ) * 10000 = ((n * 10000 : ℤ) : ℚ) := by push_cast; ring
    rw [hscale, roundAway_intCast]
    push_cast
    field_simp

lemma probePrice_gt (cfg : Config) :
    1 + Strategy.dynamicThreshold cfg probeQuote < probePrice cfg := by
  have hceil := Int.le_ceil (1 + Strategy.dynamicThreshold cfg probeQuote)
  have hmax : ((⌈1 + Strategy.dynamicThreshold cfg probeQuote⌉ + 1 : ℤ) : ℚ) ≤ probePrice cfg :=
    Int.cast_le.mpr (le_max_right _ _)
  push_cast at hmax
  linarith

lemma probePrice_pos (cfg : Config) : (0 : ℚ) < probePrice cfg := by
  have h : (1 : ℤ) ≤ probePrice cfg := le_max_left _ _
  exact_mod_cast Int.lt_of_lt_of_le Int.one_pos h

lemma evaluate_probe (cfg : Config) :
    (Strategy.evaluate cfg (probePrice cfg) probeQuote).1 = .long := by
  have hask : Strategy.round4 cfg 1 = 1 := by simpa using round4_intCast cfg 1
  simp only [Strategy.evaluate, round4_intCast, probeQuote, hask]
  rw [if_pos]
  simpa [probeQuote] using probePrice_gt cfg

lemma signalOf_probe_passes (cfg : Config) (nowMs : Int) :
    withinSlippageCap (Strategy.signalOf cfg .long (probePrice cfg) probeQuote nowMs) = true := by
  have hask : Strategy.round4 cfg 1 = 1 := by simpa using round4_intCast cfg 1
  have hprice := probePrice_gt cfg
  simp only [withinSlippageCap, Strategy.signalOf, Strategy.evaluate_threshold, if_true, decide_eq_true_eq]
  right
  simp only [round4_intCast, probeQuote, hask] at hprice ⊢
  linarith

/-- The strategy thread at the top of its loop with nothing unread, and a time of the last signal
that the clock has reached. -/
structure Ready (e : Engine) : Prop where
  phase : e.phase = .top
  running : e.shutdown = false
  fast : e.fastRing.unread = []
  deribit : e.deribitRing.unread = []
  broker : e.brokerRing.unread = []
  window : e.aggregator.deribit = []
  risk : e.strategy.Untouched
  clock : 0 ≤ e.origin.getD e.sys
  signal : e.strategy.lastSignalMs = 0 ∨
    ∃ o, e.origin = some o ∧ e.strategy.lastSignalMs ≤ e.sys - o

lemma init_ready : (machine cfg utcOffsetS boot).init.Ready := by
  refine ⟨rfl, rfl, SpscRing.init_unread _, SpscRing.init_unread _, SpscRing.init_unread _, rfl, rfl,
    ?_, .inl rfl⟩
  simp [machine]

lemma lead_of_empty_deribit (agg : Aggregator) {t : Tick} (hd : agg.deribit = [])
    (ht : agg.binance.getLast? = some t) (hmid : 0 < t.mid) (cfg : Config) (utcOffsetS nowMs : Int) :
    agg.lead cfg utcOffsetS nowMs = some t.mid := by
  have hb : Aggregator.latestMid agg.binance = t.mid := by rw [Aggregator.latestMid, ht]
  have hz : Aggregator.latestMid agg.deribit = 0 := by rw [hd]; rfl
  simp only [Aggregator.lead, hb, hz]
  rw [if_neg (fun h => absurd h.1 (not_le.mpr hmid)), if_neg (not_le.mpr hmid), if_pos le_rfl]

lemma evaluateQuote_of_emit {e : Engine} {nowMs : Int} {lead : ℚ} {q : BrokerQuote} {d : Decision}
    {signal : Signal} {strategy : Strategy} (hd : (Strategy.evaluate cfg lead q).1 = d)
    (hemit : e.strategy.maybeEmit cfg d lead q nowMs = (some signal, strategy)) :
    e.evaluateQuote cfg nowMs lead q = { e with strategy := strategy, phase := .submit signal } := by
  unfold evaluateQuote
  rw [hd]
  dsimp only
  rw [hemit]

/-- One iteration over a single fresh tick and a single quote that it beats: every gate is open, so
the signal is stamped and submitted. -/
lemma iteration_emits {e : Engine} {t : Tick} {q : BrokerQuote} {d : Decision}
    (hphase : e.phase = .top) (hrunning : e.shutdown = false) (hfast : e.fastRing.unread = [t])
    (hvalid : t.isValid = true) (hfresh : Aggregator.isStale e.nowMs t = false) (hmid : 0 < t.mid)
    (hdr : e.deribitRing.unread = []) (hwindow : e.aggregator.deribit = [])
    (hbroker : e.brokerRing.unread = [q]) (hq : q.isValid = true)
    (hdecision : (Strategy.evaluate cfg t.mid q).1 = d) (hacts : d ≠ .hold)
    (hgate : e.strategy.canTradeNow cfg e.nowMs = true)
    (hcool : ¬(e.strategy.lastSignalMs ≠ 0 ∧
      e.nowMs - e.strategy.lastSignalMs < cfg.intervalSeconds * 1000)) :
    ∃ window, (machine cfg utcOffsetS boot).run e (List.replicate 6 .strategy) = some { e with
      origin := some (e.origin.getD e.sys)
      fastRing := e.fastRing.pop.1, fastSeen := record e.fastSeen t
      aggregator := { binance := window, deribit := [] }
      brokerRing := e.brokerRing.pop.1
      strategy := { e.strategy with lastSignalMs := e.nowMs }
      exec := { e.exec with
        queue := e.exec.queue ++ [Strategy.signalOf cfg d t.mid q e.nowMs] }
      submitted := e.submitted ++ [Strategy.signalOf cfg d t.mid q e.nowMs]
      phase := .top } := by
  set now := e.nowMs with hnow
  have hin : Aggregator.ingestTick e.aggregator.binance now t = e.aggregator.binance ++ [t] := by
    simp [Aggregator.ingestTick, hvalid, hfresh]
  have hlast := Aggregator.pruneOld_getLast (e.aggregator.binance ++ [t]) now t
    List.getLast?_concat hfresh
  have hemit : e.strategy.maybeEmit cfg d t.mid q now =
      (some (Strategy.signalOf cfg d t.mid q now), { e.strategy with lastSignalMs := now }) := by
    rw [Strategy.maybeEmit, if_neg hacts, if_neg (by simp [hgate]), if_neg hcool]
  have hpopped := (e.fastRing.pop_of_unread_cons hfast).1
  let e₁ : Engine := { e.readClock with phase := .ingestFast now }
  let e₂ : Engine := { e₁ with
    fastRing := e.fastRing.pop.1, fastSeen := record e.fastSeen t
    aggregator := { e.aggregator with binance := e.aggregator.binance ++ [t] } }
  let e₃ : Engine := { e₂ with
    phase := .ingestDeribit now
    aggregator := { e.aggregator with
      binance := Aggregator.pruneOld (e.aggregator.binance ++ [t]) now } }
  let e₄ : Engine := { e₃ with
    phase := .popQuote now t.mid
    aggregator := { e₃.aggregator with deribit := [] } }
  let e₅ : Engine := { e₄ with
    brokerRing := e.brokerRing.pop.1
    strategy := { e.strategy with lastSignalMs := now }
    phase := .submit (Strategy.signalOf cfg d t.mid q now) }
  have h₁ : e.strategyStep cfg utcOffsetS = some e₁ := by
    unfold strategyStep
    rw [hphase, hrunning]
    rfl
  have h₂ : e₁.strategyStep cfg utcOffsetS = some e₂ := by
    have hcons : e₁.fastRing.unread = [t] := hfast
    refine congrArg some ((ingestFast_of_cons hcons now).trans ?_)
    rw [show Aggregator.ingestTick e₁.aggregator.binance now t = _ from hin]
    rfl
  have h₃ : e₂.strategyStep cfg utcOffsetS = some e₃ :=
    congrArg some (ingestFast_of_nil (e := e₂) hpopped now)
  have h₄ : e₃.strategyStep cfg utcOffsetS = some e₄ := by
    have hnil : e₃.deribitRing.unread = [] := hdr
    have hprune : Aggregator.pruneOld e₃.aggregator.deribit now = [] := by
      rw [show e₃.aggregator.deribit = [] from hwindow]
      rfl
    have hlead := lead_of_empty_deribit e₄.aggregator rfl hlast hmid cfg utcOffsetS now
    refine congrArg some ((ingestDeribit_of_nil hnil cfg utcOffsetS now).trans ?_)
    rw [hprune]
    unfold afterUpdate
    rw [hlead]
  have h₅ : e₄.strategyStep cfg utcOffsetS = some e₅ := by
    have hcons : e₄.brokerRing.unread = [q] := hbroker
    exact congrArg some ((popQuote_of_cons hcons hq cfg now t.mid).trans
      (evaluateQuote_of_emit cfg hdecision hemit))
  refine ⟨Aggregator.pruneOld (e.aggregator.binance ++ [t]) now, ?_⟩
  simp only [List.replicate, Machine.run_cons, Machine.run_nil, machine, step, h₁, h₂, h₃, h₄, h₅,
    Option.bind_some]
  rfl

/-- A pause as long as the cooldown, one message and one quote, then one iteration. -/
def probe (cfg : Config) : List Action :=
  [Action.wait (cfg.intervalSeconds.toNat * 1000), .fastMessage (probePrice cfg) (probePrice cfg),
   .brokerFrame probeQuote] ++ List.replicate 6 .strategy

lemma fastTick_probe (cfg : Config) (sys : Int) : ∃ t,
    fastTick cfg sys (probePrice cfg) (probePrice cfg) = some t ∧ t.tsMs = sys ∧
      t.isValid = true ∧ t.mid = (probePrice cfg : ℚ) := by
  have hpos := probePrice_pos cfg
  have hmid : ((probePrice cfg : ℚ) + probePrice cfg) * (1 / 2) = probePrice cfg := by ring
  unfold fastTick
  split
  · refine ⟨_, if_neg (by simpa using hpos), rfl, rfl, ?_⟩
    simp only [Tick.mid, hpos, and_self, if_true, hmid]
  · refine ⟨_, rfl, rfl, rfl, ?_⟩
    simp only [Tick.mid, binanceTick, hpos, and_self, if_true, hmid]

lemma push_unread_of_nil {T : Type} {ring : SpscRing T 8192} (h : ring.unread = []) (item : T) :
    (ring.push item).1.unread = [item] := by
  have hcount : ring.count = 0 := by rw [← SpscRing.unread_length, h, List.length_nil]
  rw [(ring.push_unread item (by omega)).1, h, List.nil_append]

/-- The probe makes a tradable engine submit a signal that the dispatcher will let pass. -/
lemma probe_submits (ht : cfg.Tradable) {e : Engine} (h : e.Ready) : ∃ s e',
    (machine cfg utcOffsetS boot).run e (probe cfg) = some e' ∧ e'.Ready ∧
      withinSlippageCap s = true ∧ e'.submitted = e.submitted ++ [s] ∧
      e'.exec = { e.exec with queue := e.exec.queue ++ [s] } ∧ e'.fix = e.fix := by
  obtain ⟨t, hmessage, hts, hvalid, hmid⟩ :=
    fastTick_probe cfg (e.sys + (cfg.intervalSeconds.toNat * 1000 : Nat))
  let a : Engine := { e with
    sys := e.sys + (cfg.intervalSeconds.toNat * 1000 : Nat)
    fastRing := (e.fastRing.push t).1
    brokerRing := (e.brokerRing.push probeQuote).1
    quotes := e.quotes ++ [probeQuote] }
  have harrive : (machine cfg utcOffsetS boot).run e
      [.wait (cfg.intervalSeconds.toNat * 1000), .fastMessage (probePrice cfg) (probePrice cfg),
       .brokerFrame probeQuote] = some a := by
    have hquote : 0 < probeQuote.bid ∧ 0 < probeQuote.ask ∧ probeQuote.bid ≤ probeQuote.ask := by
      simp [probeQuote]
    simp only [Machine.run_cons, Machine.run_nil, machine, step, Option.bind_some, hmessage, pushTick,
      brokerFrame, if_pos hquote]
    rfl
  have hfast : a.fastRing.unread = [t] := push_unread_of_nil h.fast t
  have hbroker : a.brokerRing.unread = [probeQuote] := push_unread_of_nil h.broker probeQuote
  have hclock : 0 ≤ a.origin.getD a.sys := by
    have hc := h.clock
    cases ho : e.origin with
    | none =>
      simp only [ho, Option.getD_none] at hc
      simp only [a, Option.getD_none]
      omega
    | some o => simpa only [a, ho, Option.getD_some] using hc
  have hfresh : Aggregator.isStale a.nowMs t = false := by
    simp only [Aggregator.isStale, CompileTime.kMaxTickAgeMs, nowMs, hts, decide_eq_false_iff_not]
    intro hstale
    have hold := hstale.2
    simp only [a] at hold hclock
    omega
  have hcool : ¬(a.strategy.lastSignalMs ≠ 0 ∧
      a.nowMs - a.strategy.lastSignalMs < cfg.intervalSeconds * 1000) := by
    rintro ⟨hne, hlt⟩
    obtain hz | ⟨o, ho, hle⟩ := h.signal
    · exact hne hz
    · simp only [a, nowMs, ho, Option.getD_some] at hlt
      omega
  have hdecision : (Strategy.evaluate cfg t.mid probeQuote).1 = .long := hmid ▸ evaluate_probe cfg
  have hphase : a.phase = .top := h.phase
  obtain ⟨window, hrun⟩ := iteration_emits cfg utcOffsetS boot hphase h.running hfast hvalid hfresh
    (hmid ▸ probePrice_pos cfg) h.deribit h.window hbroker (by simp [probeQuote, BrokerQuote.isValid])
    hdecision (by decide) ((Strategy.canTradeNow_iff_tradable h.risk cfg a.nowMs).mpr ht) hcool
  refine ⟨_, _, Machine.run_trans _ harrive hrun, ?_, ?_, rfl, rfl, rfl⟩
  · exact ⟨rfl, h.running, (a.fastRing.pop_of_unread_cons hfast).1, h.deribit,
      (a.brokerRing.pop_of_unread_cons hbroker).1, rfl, h.risk.stamp _, hclock, .inr ⟨_, rfl, le_rfl⟩⟩
  · exact hmid ▸ signalOf_probe_passes cfg a.nowMs

/-! ## Dry runs that write an order -/

/-- The worker takes the signal, publishes it and routes it. -/
def routing : List Action := [.worker, .worker, .worker]

/-- The session thread connects, swaps the mailbox and writes the order. -/
def writing : List Action :=
  [.fix .attempt, .fix (.connect true ""), .fix .swap, .fix (.send true "")]

lemma routing_runs (hfix : cfg.fixEnabled = true) {e : Engine} {s : Signal}
    (hexec : e.exec = { queue := [s] }) (hpass : withinSlippageCap s = true) (hclient : e.fix = {}) :
    ∃ e', (machine cfg utcOffsetS boot).run e routing = some e' ∧ e'.fix = { orders := [s] } := by
  let e₁ : Engine := { e with exec := { worker := .holding s } }
  let e₂ : Engine := { e with exec := { worker := .published s }, pub := publishSignal e.pub s }
  let e₃ : Engine := { e₂ with exec := {}, fix := { orders := [s] } }
  have h₁ : e.workerStep cfg = some e₁ := by
    unfold workerStep
    rw [hexec]
    rfl
  have h₂ : e₁.workerStep cfg = some e₂ := by
    unfold workerStep
    simp only [e₁, hpass]
    rfl
  have h₃ : e₂.workerStep cfg = some e₃ := by
    unfold workerStep
    simp only [e₂, e₃, hfix, hclient, if_true]
    rfl
  refine ⟨e₃, ?_, rfl⟩
  simp only [routing, Machine.run_cons, Machine.run_nil, machine, step, h₁, h₂, h₃, Option.bind_some]

lemma step_fix {e : Engine} {event : FixEvent} {c : FixClient}
    (h : e.fix.step cfg e.nowMs event = some c) :
    ∃ o, (machine cfg utcOffsetS boot).step e (.fix event) = some { e with origin := o, fix := c } ∧
      ({ e with origin := o, fix := c } : Engine).nowMs = e.nowMs := by
  refine ⟨if event.readsClock then some (e.origin.getD e.sys) else e.origin, ?_, ?_⟩
  · simp only [machine, step, h, Option.map_some]
    cases event.readsClock <;> rfl
  · cases event.readsClock <;> rfl

lemma writing_runs {e : Engine} {s : Signal} (hclient : e.fix = { orders := [s] }) :
    ∃ e', (machine cfg utcOffsetS boot).run e writing = some e' ∧
      ∃ w ∈ e'.fix.written, w.frame.IsNewOrder := by
  obtain ⟨c₁, c₂, c₃, c₄, hs₁, hs₂, hs₃, hs₄, w, hw, hnew⟩ := FixClient.step_mailbox cfg e.nowMs s
  rw [← hclient] at hs₁
  obtain ⟨o₁, h₁, hn₁⟩ := step_fix cfg utcOffsetS boot hs₁
  rw [← hn₁] at hs₂ hs₃ hs₄
  obtain ⟨o₂, h₂, hn₂⟩ := step_fix cfg utcOffsetS boot
    (e := { e with origin := o₁, fix := c₁ }) hs₂
  rw [← hn₂] at hs₃ hs₄
  obtain ⟨o₃, h₃, hn₃⟩ := step_fix cfg utcOffsetS boot
    (e := { e with origin := o₂, fix := c₂ }) hs₃
  rw [← hn₃] at hs₄
  obtain ⟨o₄, h₄, -⟩ := step_fix cfg utcOffsetS boot
    (e := { e with origin := o₃, fix := c₃ }) hs₄
  refine ⟨{ e with origin := o₄, fix := c₄ }, ?_, w, hw, hnew⟩
  simp only [writing, Machine.run_cons, Machine.run_nil, h₁, h₂, h₃, h₄, Option.bind_some]

/-- A dry run writes only session messages, in every run, exactly when FIX is disabled or the
risk limits forbid every order: nothing on the path to the socket consults `dry_run`. -/
theorem dryRun_writes_only_session_iff (cfg : Config) (utcOffsetS : Int) (boot : ℕ+)
    (_ : cfg.dryRun = true) :
    (∀ e, (machine cfg utcOffsetS boot).Reachable e → ∀ w ∈ e.fix.written, w.frame.IsSession) ↔
      cfg.fixEnabled = false ∨ ¬cfg.Tradable := by
  constructor
  · intro h
    by_contra hcfg
    obtain ⟨hfix, ht⟩ : cfg.fixEnabled = true ∧ cfg.Tradable := by simpa using hcfg
    obtain ⟨s, e, hrun, -, hpass, -, hexec, hclient⟩ :=
      probe_submits cfg utcOffsetS boot ht (init_ready cfg utcOffsetS boot)
    obtain ⟨e', hroute, hmailbox⟩ := routing_runs cfg utcOffsetS boot hfix hexec hpass hclient
    obtain ⟨e'', hwrite, w, hw, hnew⟩ := writing_runs cfg utcOffsetS boot hmailbox
    have hreach := Machine.run_trans _ (Machine.run_trans _ hrun hroute) hwrite
    exact hnew.not_isSession (h e'' ⟨_, hreach⟩ w hw)
  · intro hcfg e he
    exact (reachable_noOrder hcfg he).written

theorem dryRun_writes_only_session_default :
    ({} : Config).dryRun = true ∧
      ∀ e, (machine {} 0 1000).Reachable e → ∀ w ∈ e.fix.written, w.frame.IsSession :=
  ⟨rfl, (dryRun_writes_only_session_iff {} 0 1000 rfl).mpr (.inl rfl)⟩

/-- One message and one quote that it beats, then one iteration. -/
def opportunity : List Action :=
  [Action.fastMessage 102 102, .brokerFrame { bid := 99, ask := 100, spread := 1, valid := 1 }] ++
    List.replicate 6 .strategy

/-- A dry run with FIX enabled: after its Logon the engine writes a `35=D` frame. -/
theorem dryRun_writes_order :
    ({ fixEnabled := true } : Config).dryRun = true ∧
      ((machine { fixEnabled := true } 0 1000).run (machine { fixEnabled := true } 0 1000).init
        (opportunity ++ routing ++ writing)).map
          (fun e => e.fix.written.map (fun w => w.frame.value 35)) = some [some "A", some "D"] := by
  decide +kernel

/-! ## Open lots -/

/-- The signals handed to the dispatcher and not reported closed: the engine has no call of
`on_order_closed`, so these are all that were ever submitted. -/
def outstanding (e : Engine) : Int := e.submitted.length

def probes (cfg : Config) (n : Nat) : List Action := (List.replicate n (probe cfg)).flatten

lemma probes_submit (ht : cfg.Tradable) (n : Nat) : ∃ e,
    (machine cfg utcOffsetS boot).run (machine cfg utcOffsetS boot).init (probes cfg n) = some e ∧
      e.Ready ∧ e.outstanding = n := by
  induction n with
  | zero => exact ⟨_, rfl, init_ready cfg utcOffsetS boot, rfl⟩
  | succ n ih =>
    obtain ⟨e, hrun, hready, hcount⟩ := ih
    obtain ⟨s, e', hrun', hready', -, hsub, -, -⟩ := probe_submits cfg utcOffsetS boot ht hready
    refine ⟨e', ?_, hready', ?_⟩
    · rw [probes, List.replicate_succ', List.flatten_concat]
      exact Machine.run_trans _ hrun hrun'
    · unfold outstanding at hcount ⊢
      rw [hsub, List.length_append, List.length_singleton, Nat.cast_add, hcount]
      rfl

/-- The lot cap bounds the outstanding signals in every run exactly when the cap is not negative and
the risk limits forbid every signal: the gate never sees a lot as taken. -/
theorem outstanding_le_maxOpenLots_iff (cfg : Config) (utcOffsetS : Int) (boot : ℕ+) :
    (∀ e, (machine cfg utcOffsetS boot).Reachable e → e.outstanding ≤ cfg.maxOpenLots) ↔
      0 ≤ cfg.maxOpenLots ∧ ¬cfg.Tradable := by
  constructor
  · intro h
    have hinit : (0 : Int) ≤ cfg.maxOpenLots := h _ ⟨[], rfl⟩
    refine ⟨hinit, ?_⟩
    intro ht
    obtain ⟨e, hrun, -, hcount⟩ := probes_submit cfg utcOffsetS boot ht (cfg.maxOpenLots.toNat + 1)
    have hle := h e ⟨_, hrun⟩
    omega
  · rintro ⟨hcap, ht⟩ e he
    rw [outstanding, (reachable_noSignal ht he).submitted]
    exact hcap

/-- Two opportunities a minute apart and a cap of one lot: both signals are handed over. -/
theorem outstanding_exceeds_maxOpenLots :
    ((machine {} 0 1000).run (machine {} 0 1000).init
      (opportunity ++ [Action.wait 60000] ++ opportunity)).map outstanding = some 2 ∧
    ({} : Config).maxOpenLots = 1 := by
  decide +kernel

end Engine

end LatencyArb
