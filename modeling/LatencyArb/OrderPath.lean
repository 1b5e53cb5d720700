import LatencyArb.Engine

/-!
# The path of an order through the engine

`PathStep` says once what one step of the engine can do to the risk state, the dispatcher, the
FIX client and the count of submitted signals; the results about orders are read off it.
-/

namespace LatencyArb

namespace Engine

/-- Nothing between the strategy and the FIX socket changes. -/
structure SamePath (e e' : Engine) : Prop where
  strategy : e'.strategy = e.strategy
  exec : e'.exec = e.exec
  fix : e'.fix = e.fix
  submitted : e'.submitted = e.submitted

/-- The steps of the engine as the order path sees them. -/
inductive PathStep (cfg : Config) (e e' : Engine) : Prop where
  | other (same : SamePath e e') (phase : ∀ s, e'.phase = .submit s → e.phase = .submit s)
  | emit (nowMs : Int) (lead : ℚ) (q : BrokerQuote) (d : Decision)
      (decided : d = (Strategy.evaluate cfg lead q).1) (acts : d ≠ .hold)
      (gate : e.strategy.canTradeNow cfg nowMs = true)
      (phase : e'.phase = .submit (Strategy.signalOf cfg d lead q nowMs))
      (strategy : e'.strategy = { e.strategy with lastSignalMs := nowMs })
      (exec : e'.exec = e.exec) (fix : e'.fix = e.fix) (submitted : e'.submitted = e.submitted)
  | submit (s : Signal) (before : e.phase = .submit s) (phase : e'.phase = .top)
      (strategy : e'.strategy = e.strategy)
      (exec : e'.exec = { e.exec with queue := e.exec.queue ++ [s] }) (fix : e'.fix = e.fix)
      (submitted : e'.submitted = e.submitted ++ [s])
  | take (s : Signal) (rest : List Signal) (queue : e.exec.queue = s :: rest)
      (phase : e'.phase = e.phase) (strategy : e'.strategy = e.strategy)
      (exec : e'.exec = { e.exec with queue := rest, worker := .holding s })
      (fix : e'.fix = e.fix) (submitted : e'.submitted = e.submitted)
  | drop (s : Signal) (worker : e.exec.worker = .holding s) (rejected : withinSlippageCap s = false)
      (phase : e'.phase = e.phase) (strategy : e'.strategy = e.strategy)
      (exec : e'.exec = { e.exec with worker := .idle }) (fix : e'.fix = e.fix)
      (submitted : e'.submitted = e.submitted)
  | publish (s : Signal) (worker : e.exec.worker = .holding s) (passed : withinSlippageCap s = true)
      (phase : e'.phase = e.phase) (strategy : e'.strategy = e.strategy)
      (exec : e'.exec = { e.exec with worker := .published s }) (fix : e'.fix = e.fix)
      (submitted : e'.submitted = e.submitted)
  | route (s : Signal) (worker : e.exec.worker = .published s) (phase : e'.phase = e.phase)
      (strategy : e'.strategy = e.strategy) (exec : e'.exec = { e.exec with worker := .idle })
      (fix : e'.fix = if cfg.fixEnabled then e.fix.sendOrder s else e.fix)
      (submitted : e'.submitted = e.submitted)
  | session (event : FixEvent) (fix : e.fix.step cfg e.nowMs event = some e'.fix)
      (phase : e'.phase = e.phase) (strategy : e'.strategy = e.strategy) (exec : e'.exec = e.exec)
      (submitted : e'.submitted = e.submitted)
  | stopExec (phase : e'.phase = e.phase) (strategy : e'.strategy = e.strategy)
      (exec : e'.exec = { e.exec with stopped := true }) (fix : e'.fix = e.fix)
      (submitted : e'.submitted = e.submitted)
  | stopFix (phase : e'.phase = e.phase) (strategy : e'.strategy = e.strategy)
      (exec : e'.exec = e.exec) (fix : e'.fix = e.fix.stop) (submitted : e'.submitted = e.submitted)

lemma PathStep.strategy_eq {cfg : Config} {e e' : Engine} (h : PathStep cfg e e') :
    e'.strategy = e.strategy ∨ ∃ ms, e'.strategy = { e.strategy with lastSignalMs := ms } := by
  cases h with
  | other same phase => exact .inl same.strategy
  | emit nowMs lead q d decided acts gate phase strategy => exact .inr ⟨nowMs, strategy⟩
  | _ => exact .inl ‹_›

lemma afterUpdate_samePath (cfg : Config) (utcOffsetS : Int) (e : Engine) (nowMs : Int) :
    SamePath e (e.afterUpdate cfg utcOffsetS nowMs) ∧
      ∀ s, (e.afterUpdate cfg utcOffsetS nowMs).phase ≠ .submit s := by
  unfold afterUpdate
  split
  · exact ⟨⟨rfl, rfl, rfl, rfl⟩, by simp⟩
  · exact ⟨⟨rfl, rfl, rfl, rfl⟩, by simp⟩

lemma ingestFast_samePath (e : Engine) (nowMs : Int) :
    SamePath e (e.ingestFast nowMs) ∧
      ∀ s, (e.ingestFast nowMs).phase = .submit s → e.phase = .submit s := by
  unfold ingestFast
  split
  · exact ⟨⟨rfl, rfl, rfl, rfl⟩, fun _ h => h⟩
  · exact ⟨⟨rfl, rfl, rfl, rfl⟩, by simp⟩

lemma ingestDeribit_samePath (cfg : Config) (utcOffsetS : Int) (e : Engine) (nowMs : Int) :
    SamePath e (e.ingestDeribit cfg utcOffsetS nowMs) ∧
      ∀ s, (e.ingestDeribit cfg utcOffsetS nowMs).phase = .submit s → e.phase = .submit s := by
  unfold ingestDeribit
  split
  · exact ⟨⟨rfl, rfl, rfl, rfl⟩, fun _ h => h⟩
  · obtain ⟨hsame, hphase⟩ := afterUpdate_samePath cfg utcOffsetS
      { e with aggregator := { e.aggregator with
        deribit := Aggregator.pruneOld e.aggregator.deribit nowMs } } nowMs
    exact ⟨⟨hsame.1, hsame.2, hsame.3, hsame.4⟩, fun s h => absurd h (hphase s)⟩

lemma evaluateQuote_pathStep (cfg : Config) (e : Engine) (ring : QuoteRing) (nowMs : Int) (lead : ℚ)
    (q : BrokerQuote) :
    PathStep cfg e (({ e with brokerRing := ring } : Engine).evaluateQuote cfg nowMs lead q) := by
  unfold evaluateQuote
  dsimp only
  obtain he | ⟨hd, ht, he⟩ :=
    e.strategy.maybeEmit_cases cfg (Strategy.evaluate cfg lead q).1 lead q nowMs
  · rw [he]
    exact .other ⟨rfl, rfl, rfl, rfl⟩ (by simp)
  · rw [he]
    exact .emit nowMs lead q _ rfl hd ht rfl rfl rfl rfl rfl

lemma popQuote_pathStep (cfg : Config) (e : Engine) (nowMs : Int) (lead : ℚ) :
    PathStep cfg e (e.popQuote cfg nowMs lead) := by
  unfold popQuote
  split
  · split
    · exact evaluateQuote_pathStep ..
    · exact .other ⟨rfl, rfl, rfl, rfl⟩ (by simp)
  · exact .other ⟨rfl, rfl, rfl, rfl⟩ (by simp)

/-- Every step of the engine is one of the listed steps of the order path. -/
theorem step_pathStep (cfg : Config) (utcOffsetS : Int) (e e' : Engine) (a : Action)
    (h : e.step cfg utcOffsetS a = some e') : PathStep cfg e e' := by
  cases step_moves h with
  | wait ms => exact .other ⟨rfl, rfl, rfl, rfl⟩ (fun _ hs => hs)
  | fastMessage bid ask => exact .other ⟨rfl, rfl, rfl, rfl⟩ (fun _ hs => hs)
  | deribitMessage price => exact .other ⟨rfl, rfl, rfl, rfl⟩ (fun _ hs => hs)
  | brokerFrame q =>
    unfold brokerFrame
    split
    · exact .other ⟨rfl, rfl, rfl, rfl⟩ (fun _ hs => hs)
    · exact .other ⟨rfl, rfl, rfl, rfl⟩ (fun _ hs => hs)
  | leave phase => exact .other ⟨rfl, rfl, rfl, rfl⟩ (by simp)
  | readClock phase => exact .other ⟨rfl, rfl, rfl, rfl⟩ (by simp)
  | ingestFast nowMs phase =>
    obtain ⟨hsame, hphase⟩ := e.ingestFast_samePath nowMs
    exact .other hsame hphase
  | ingestDeribit nowMs phase =>
    obtain ⟨hsame, hphase⟩ := e.ingestDeribit_samePath cfg utcOffsetS nowMs
    exact .other hsame hphase
  | popQuote nowMs lead phase => exact popQuote_pathStep cfg e nowMs lead
  | submit signal phase => exact .submit signal phase rfl rfl rfl rfl rfl
  | starve => exact .other ⟨rfl, rfl, rfl, rfl⟩ (fun _ hs => hs)
  | take s rest queue => exact .take s rest queue rfl rfl rfl rfl rfl
  | drop s worker rejected => exact .drop s worker rejected rfl rfl rfl rfl rfl
  | publish s worker passed => exact .publish s worker passed rfl rfl rfl rfl rfl
  | route s worker => exact .route s worker rfl rfl rfl rfl rfl
  | session event fix hstep => exact .session event hstep rfl rfl rfl rfl
  | shutdown => exact .other ⟨rfl, rfl, rfl, rfl⟩ (fun _ hs => hs)
  | stopExec => exact .stopExec rfl rfl rfl rfl rfl
  | stopFix => exact .stopFix rfl rfl rfl rfl rfl

/-! ## Signals on their way -/

/-- Every signal between the strategy and the FIX client has the property. -/
structure EnRoute (P : Signal → Prop) (e : Engine) : Prop where
  phase : ∀ s, e.phase = .submit s → P s
  queue : ∀ s ∈ e.exec.queue, P s
  holding : ∀ s, e.exec.worker = .holding s → P s
  published : ∀ s, e.exec.worker = .published s → P s

variable {cfg : Config} {P : Signal → Prop}

lemma step_enRoute {e e' : Engine}
    (hemit : ∀ d lead q nowMs, d = (Strategy.evaluate cfg lead q).1 → d ≠ .hold →
      P (Strategy.signalOf cfg d lead q nowMs))
    (h : e.EnRoute P) (hstep : PathStep cfg e e') : e'.EnRoute P := by
  cases hstep with
  | other same phase =>
    refine ⟨fun s hs => h.phase s (phase s hs), ?_, ?_, ?_⟩
    · exact same.exec ▸ h.queue
    · exact same.exec ▸ h.holding
    · exact same.exec ▸ h.published
  | emit nowMs lead q d decided acts gate phase strategy exec =>
    refine ⟨?_, exec ▸ h.queue, exec ▸ h.holding, exec ▸ h.published⟩
    intro s hs
    rw [phase] at hs
    cases hs
    exact hemit d lead q nowMs decided acts
  | submit s before phase strategy exec =>
    refine ⟨by simp [phase], ?_, by rw [exec]; exact h.holding, by rw [exec]; exact h.published⟩
    intro s' hs'
    rw [exec] at hs'
    rcases List.mem_append.mp hs' with hold | hlast
    · exact h.queue s' hold
    · rw [List.mem_singleton.mp hlast]
      exact h.phase s before
  | take s rest queue phase strategy exec =>
    refine ⟨phase ▸ h.phase, ?_, ?_, by simp [exec]⟩
    · intro s' hs'
      rw [exec] at hs'
      exact h.queue s' (queue ▸ List.mem_cons_of_mem s hs')
    · intro s' hs'
      rw [exec] at hs'
      obtain rfl : s = s' := by simpa using hs'
      exact h.queue s (queue ▸ List.mem_cons_self)
  | drop s worker rejected phase strategy exec =>
    exact ⟨phase ▸ h.phase, by rw [exec]; exact h.queue, by simp [exec], by simp [exec]⟩
  | publish s worker passed phase strategy exec =>
    refine ⟨phase ▸ h.phase, by rw [exec]; exact h.queue, by simp [exec], ?_⟩
    intro s' hs'
    rw [exec] at hs'
    obtain rfl : s = s' := by simpa using hs'
    exact h.holding s worker
  | route s worker phase strategy exec =>
    exact ⟨phase ▸ h.phase, by rw [exec]; exact h.queue, by simp [exec], by simp [exec]⟩
  | session event fix phase strategy exec =>
    exact ⟨phase ▸ h.phase, exec ▸ h.queue, exec ▸ h.holding, exec ▸ h.published⟩
  | stopExec phase strategy exec =>
    exact ⟨phase ▸ h.phase, by rw [exec]; exact h.queue, by rw [exec]; exact h.holding,
      by rw [exec]; exact h.published⟩
  | stopFix phase strategy exec =>
    exact ⟨phase ▸ h.phase, exec ▸ h.queue, exec ▸ h.holding, exec ▸ h.published⟩

/-- What holds of every signal that the strategy fills in holds of all signals on their way. -/
theorem reachable_enRoute {utcOffsetS : Int} {boot : ℕ+}
    (hemit : ∀ d lead q nowMs, d = (Strategy.evaluate cfg lead q).1 → d ≠ .hold →
      P (Strategy.signalOf cfg d lead q nowMs))
    {e : Engine} (he : (machine cfg utcOffsetS boot).Reachable e) : e.EnRoute P := by
  refine Machine.invariant _ (I := EnRoute P) ?_ ?_ he
  · exact ⟨by simp [machine], by simp [machine], by simp [machine], by simp [machine]⟩
  · intro e a e' _ h hstep
    exact step_enRoute hemit h (step_pathStep cfg utcOffsetS e e' a hstep)

end Engine

end LatencyArb
