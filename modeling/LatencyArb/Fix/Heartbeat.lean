import LatencyArb.Fix.Outbound

/-!
# The heartbeat interval (`start_hb_timer`)

The timer is armed for one interval from now, however long ago the last frame was sent, and its handler
sends only when the interval has passed since then. As long as the timer is armed at the very time of
a frame, it expires no later than the next frame is due.
-/

namespace LatencyArb

open LatencyArb.Fix

namespace Fix

/-- The wait of the heartbeat timer is over. -/
def Handler.isExpiry : Handler → Bool
  | .timer false => true
  | _ => false

end Fix

namespace FixExecutor

/-- The heartbeat is kept up: within `io_.run()`, until the executor is stopped. -/
def beating (e : FixExecutor) : Bool :=
  match e.stage with
  | .running => !e.ioStopped && !e.halted
  | .parsing => !e.halted
  | _ => false

/-- The handler of the timer is to run. -/
def expired (e : FixExecutor) : Bool := e.handlers.any Handler.isExpiry

/-- The clock goes no further than the expiry of the timer, and not on before its handler has run. -/
def punctual (e : FixExecutor) : Action → Bool
  | .wait ms =>
    ms == 0 || !e.beating || (e.timer.all (fun dueMs => decide (e.nowMs + ms ≤ dueMs)) && !e.expired)
  | _ => true

section

variable (cfg : Config)

/-- `start_hb_timer` arms the timer, and no frame is sent with it. -/
def armsOnly (e : FixExecutor) : Action → Bool
  | .arm => !e.stopped && e.connected
  | .handle =>
    match e.handlers with
    | .timer false :: _ =>
      e.connected && !e.halted && !decide (heartbeatMs cfg * 3 / 2 < e.nowMs - e.lastRecvMs) &&
        decide (e.nowMs - e.lastSendMs < heartbeatMs cfg)
    | _ => false
  | _ => false

/-- The timer is armed at the time of a frame only, and the orders that wait for a session are sent
within the interval from its Logon. -/
def armsAtSend (e : FixExecutor) : Action → Bool
  | .drain => e.halted || e.orders.isEmpty || decide (e.nowMs - e.lastSendMs ≤ heartbeatMs cfg)
  | a => !e.armsOnly cfg a || decide (e.lastSendMs = e.nowMs)

/-- The frames that a step sends in a session come within the interval from the last one. -/
def IntervalKept (e : FixExecutor) (_ : Action) (e' : FixExecutor) : Prop :=
  e'.queued ≠ e.queued → e'.session = e.session → e.halted = false →
    e.nowMs - e.lastSendMs ≤ heartbeatMs cfg

/-- The timer or its handler comes before the interval from the last frame is over. -/
def Covered (e : FixExecutor) : Prop :=
  (∃ dueMs, e.timer = some dueMs ∧ e.nowMs ≤ dueMs ∧ dueMs ≤ e.lastSendMs + heartbeatMs cfg) ∨
    (e.expired = true ∧ e.nowMs ≤ e.lastSendMs + heartbeatMs cfg)

structure HeartbeatInv (e : FixExecutor) : Prop where
  past : e.lastSendMs ≤ e.nowMs
  connected : e.inSession = true → e.connected = true
  covered : e.beating = true → e.Covered cfg

end

variable {cfg : Config} {utc : Nat → String} {e e' : FixExecutor} {a : Action}

lemma heartbeatMs_pos (cfg : Config) : 0 < heartbeatMs cfg := by
  unfold heartbeatMs
  split
  · omega
  · decide

lemma Covered.gap (h : e.Covered cfg) : e.nowMs - e.lastSendMs ≤ heartbeatMs cfg := by
  obtain ⟨dueMs, -, hnow, hdue⟩ | ⟨-, hnow⟩ := h
  · omega
  · omega

lemma going_of_beating (h : e.beating = true) : e.inSession = true ∧ e.halted = false := by
  unfold beating at h
  unfold inSession
  split at h
  · rename_i hstage
    rw [hstage]
    simpa using h
  · rename_i hstage
    rw [hstage]
    simpa using h
  · cases h

/-! ## What leaves the heartbeat alone -/

/-- The step is one within a session, which touches the clock and the timer only by sending now. -/
structure Within (e e' : FixExecutor) : Prop where
  timer : e'.timer = e.timer
  nowMs : e'.nowMs = e.nowMs
  halted : e'.halted = e.halted
  connected : e'.connected = e.connected
  late : e.expired = true → e'.expired = true
  last : e'.lastSendMs = e.lastSendMs ∨ e'.lastSendMs = e.nowMs

lemma Within.refl (e : FixExecutor) : Within e e := ⟨rfl, rfl, rfl, rfl, id, .inl rfl⟩

lemma Within.trans {d : FixExecutor} (h : Within e d) (h' : Within d e') : Within e e' := by
  refine ⟨h'.timer.trans h.timer, h'.nowMs.trans h.nowMs, h'.halted.trans h.halted,
    h'.connected.trans h.connected, fun hlate => h'.late (h.late hlate), ?_⟩
  obtain hlast | hlast := h'.last
  · rw [hlast]
    exact h.last
  · exact .inr (hlast.trans h.nowMs)

lemma Within.stage (h : Within e e') (stage : Stage) : Within e { e' with stage := stage } :=
  ⟨h.timer, h.nowMs, h.halted, h.connected, h.late, h.last⟩

lemma within_post (e : FixExecutor) (h : Handler) : Within e (e.post h) := by
  refine ⟨rfl, rfl, rfl, rfl, ?_, .inl rfl⟩
  intro hlate
  unfold expired post at *
  rw [List.any_append, hlate, Bool.true_or]

lemma within_dequeue {h : Handler} {rest : List Handler} (hnext : e.handlers = h :: rest)
    (hh : h.isExpiry = false) : Within e (e.dequeue rest) := by
  refine ⟨rfl, rfl, rfl, rfl, ?_, .inl rfl⟩
  intro hlate
  unfold expired at hlate ⊢
  rw [hnext, List.any_cons, hh, Bool.false_or] at hlate
  exact hlate

lemma within_pumpWrite (e : FixExecutor) : Within e e.pumpWrite := by
  unfold pumpWrite
  split
  · exact .refl e
  · split
    · exact .refl e
    · exact ⟨rfl, rfl, rfl, rfl, id, .inl rfl⟩

variable (utc) in
lemma within_send (e : FixExecutor) (build : Nat → String → Message) (job : Option OrderJob) :
    Within e (e.send utc build job) := by
  have hqueued : Within e (e.enqueue utc build job) := ⟨rfl, rfl, rfl, rfl, id, .inr rfl⟩
  rw [send_eq]
  exact hqueued.trans (within_pumpWrite _)

variable (utc) in
lemma send_last (e : FixExecutor) (build : Nat → String → Message) (job : Option OrderJob) :
    (e.send utc build job).lastSendMs = e.nowMs := by
  have hpump := (within_pumpWrite (e.enqueue utc build job)).last
  rw [send_eq]
  exact hpump.elim id id

lemma within_drainOrders (e : FixExecutor) : Within e (e.drainOrders cfg utc) := by
  unfold drainOrders
  split
  · exact .refl e
  · have hstart : Within e { e with orders := [] } := ⟨rfl, rfl, rfl, rfl, id, .inl rfl⟩
    generalize ({ e with orders := [] } : FixExecutor) = d at hstart
    induction e.orders generalizing d with
    | nil => exact hstart
    | cons job jobs ih =>
      apply ih
      refine hstart.trans (Within.trans ?_ (within_send _ _ _ _))
      exact ⟨rfl, rfl, rfl, rfl, id, .inl rfl⟩

lemma within_startRead (e : FixExecutor) : Within e e.startRead := by
  unfold startRead
  split
  · exact .refl e
  · exact ⟨rfl, rfl, rfl, rfl, id, .inl rfl⟩

lemma within_onExecutionReport (e : FixExecutor) (f : Bytes) : Within e (e.onExecutionReport f) := by
  unfold onExecutionReport
  split
  · exact .refl e
  · split
    · exact .refl e
    · split
      · exact .refl e
      · exact ⟨rfl, rfl, rfl, rfl, id, .inl rfl⟩

lemma within_dispatch (e : FixExecutor) (f : Bytes) : Within e (e.dispatch cfg utc f) := by
  unfold dispatch
  split
  · exact within_onExecutionReport e f
  · split
    · exact within_send _ _ _ _
    · split
      · exact ⟨rfl, rfl, rfl, rfl, id, .inl rfl⟩
      · exact .refl e

lemma within_noteFrame (e : FixExecutor) (f : Bytes) : Within e (e.noteFrame cfg utc f) := by
  unfold noteFrame
  split
  · exact ⟨rfl, rfl, rfl, rfl, id, .inl rfl⟩
  · refine Within.trans ?_ (within_send _ _ _ _)
    exact ⟨rfl, rfl, rfl, rfl, id, .inl rfl⟩

lemma within_handleFrame (e : FixExecutor) (f : Bytes) : Within e (e.handleFrame cfg utc f) := by
  refine Within.trans ?_ (within_dispatch _ f)
  refine Within.trans ?_ (within_noteFrame _ f)
  exact ⟨rfl, rfl, rfl, rfl, id, .inl rfl⟩

lemma within_readAgain (e : FixExecutor) : Within e e.readAgain := (within_startRead e).stage .running

lemma within_parse (e : FixExecutor) : Within e (e.parse cfg utc) := by
  have hinbound : ∀ rest, Within e { e with inbound := rest } :=
    fun rest => ⟨rfl, rfl, rfl, rfl, id, .inl rfl⟩
  cases hscan : scan e.inbound with
  | wait keep =>
    rw [parse_wait hscan]
    exact (hinbound keep).trans (within_readAgain _)
  | skip rest =>
    rw [parse_skip hscan]
    exact hinbound rest
  | item f rest =>
    have hframe : Within e (({ e with inbound := rest } : FixExecutor).handleFrame cfg utc f) :=
      (hinbound rest).trans (within_handleFrame _ f)
    rw [parse_item hscan]
    split
    · exact hframe.trans (within_readAgain _)
    · exact hframe

/-! ## The invariant -/

lemma Covered.within (h : e.Covered cfg) (hpast : e.lastSendMs ≤ e.nowMs) (hw : Within e e') :
    e'.Covered cfg := by
  have hlast : e.lastSendMs ≤ e'.lastSendMs := by
    obtain hlast | hlast := hw.last <;> omega
  obtain ⟨dueMs, htimer, hnow, hdue⟩ | ⟨hlate, hnow⟩ := h
  · left
    refine ⟨dueMs, hw.timer.trans htimer, ?_, ?_⟩
    · rw [hw.nowMs]
      exact hnow
    · omega
  · right
    refine ⟨hw.late hlate, ?_⟩
    rw [hw.nowMs]
    omega

lemma HeartbeatInv.within (h : e.HeartbeatInv cfg) (hw : Within e e')
    (hin : e'.inSession = true → e.inSession = true) (hbeat : e'.beating = true → e.beating = true) :
    e'.HeartbeatInv cfg := by
  refine ⟨?_, ?_, ?_⟩
  · have hpast := h.past
    rw [hw.nowMs]
    obtain hlast | hlast := hw.last <;> omega
  · intro hsession
    exact hw.connected.trans (h.connected (hin hsession))
  · intro hb
    exact (h.covered (hbeat hb)).within h.past hw

/-- A handler is posted from anywhere. -/
lemma HeartbeatInv.post {d : FixExecutor} {handler : Handler} (h : e.HeartbeatInv cfg) (hw : Within e d)
    (hstage : d.stage = e.stage) (hio : d.ioStopped = e.ioStopped) : (d.post handler).HeartbeatInv cfg := by
  have hin : (d.post handler).inSession = e.inSession := by
    unfold inSession FixExecutor.post
    rw [hstage, hio]
  have hbeat : (d.post handler).beating = e.beating := by
    have hhalted : (d.post handler).halted = e.halted := hw.halted
    unfold beating
    rw [hhalted]
    unfold FixExecutor.post
    rw [hstage, hio]
  apply h.within (hw.trans (within_post d handler))
  · rw [hin]
    exact id
  · rw [hbeat]
    exact id

/-- A step out of the session. -/
lemma HeartbeatInv.outside (hpast : e.lastSendMs ≤ e.nowMs) (hout : e.inSession = false) :
    e.HeartbeatInv cfg := by
  refine ⟨hpast, ?_, ?_⟩
  · intro hsession
    rw [hout] at hsession
    cases hsession
  · intro hb
    have hsession := (going_of_beating hb).1
    rw [hout] at hsession
    cases hsession

lemma cancelTimer_clock (e : FixExecutor) :
    e.cancelTimer.lastSendMs = e.lastSendMs ∧ e.cancelTimer.nowMs = e.nowMs ∧
      e.cancelTimer.connected = e.connected ∧ e.cancelTimer.halted = e.halted := by
  unfold cancelTimer
  split <;> exact ⟨rfl, rfl, rfl, rfl⟩

variable (cfg) in
lemma startHbTimer_clock (e : FixExecutor) :
    (e.startHbTimer cfg).lastSendMs = e.lastSendMs ∧ (e.startHbTimer cfg).nowMs = e.nowMs ∧
      (e.startHbTimer cfg).connected = e.connected ∧ (e.startHbTimer cfg).halted = e.halted := by
  unfold startHbTimer
  split
  · exact ⟨rfl, rfl, rfl, rfl⟩
  · exact e.cancelTimer_clock

/-- A timer armed at the time of a frame. -/
lemma startHbTimer_covered (hgoing : e.halted = false) (hconnected : e.connected = true)
    (hlast : e.lastSendMs = e.nowMs) : (e.startHbTimer cfg).Covered cfg := by
  have hstopped : e.stopped = false := by
    unfold halted at hgoing
    exact (Bool.or_eq_false_iff.mp hgoing).1
  have harmed : e.startHbTimer cfg = { e.cancelTimer with timer := some (e.nowMs + heartbeatMs cfg) } := by
    simp [startHbTimer, hstopped, hconnected]
  obtain ⟨hsend, hnow, -⟩ := e.cancelTimer_clock
  have hpos := heartbeatMs_pos cfg
  rw [harmed]
  refine .inl ⟨e.nowMs + heartbeatMs cfg, rfl, ?_, ?_⟩
  · show e.cancelTimer.nowMs ≤ _
    omega
  · show _ ≤ e.cancelTimer.lastSendMs + _
    omega

lemma HeartbeatInv.armed (hgoing : e.halted = false) (hconnected : e.connected = true)
    (hlast : e.lastSendMs = e.nowMs) : (e.startHbTimer cfg).HeartbeatInv cfg := by
  obtain ⟨hsend, hnow, hconn, -⟩ := e.startHbTimer_clock cfg
  refine ⟨?_, fun _ => hconn.trans hconnected, fun _ => startHbTimer_covered hgoing hconnected hlast⟩
  omega

/-! ## A step -/

/-- A call within `io_.run()`. -/
lemma HeartbeatInv.call (h : e.HeartbeatInv cfg) (hw : Within e e') (hstage : e.stage = .running)
    (hgoing : e.ioStopped = false) : e'.HeartbeatInv cfg := by
  apply h.within hw
  · intro _
    simp [inSession, hstage, hgoing]
  · intro hb
    have hhalted := hw.halted.symm.trans (going_of_beating hb).2
    simp [beating, hstage, hgoing, hhalted]

lemma HeartbeatInv.expiry {rest : List Handler} (h : e.HeartbeatInv cfg) (hstage : e.stage = .running)
    (hrunning : e.ioStopped = false) (hnext : e.handlers = .timer false :: rest)
    (hC : e.armsAtSend cfg .handle = true) : ((e.dequeue rest).onTimer cfg utc false).HeartbeatInv cfg := by
  have hconnected : e.connected = true := h.connected (by simp [inSession, hstage, hrunning])
  have hrest : (e.dequeue rest).connected = true := hconnected
  by_cases hhalted : e.halted = true
  · have hsame : (e.dequeue rest).onTimer cfg utc false = e.dequeue rest :=
      if_pos (by simp [show (e.dequeue rest).halted = true from hhalted])
    rw [hsame]
    refine ⟨h.past, fun _ => hconnected, fun hb => ?_⟩
    have hgo : e.halted = false := (going_of_beating hb).2
    exact absurd (hhalted.symm.trans hgo) (by simp)
  · have hgo : e.halted = false := Bool.eq_false_iff.mpr hhalted
    have hgoing : (e.dequeue rest).halted = false := hgo
    unfold onTimer
    rw [if_neg (by simp [hrest, hgoing])]
    split
    · exact HeartbeatInv.outside h.past (by simp [inSession, dequeue, hstage])
    · rename_i hheard
      split
      · -- the heartbeat is sent now
        have hw := within_send utc (e.dequeue rest) (buildHeartbeat cfg []) none
        have hlast := send_last utc (e.dequeue rest) (buildHeartbeat cfg []) none
        exact .armed (hw.halted.trans hgoing) (hw.connected.trans hrest) (hlast.trans hw.nowMs.symm)
      · rename_i hquiet
        have hsilent : ¬heartbeatMs cfg * 3 / 2 < e.nowMs - e.lastRecvMs := hheard
        have hyoung : e.nowMs - e.lastSendMs < heartbeatMs cfg := not_le.mp hquiet
        have harms : e.armsOnly cfg .handle = true := by
          simp [armsOnly, hnext, hconnected, hgo, hyoung, not_lt.mp hsilent]
        have hlast : e.lastSendMs = e.nowMs := by simpa [armsAtSend, harms] using hC
        exact .armed hgoing hrest hlast

lemma HeartbeatInv.handle {handler : Handler} {rest : List Handler} (h : e.HeartbeatInv cfg)
    (hstage : e.stage = .running) (hrunning : e.ioStopped = false) (hnext : e.handlers = handler :: rest)
    (hC : e.armsAtSend cfg .handle = true) : ((e.dequeue rest).handle cfg utc handler).HeartbeatInv cfg := by
  have hstopped : ∀ d : FixExecutor, d.stage = .running → d.ioStopped = true → d.inSession = false := by
    intro d hs hio
    simp [inSession, hs, hio]
  cases handler with
  | drain =>
    have hw := within_dequeue hnext rfl
    exact h.call (hw.trans (within_drainOrders _)) hstage hrunning
  | logout =>
    have hpast : (e.dequeue rest).lastSendMs ≤ (e.dequeue rest).nowMs := h.past
    simp only [FixExecutor.handle, onLogout]
    split <;> exact .outside hpast (hstopped _ hstage rfl)
  | wrote ok =>
    have hw := within_dequeue hnext rfl
    have hpop : Within (e.dequeue rest) (e.dequeue rest).popWritten := ⟨rfl, rfl, rfl, rfl, id, .inl rfl⟩
    cases ok with
    | true => exact h.call (hw.trans (hpop.trans (within_pumpWrite _))) hstage hrunning
    | false => exact .outside h.past (hstopped _ hstage rfl)
  | read outcome =>
    have hw := within_dequeue hnext rfl
    cases outcome with
    | data stream bytes =>
      have hread : Within (e.dequeue rest) ((e.dequeue rest).onRead (.data stream bytes)) :=
        ⟨rfl, rfl, rfl, rfl, id, .inl rfl⟩
      exact h.call (hw.trans hread) hstage hrunning
    | failed => exact .outside h.past (hstopped _ hstage rfl)
    | aborted => exact h.call hw hstage hrunning
  | timer aborted =>
    cases aborted with
    | true =>
      have hsame : (e.dequeue rest).onTimer cfg utc true = e.dequeue rest := if_pos rfl
      rw [FixExecutor.handle, hsame]
      exact h.call (within_dequeue hnext rfl) hstage hrunning
    | false => exact h.expiry hstage hrunning hnext hC

lemma HeartbeatInv.wait (h : e.HeartbeatInv cfg) {ms : Nat} (hpunctual : e.punctual (.wait ms) = true) :
    ({ e with nowMs := e.nowMs + ms } : FixExecutor).HeartbeatInv cfg := by
  have hpast := h.past
  refine ⟨?_, h.connected, fun hb => ?_⟩
  · show e.lastSendMs ≤ e.nowMs + ms
    omega
  · have hbeating : e.beating = true := hb
    unfold punctual at hpunctual
    simp only [hbeating, Bool.not_true, Bool.or_false, Bool.or_eq_true, beq_iff_eq, Bool.and_eq_true,
      Bool.not_eq_true'] at hpunctual
    obtain hzero | ⟨htimer, hlate⟩ := hpunctual
    · subst hzero
      exact (h.covered hbeating).within hpast ⟨rfl, add_zero _, rfl, rfl, id, .inl rfl⟩
    · obtain ⟨dueMs, hdue, -, hlast⟩ | ⟨hexpired, -⟩ := h.covered hbeating
      · rw [hdue, Option.all_some, decide_eq_true_eq] at htimer
        exact .inl ⟨dueMs, hdue, htimer, hlast⟩
      · rw [hlate] at hexpired
        cases hexpired

lemma HeartbeatInv.joined (h : e.HeartbeatInv cfg) : e.join.HeartbeatInv cfg := by
  obtain ⟨hsend, hnow, -⟩ := cancelTimer_clock { e with joining := false, stage := .unstarted }
  have hstage : e.join.stage = .unstarted := (cancelTimer_keeps _).2.2
  apply HeartbeatInv.outside
  · rw [show e.join.lastSendMs = _ from hsend, show e.join.nowMs = _ from hnow]
    exact h.past
  · simp [inSession, hstage]

/-- The timer armed at the top of a session. -/
lemma HeartbeatInv.arm (h : e.HeartbeatInv cfg) (hstage : e.stage = .timing)
    (hC : e.armsAtSend cfg .arm = true) :
    ({ e.startHbTimer cfg with stage := .running } : FixExecutor).HeartbeatInv cfg := by
  have hconnected : e.connected = true := h.connected (by simp [inSession, hstage])
  obtain ⟨hsend, hnow, hconn, hhalted⟩ := e.startHbTimer_clock cfg
  refine ⟨?_, fun _ => hconn.trans hconnected, fun hb => ?_⟩
  · have hpast := h.past
    show (e.startHbTimer cfg).lastSendMs ≤ (e.startHbTimer cfg).nowMs
    omega
  · have hgo : e.halted = false := hhalted.symm.trans (going_of_beating hb).2
    have harms : e.armsOnly cfg .arm = true := by
      unfold halted at hgo
      simp [armsOnly, hconnected, (Bool.or_eq_false_iff.mp hgo).1]
    have hlast : e.lastSendMs = e.nowMs := by simpa [armsAtSend, harms] using hC
    exact startHbTimer_covered hgo hconnected hlast

/-- A due timer leaves its handler, which is posted within the interval. -/
lemma HeartbeatInv.expire (h : e.HeartbeatInv cfg) :
    (({ e with timer := none } : FixExecutor).post (.timer false)).HeartbeatInv cfg := by
  refine ⟨h.past, h.connected, fun hb => ?_⟩
  have hlate : (({ e with timer := none } : FixExecutor).post (.timer false)).expired = true := by
    simp [expired, FixExecutor.post, Handler.isExpiry]
  have hgap := (h.covered hb).gap
  refine .inr ⟨hlate, ?_⟩
  show e.nowMs ≤ e.lastSendMs + heartbeatMs cfg
  omega

theorem HeartbeatInv.step (h : e.HeartbeatInv cfg) (hs : e.step cfg utc a = some e')
    (hpunctual : e.punctual a = true) (hC : e.armsAtSend cfg a = true) : e'.HeartbeatInv cfg := by
  cases step_moves hs with
  | started running => exact h
  | start stage => exact .outside h.past rfl
  | stop =>
    unfold stop
    split
    · exact h
    · refine ⟨h.past, h.connected, fun hb => ?_⟩
      have hgo := (going_of_beating hb).2
      cases hgo
  | stopPost => exact h.post ⟨rfl, rfl, rfl, rfl, id, .inl rfl⟩ rfl rfl
  | join stage => exact h.joined
  | execute call =>
    unfold execute
    split
    · exact h
    · split <;> exact ⟨h.past, h.connected, h.covered⟩
  | post => exact h.post ⟨rfl, rfl, rfl, rfl, id, .inl rfl⟩ rfl rfl
  | wait ms => exact h.wait hpunctual
  | loop stage =>
    refine .outside h.past ?_
    unfold loopTest inSession
    cases e.halted <;> rfl
  | connected stage =>
    have hw := within_send utc e.opened (buildLogon cfg) none
    have hlast := send_last utc e.opened (buildLogon cfg) none
    refine ⟨?_, fun _ => hw.connected, fun hb => by cases hb⟩
    show (e.opened.send utc (buildLogon cfg)).lastSendMs ≤ (e.opened.send utc (buildLogon cfg)).nowMs
    rw [hlast, hw.nowMs]
  | connectFailed result threw failed stage => exact .outside h.past rfl
  | retry untilMs stage => exact .outside h.past rfl
  | drain stage =>
    exact h.within ((within_drainOrders e).stage .listening) (fun _ => by simp [inSession, stage])
      (fun hb => by cases hb)
  | listen stage =>
    have hclock : Within e { e with lastRecvMs := e.nowMs } := ⟨rfl, rfl, rfl, rfl, id, .inl rfl⟩
    exact h.within ((hclock.trans (within_startRead _)).stage .timing)
      (fun _ => by simp [inSession, stage]) (fun hb => by cases hb)
  | arm stage => exact h.arm stage hC
  | handle handler rest stage going next => exact h.handle stage going next hC
  | parse stage =>
    have hw : Within e (e.parse cfg utc) := within_parse e
    apply h.within hw
    · intro _
      simp [inSession, stage]
    · intro hb
      have hhalted := hw.halted.symm.trans (going_of_beating hb).2
      simp [beating, stage, hhalted]
  | leave stage ended => exact .outside h.past rfl
  | wrote ok writes => exact h.post ⟨rfl, rfl, rfl, rfl, id, .inl rfl⟩ rfl rfl
  | received bytes reads => exact h.post ⟨rfl, rfl, rfl, rfl, id, .inl rfl⟩ rfl rfl
  | readFailed reads => exact h.post ⟨rfl, rfl, rfl, rfl, id, .inl rfl⟩ rfl rfl
  | expire dueMs timer => exact h.expire

/-! ## The frames of a session -/

lemma drainOrders_of_nil (h : e.orders = []) : (e.drainOrders cfg utc).queued = e.queued := by
  unfold drainOrders
  rw [h]
  split <;> rfl

lemma HeartbeatInv.kept (h : e.HeartbeatInv cfg) (hs : e.step cfg utc a = some e')
    (hC : e.armsAtSend cfg a = true) : IntervalKept cfg e a e' := by
  intro hqueued hsession hgo
  cases step_moves hs with
  | stop =>
    unfold stop at hqueued
    split at hqueued <;> exact absurd rfl hqueued
  | join stage =>
    unfold join cancelTimer at hqueued
    split at hqueued <;> exact absurd rfl hqueued
  | execute call =>
    unfold execute at hqueued
    split at hqueued
    · exact absurd rfl hqueued
    · split at hqueued <;> exact absurd rfl hqueued
  | connected stage =>
    have hnext : (e.startSession cfg utc).session = e.session + 1 :=
      ((e.opened.enqueue utc (buildLogon cfg) none).pumpWrite_keeps).2.1
    omega
  | drain stage =>
    have hsome : e.orders ≠ [] := fun hnil => hqueued (drainOrders_of_nil hnil)
    simpa [armsAtSend, hgo, hsome] using hC
  | listen stage =>
    unfold startRead at hqueued
    dsimp only at hqueued
    split at hqueued <;> exact absurd rfl hqueued
  | arm stage =>
    unfold startHbTimer cancelTimer at hqueued
    dsimp only at hqueued
    split at hqueued
    · exact absurd rfl hqueued
    · split at hqueued <;> exact absurd rfl hqueued
  | handle handler rest stage going next =>
    exact (h.covered (by simp [beating, stage, going, hgo])).gap
  | parse stage => exact (h.covered (by simp [beating, stage, hgo])).gap
  | _ => exact absurd rfl hqueued

lemma init_heartbeatInv (cfg : Config) (utc : Nat → String) : (machine cfg utc).init.HeartbeatInv cfg :=
  .outside le_rfl rfl

/-- In every run in which timer handlers run at their expiry: while the timer is armed at the time of a
frame only, and the orders waiting for a session follow its Logon within the interval, no two frames of
a session that is not stopped are more than the heartbeat interval apart. -/
theorem heartbeat_interval_kept (cfg : Config) (utc : Nat → String) (run : List Action)
    (hpunctual : (machine cfg utc).Always run (fun e a _ => e.punctual a = true))
    (harms : (machine cfg utc).Always run (fun e a _ => e.armsAtSend cfg a = true)) :
    (machine cfg utc).Always run (IntervalKept cfg) := by
  intro pre a e e' hpre he hs
  have hinv : e.HeartbeatInv cfg := by
    refine (machine cfg utc).invariant_of_always (C := fun e a _ => e.punctual a = true ∧
      e.armsAtSend cfg a = true) (init_heartbeatInv cfg utc) ?_ ?_ he
    · intro s b t _ hI hst hC
      exact hI.step hst hC.1 hC.2
    · intro earlier b s t hprefix hr hst
      have hall := hprefix.trans ((List.prefix_append pre [a]).trans hpre)
      exact ⟨hpunctual earlier b s t hall hr hst, harms earlier b s t hall hr hst⟩
  exact hinv.kept hs (harms pre a e e' hpre he hs)

/-- One second between heartbeats. -/
def everySecond : Config := { fixHeartbeatS := 1 }

/-- The session comes up, and its Logon is written. -/
def logonWritten : List Action := [Action.start] ++ sessionUp ++ [.wrote true, .handle]

/-- Nothing is sent before the timer expires. -/
def quietSecond : List Action := logonWritten ++ [.wait 1000, .expire, .handle]

theorem quiet_second_heartbeat :
    ((machine everySecond (fun _ => "")).run (machine everySecond (fun _ => "")).init quietSecond).map
      (fun e => (e.nowMs, e.lastSendMs, e.queued.map (fun f => f.message.value 35))) =
        some (1000, 1000, [some (ascii "A"), some (ascii "0")]) ∧
    (machine everySecond (fun _ => "")).Always quietSecond (IntervalKept everySecond) := by
  refine ⟨by decide +kernel, ?_⟩
  apply heartbeat_interval_kept
  · exact Machine.always_of_checks _ (by decide +kernel)
  · exact Machine.always_of_checks _ (by decide +kernel)

/-- An order is sent a millisecond after the timer is armed, and the peer is heard a second later. -/
def orderAfterArm : List Action :=
  logonWritten ++ [.wait 1, .execute ⟨"XAU/USD", "buy", 1, 0, 0⟩, .post, .handle, .wrote true, .handle,
    .wait 999, .expire, .handle, .received [56], .handle, .parse, .wait 1000, .expire]

/-- The handlers run on time, and the frame after the order comes 1999 milliseconds later. -/
theorem order_after_arm_gap :
    (machine everySecond (fun _ => "")).Always (orderAfterArm ++ [Action.handle])
      (fun e a _ => e.punctual a = true) ∧
    ¬(machine everySecond (fun _ => "")).Always (orderAfterArm ++ [Action.handle])
      (IntervalKept everySecond) := by
  refine ⟨Machine.always_of_checks _ (by decide +kernel), ?_⟩
  intro hkept
  have hlast : ((machine everySecond (fun _ => "")).run (machine everySecond (fun _ => "")).init
      (orderAfterArm ++ [Action.handle])).map (fun e => e.queued.length) = some 3 := by decide +kernel
  have hbefore : ((machine everySecond (fun _ => "")).run (machine everySecond (fun _ => "")).init
      orderAfterArm).map (fun e => (e.queued.length, e.session, e.halted, e.nowMs - e.lastSendMs)) =
        some (2, 1, false, 1999) := by decide +kernel
  have hsession : ((machine everySecond (fun _ => "")).run (machine everySecond (fun _ => "")).init
      (orderAfterArm ++ [Action.handle])).map (fun e => e.session) = some 1 := by decide +kernel
  obtain ⟨t, ht, hthree⟩ := Option.map_eq_some_iff.mp hlast
  obtain ⟨s, hs, hstep⟩ := (machine everySecond (fun _ => "")).run_concat_eq_some.mp ht
  rw [hs, Option.map_some, Option.some.injEq, Prod.mk.injEq, Prod.mk.injEq, Prod.mk.injEq] at hbefore
  rw [ht, Option.map_some, Option.some.injEq] at hsession
  obtain ⟨htwo, hone, hgoing, hgap⟩ := hbefore
  have hsent : t.queued ≠ s.queued := by
    intro heq
    rw [heq] at hthree
    omega
  have hle := hkept orderAfterArm .handle s t List.prefix_rfl hs hstep hsent (hsession.trans hone.symm) hgoing
  rw [hgap] at hle
  exact absurd hle (by decide)

end FixExecutor

end LatencyArb
