import LatencyArb.CTrader.Executor

/-!
# The mailbox of the cTrader executor (`execute` and the wait of `worker_loop`)

The executor with the flag and the condition variable of its mailbox. What a thread does while it
holds the mutex is one step; the notification of a caller comes after it has released the mutex, and the
wait may also end by itself.
-/

namespace LatencyArb

open CTrader

/-- `blocked` is a worker asleep in `cv_.wait`, `notifying` the callers of `execute` that have released
the mutex and not yet notified. `accepted` and `taken` only record the run. -/
structure CTraderMailbox where
  exec : CTraderExecutor := {}
  wake : Bool := false
  blocked : Bool := false
  notifying : Nat := 0
  accepted : List OrderJob := []
  taken : List OrderJob := []

namespace CTraderMailbox

/-- `worker` is the critical section of `worker_loop`, up to its end or to the sleep in the wait, and
`serve` a step of the worker outside of it. -/
inductive Action where
  | start
  | execute (job : OrderJob)
  | notify
  | wakeUp
  | worker
  | serve (a : CTrader.Action)

variable (cfg : Config)

def execute (m : CTraderMailbox) (job : OrderJob) : CTraderMailbox :=
  { m with
    exec := m.exec.execute job
    wake := true
    notifying := m.notifying + 1
    accepted := if m.exec.queueLimit ≤ m.exec.jobs.length then m.accepted else m.accepted ++ [job] }

/-- The critical section after the wait. -/
def afterWait (m : CTraderMailbox) : CTraderMailbox :=
  if m.exec.stopped then { m with exec := m.exec.take }
  else
    match m.exec.jobs with
    | [] => { m with wake := false }
    | job :: jobs =>
      { m with exec := m.exec.take, wake := !jobs.isEmpty, taken := m.taken ++ [job] }

def worker (m : CTraderMailbox) : CTraderMailbox :=
  if m.wake || m.exec.stopped then m.afterWait else { m with blocked := true }

/-- The steps of the worker that connect and serve the job in hand. -/
def isServing : CTrader.Action → Bool
  | .tls _ | .send _ | .read _ | .timeout => true
  | _ => false

def step (m : CTraderMailbox) : Action → Option CTraderMailbox
  | .start => some { m with exec := m.exec.start }
  | .execute job => some (m.execute job)
  | .notify =>
    if 0 < m.notifying then some { m with notifying := m.notifying - 1, blocked := false } else none
  | .wakeUp => if m.blocked then some { m with blocked := false } else none
  | .worker =>
    match m.exec.stage with
    | .idle => if m.blocked then none else some m.worker
    | _ => none
  | .serve a =>
    if isServing a then (m.exec.step cfg a).map (fun exec => { m with exec := exec }) else none

/-- What a step can do. The critical section of the worker has four ends: the stop flag is set, the flag
was set for an empty queue, a job is taken, or the worker goes to sleep. -/
inductive Moves (m : CTraderMailbox) : Action → CTraderMailbox → Prop where
  | start : Moves m .start { m with exec := m.exec.start }
  | execute (job : OrderJob) : Moves m (.execute job) (m.execute job)
  | notify (pending : 0 < m.notifying) :
      Moves m .notify { m with notifying := m.notifying - 1, blocked := false }
  | wakeUp (blocked : m.blocked = true) : Moves m .wakeUp { m with blocked := false }
  | stopped (stage : m.exec.stage = .idle) (awake : m.blocked = false) (stopped : m.exec.stopped = true) :
      Moves m .worker { m with exec := m.exec.take }
  | found (stage : m.exec.stage = .idle) (awake : m.blocked = false) (running : m.exec.stopped = false)
      (empty : m.exec.jobs = []) : Moves m .worker { m with wake := false }
  | take (job : OrderJob) (jobs : List OrderJob) (stage : m.exec.stage = .idle) (awake : m.blocked = false)
      (running : m.exec.stopped = false) (front : m.exec.jobs = job :: jobs) :
      Moves m .worker { m with exec := m.exec.take, wake := !jobs.isEmpty, taken := m.taken ++ [job] }
  | sleep (stage : m.exec.stage = .idle) (awake : m.blocked = false) (unset : m.wake = false)
      (running : m.exec.stopped = false) : Moves m .worker { m with blocked := true }
  | serve (a : CTrader.Action) (exec : CTraderExecutor) (serving : isServing a = true)
      (step : m.exec.step cfg a = some exec) : Moves m (.serve a) { m with exec := exec }

/-- The executor with this `queue_limit_`, before its worker is started. -/
def machine (queueLimit : Nat) : Machine CTraderMailbox Action where
  init := { exec := { queueLimit := queueLimit } }
  step := step cfg

/-! ## The worker leaves the mailbox alone while it serves a job -/

/-- What concerns the mailbox is the same. -/
structure SameMailbox (e e' : CTraderExecutor) : Prop where
  jobs : e'.jobs = e.jobs
  queueLimit : e'.queueLimit = e.queueLimit
  stopped : e'.stopped = e.stopped

variable {cfg} {e e' : CTraderExecutor}

lemma SameMailbox.trans {d : CTraderExecutor} (h : SameMailbox e d) (h' : SameMailbox d e') :
    SameMailbox e e' :=
  ⟨h'.jobs.trans h.jobs, h'.queueLimit.trans h.queueLimit, h'.stopped.trans h.stopped⟩

lemma placeOrder_same (e : CTraderExecutor) (task : Task) : SameMailbox e (e.placeOrder task) := by
  unfold CTraderExecutor.placeOrder
  split <;> exact ⟨rfl, rfl, rfl⟩

lemma attemptDone_same (e : CTraderExecutor) (task : Task) (outcome : Outcome) :
    SameMailbox e (e.attemptDone task outcome) := by
  unfold CTraderExecutor.attemptDone
  split
  · exact ⟨rfl, rfl, rfl⟩
  · split <;> exact ⟨rfl, rfl, rfl⟩

lemma connectFailed_same (e : CTraderExecutor) (task : Task) : SameMailbox e (e.connectFailed task) := by
  unfold CTraderExecutor.connectFailed
  split <;> exact ⟨rfl, rfl, rfl⟩

lemma fail_same (e : CTraderExecutor) (task : Task) (error : String) (request : Request) :
    SameMailbox e (e.fail task error request) := by
  unfold CTraderExecutor.fail
  split
  · exact attemptDone_same e task _
  · exact attemptDone_same e task _
  · exact attemptDone_same e task _
  · exact connectFailed_same e task

lemma resolved_same (e : CTraderExecutor) (task : Task) (info : SymbolInfo) (purpose : Purpose) :
    SameMailbox e (e.resolved task info purpose) := by
  cases purpose <;> exact ⟨rfl, rfl, rfl⟩

lemma accept_same (e : CTraderExecutor) (task : Task) (request : Request) (frame : Frame) :
    SameMailbox e (e.accept cfg task request frame) := by
  unfold CTraderExecutor.accept
  split
  · exact fail_same e task _ request
  · split
    · exact ⟨rfl, rfl, rfl⟩
    · exact ⟨rfl, rfl, rfl⟩
    · dsimp only
      split
      · exact fail_same e task _ _
      · exact ⟨rfl, rfl, rfl⟩
    · exact fail_same e task _ _
    · exact resolved_same e task _ _
    · exact fail_same e task _ _
    · exact fail_same e task _ _
    · exact ⟨rfl, rfl, rfl⟩
    · exact attemptDone_same e task _
    · exact attemptDone_same e task _

lemma onFrame_same (e : CTraderExecutor) (task : Task) (request : Request) (frame : Frame) :
    SameMailbox e (e.onFrame cfg task request frame) := by
  unfold CTraderExecutor.onFrame
  split
  · exact accept_same e task request frame
  · obtain ⟨bid, ask, hquote⟩ := e.dispatchOther_quote frame
    have hsame : SameMailbox e (e.dispatchOther frame).1 := by
      rw [hquote]
      exact ⟨rfl, rfl, rfl⟩
    split
    · rename_i d error hd
      rw [hd] at hsame
      exact hsame.trans (fail_same d task error request)
    · rename_i d hd
      rw [hd] at hsame
      exact hsame

lemma onSnapshot_same (e : CTraderExecutor) (task : Task) (frame : Frame) :
    SameMailbox e (e.onSnapshot task frame) := by
  unfold CTraderExecutor.onSnapshot
  split
  · rename_i bid ask _
    split
    · have hspot : SameMailbox e (e.storeSpot bid ask) := ⟨rfl, rfl, rfl⟩
      exact hspot.trans (placeOrder_same _ task)
    · exact ⟨rfl, rfl, rfl⟩
  · exact ⟨rfl, rfl, rfl⟩

lemma sendRequest_same (e : CTraderExecutor) (task : Task) (request : Request) :
    SameMailbox e (e.sendRequest task request) := by
  unfold CTraderExecutor.sendRequest
  split <;> exact ⟨rfl, rfl, rfl⟩

lemma serve_same {a : CTrader.Action} (ha : isServing a = true) (hs : e.step cfg a = some e') :
    SameMailbox e e' := by
  cases CTraderExecutor.step_moves hs with
  | tlsUp task stage => exact ⟨rfl, rfl, rfl⟩
  | tlsFailed task stage => exact connectFailed_same e task
  | send task request stage => exact sendRequest_same e task request
  | sendFailed task request stage => exact fail_same e task _ request
  | readFailed task request stage => exact fail_same e task _ request
  | readFrame task request frame stage => exact onFrame_same e task request frame
  | undecodable => exact ⟨rfl, rfl, rfl⟩
  | snapshotFailed task stage => exact connectFailed_same e task
  | snapshotFrame task frame stage => exact onSnapshot_same e task frame
  | timeout task stage => exact connectFailed_same e task
  | _ => cases ha

/-! ## What a step does to the mailbox -/

variable {m m' : CTraderMailbox} {queueLimit : Nat}

theorem step_moves {a : Action} (hs : m.step cfg a = some m') : Moves cfg m a m' := by
  cases a with
  | start =>
    obtain rfl := Option.some.inj hs
    exact .start
  | execute job =>
    obtain rfl := Option.some.inj hs
    exact .execute job
  | notify =>
    rw [step] at hs
    split at hs <;> cases hs
    exact .notify ‹_›
  | wakeUp =>
    rw [step] at hs
    split at hs <;> cases hs
    exact .wakeUp ‹_›
  | worker =>
    rw [step] at hs
    cases hstage : m.exec.stage with
    | idle =>
      rw [hstage] at hs
      dsimp only at hs
      split at hs <;> cases hs
      have hawake : m.blocked = false := Bool.not_eq_true _ ▸ ‹_›
      unfold worker
      split
      · unfold afterWait
        split
        · exact .stopped hstage hawake ‹_›
        · have hrunning : m.exec.stopped = false := Bool.not_eq_true _ ▸ ‹_›
          split
          · exact .found hstage hawake hrunning ‹_›
          · exact .take _ _ hstage hawake hrunning ‹_›
      · rename_i hwait
        rw [Bool.not_eq_true, Bool.or_eq_false_iff] at hwait
        exact .sleep hstage hawake hwait.1 hwait.2
    | _ =>
      rw [hstage] at hs
      cases hs
  | serve a =>
    rw [step] at hs
    split at hs
    · obtain ⟨exec, hexec, rfl⟩ := Option.map_eq_some_iff.mp hs
      exact .serve a exec ‹_› hexec
    · cases hs

/-- Before `stop` the queue holds what was accepted and not taken, and the flag is set while it holds
anything; a sleeping worker whose flag is set is about to be notified. -/
structure MailboxInv (queueLimit : Nat) (m : CTraderMailbox) : Prop where
  limit : m.exec.queueLimit = queueLimit
  running : m.exec.stopped = false
  bounded : m.exec.jobs.length ≤ queueLimit
  fifo : m.accepted = m.taken ++ m.exec.jobs
  wake : m.exec.jobs ≠ [] → m.wake = true
  roused : m.blocked = true → m.wake = true → 0 < m.notifying

lemma MailboxInv.of_same (h : m.MailboxInv queueLimit) (hsame : SameMailbox m.exec e) :
    MailboxInv queueLimit { m with exec := e } := by
  refine ⟨hsame.queueLimit.trans h.limit, hsame.stopped.trans h.running, ?_, ?_, ?_, h.roused⟩
  · rw [hsame.jobs]
    exact h.bounded
  · rw [hsame.jobs]
    exact h.fifo
  · rw [hsame.jobs]
    exact h.wake

lemma MailboxInv.execute (h : m.MailboxInv queueLimit) (job : OrderJob) :
    (m.execute job).MailboxInv queueLimit := by
  have hlimit := h.limit
  by_cases hfull : m.exec.queueLimit ≤ m.exec.jobs.length
  · have hexec : m.exec.execute job = m.exec := if_pos hfull
    have haccepted : (m.execute job).accepted = m.accepted := if_pos hfull
    refine ⟨?_, ?_, ?_, ?_, fun _ => rfl, fun _ _ => Nat.succ_pos _⟩
    · exact (congrArg CTraderExecutor.queueLimit hexec).trans h.limit
    · exact (congrArg CTraderExecutor.stopped hexec).trans h.running
    · show (m.exec.execute job).jobs.length ≤ queueLimit
      rw [hexec]
      exact h.bounded
    · show (m.execute job).accepted = m.taken ++ (m.exec.execute job).jobs
      rw [hexec, haccepted]
      exact h.fifo
  · have hexec : m.exec.execute job = { m.exec with jobs := m.exec.jobs ++ [job] } := if_neg hfull
    have haccepted : (m.execute job).accepted = m.accepted ++ [job] := if_neg hfull
    refine ⟨?_, ?_, ?_, ?_, fun _ => rfl, fun _ _ => Nat.succ_pos _⟩
    · exact (congrArg CTraderExecutor.queueLimit hexec).trans h.limit
    · exact (congrArg CTraderExecutor.stopped hexec).trans h.running
    · show (m.exec.execute job).jobs.length ≤ queueLimit
      rw [hexec, List.length_append, List.length_singleton]
      omega
    · show (m.execute job).accepted = m.taken ++ (m.exec.execute job).jobs
      rw [hexec, haccepted, h.fifo, List.append_assoc]

lemma take_of_cons {job : OrderJob} {jobs : List OrderJob} (hstopped : e.stopped = false)
    (hjobs : e.jobs = job :: jobs) : SameMailbox { e with jobs := jobs } e.take := by
  unfold CTraderExecutor.take
  rw [if_neg (by simp [hstopped]), hjobs]
  dsimp only
  split
  · exact placeOrder_same { e with jobs := jobs } { job := job }
  · exact ⟨rfl, rfl, rfl⟩

lemma MailboxInv.take (h : m.MailboxInv queueLimit) (hawake : m.blocked = false) {job : OrderJob}
    {jobs : List OrderJob} (hfront : m.exec.jobs = job :: jobs) :
    MailboxInv queueLimit
      { m with exec := m.exec.take, wake := !jobs.isEmpty, taken := m.taken ++ [job] } := by
  have hsame := take_of_cons h.running hfront
  have hbounded := h.bounded
  rw [hfront, List.length_cons] at hbounded
  refine ⟨hsame.queueLimit.trans h.limit, hsame.stopped.trans h.running, ?_, ?_, ?_,
    fun hb => absurd hb (by simp [hawake])⟩
  · rw [hsame.jobs]
    exact Nat.le_of_succ_le hbounded
  · rw [hsame.jobs, h.fifo, hfront, List.append_assoc]
    rfl
  · rw [hsame.jobs]
    simp

/-- The flag is set for any job in the queue, so the worker goes to sleep only when it is empty. -/
lemma MailboxInv.empty (h : m.MailboxInv queueLimit) (hunset : m.wake = false) : m.exec.jobs = [] := by
  by_contra hne
  rw [h.wake hne] at hunset
  cases hunset

lemma MailboxInv.step {a : Action} (h : m.MailboxInv queueLimit) (hs : m.step cfg a = some m') :
    m'.MailboxInv queueLimit ∧ (m.blocked = false → m'.blocked = true → m'.exec.jobs = []) := by
  have hstill : ∀ {jobs : List OrderJob}, m.blocked = false → m.blocked = true → jobs = [] :=
    fun hawake hasleep => absurd (hawake.symm.trans hasleep) (by simp)
  cases step_moves hs with
  | start =>
    have hsame : SameMailbox m.exec m.exec.start := by
      unfold CTraderExecutor.start
      split
      · exact ⟨rfl, rfl, h.running.symm⟩
      · exact ⟨rfl, rfl, rfl⟩
    exact ⟨h.of_same hsame, hstill⟩
  | execute job => exact ⟨h.execute job, hstill⟩
  | notify =>
    exact ⟨⟨h.limit, h.running, h.bounded, h.fifo, h.wake, fun hb => by cases hb⟩,
      fun _ hb => by cases hb⟩
  | wakeUp =>
    exact ⟨⟨h.limit, h.running, h.bounded, h.fifo, h.wake, fun hb => by cases hb⟩,
      fun _ hb => by cases hb⟩
  | stopped stage awake stopped => exact absurd (h.running.symm.trans stopped) (by simp)
  | found stage awake running empty =>
    refine ⟨⟨h.limit, h.running, h.bounded, h.fifo, fun hne => absurd empty hne, ?_⟩, hstill⟩
    intro _ hwake
    cases hwake
  | take job jobs stage awake running front => exact ⟨h.take awake front, hstill⟩
  | sleep stage awake unset running =>
    refine ⟨⟨h.limit, h.running, h.bounded, h.fifo, h.wake, ?_⟩, fun _ _ => h.empty unset⟩
    intro _ hwake
    exact absurd (unset.symm.trans hwake) (by simp)
  | serve a exec serving step => exact ⟨h.of_same (serve_same serving step), hstill⟩

/-- What a step takes off the queue: the front job, if the worker is in its critical section. -/
def taking (a : Action) (jobs : List OrderJob) : List OrderJob :=
  match a with
  | .worker => jobs.take 1
  | _ => []

lemma MailboxInv.taken {a : Action} (h : m.MailboxInv queueLimit) (hs : m.step cfg a = some m') :
    m'.taken = m.taken ++ taking a m.exec.jobs := by
  cases step_moves hs with
  | stopped stage awake stopped => exact absurd (h.running.symm.trans stopped) (by simp)
  | found stage awake running empty =>
    rw [taking, empty, List.take_nil, List.append_nil]
  | take job jobs stage awake running front =>
    rw [taking, front]
    rfl
  | sleep stage awake unset running =>
    rw [taking, h.empty unset, List.take_nil, List.append_nil]
  | _ => exact (List.append_nil _).symm

/-- The job in front of the queue is taken by the next critical section, which is possible at once or,
where the worker sleeps, after a notification that is about to come. -/
def FrontTaken (cfg : Config) (m : CTraderMailbox) : Prop :=
  ∃ s t, (s = m ∨ m.step cfg .notify = some s) ∧ s.step cfg .worker = some t ∧
    t.taken = m.taken ++ m.exec.jobs.take 1 ∧ t.exec.jobs = m.exec.jobs.drop 1

lemma MailboxInv.worker_takes (h : m.MailboxInv queueLimit) (hidle : m.exec.stage = .idle)
    (hawake : m.blocked = false) :
    ∃ t, m.step cfg .worker = some t ∧ t.taken = m.taken ++ m.exec.jobs.take 1 ∧
      t.exec.jobs = m.exec.jobs.drop 1 := by
  obtain ⟨t, ht⟩ : ∃ t, m.step cfg .worker = some t := by
    rw [CTraderMailbox.step, hidle]
    exact ⟨m.worker, if_neg (by simp [hawake])⟩
  refine ⟨t, ht, h.taken ht, ?_⟩
  cases step_moves ht with
  | stopped stage awake stopped => exact absurd (h.running.symm.trans stopped) (by simp)
  | found stage awake running empty =>
    show m.exec.jobs = m.exec.jobs.drop 1
    rw [empty, List.drop_nil]
  | take job jobs stage awake running front =>
    rw [front]
    exact (take_of_cons h.running front).jobs
  | sleep stage awake unset running =>
    show m.exec.jobs = m.exec.jobs.drop 1
    rw [h.empty unset, List.drop_nil]

lemma MailboxInv.frontTaken (h : m.MailboxInv queueLimit) (hidle : m.exec.stage = .idle)
    (hne : m.exec.jobs ≠ []) : m.FrontTaken cfg := by
  cases hblocked : m.blocked with
  | false =>
    obtain ⟨t, ht, htaken, hjobs⟩ := h.worker_takes hidle hblocked
    exact ⟨m, t, .inl rfl, ht, htaken, hjobs⟩
  | true =>
    have hnotify : m.step cfg .notify =
        some { m with notifying := m.notifying - 1, blocked := false } :=
      if_pos (h.roused hblocked (h.wake hne))
    obtain ⟨t, ht, htaken, hjobs⟩ := (h.step hnotify).1.worker_takes hidle rfl
    exact ⟨_, t, .inr hnotify, ht, htaken, hjobs⟩

lemma init_mailboxInv (cfg : Config) (queueLimit : Nat) :
    (machine cfg queueLimit).init.MailboxInv queueLimit :=
  ⟨rfl, rfl, Nat.zero_le _, rfl, fun h => absurd rfl h, fun h => by cases h⟩

/-- A step of the mailbox is at most one step of the executor without one. -/
lemma step_exec {a : Action} (hs : m.step cfg a = some m') :
    m'.exec = m.exec ∨ ∃ b, m.exec.step cfg b = some m'.exec := by
  have htake : m.exec.stage = .idle → m.exec.step cfg .take = some m.exec.take := by
    intro hstage
    simp [CTraderExecutor.step, hstage]
  cases step_moves hs with
  | start => exact .inr ⟨.start, rfl⟩
  | execute job => exact .inr ⟨.execute job, rfl⟩
  | stopped stage => exact .inr ⟨.take, htake stage⟩
  | take job jobs stage => exact .inr ⟨.take, htake stage⟩
  | serve a exec serving step => exact .inr ⟨a, step⟩
  | _ => exact .inl rfl

/-- The executor of the mailbox runs as the executor without one does. -/
theorem exec_runs (cfg : Config) (queueLimit : Nat) {run : List Action} {m : CTraderMailbox}
    (hrun : (machine cfg queueLimit).run (machine cfg queueLimit).init run = some m) :
    ∃ steps, (CTraderExecutor.machine cfg).run { queueLimit := queueLimit } steps = some m.exec := by
  induction run using List.reverseRecOn generalizing m with
  | nil =>
    obtain rfl := Option.some.inj hrun
    exact ⟨[], rfl⟩
  | append_singleton run a ih =>
    obtain ⟨s, hs, hstep⟩ := (machine cfg queueLimit).run_concat_eq_some.mp hrun
    obtain ⟨steps, hsteps⟩ := ih hs
    obtain hsame | ⟨b, hb⟩ := step_exec hstep
    · exact ⟨steps, hsame ▸ hsteps⟩
    · exact ⟨steps ++ [b], (CTraderExecutor.machine cfg).run_concat_eq_some.mpr ⟨s.exec, hsteps, hb⟩⟩

/-- In every run, for every queue limit: the queue is bounded, the worker takes what was accepted in that
order and each job once, it goes to sleep only when the queue is empty, and while it sleeps with a job in
the queue a caller is about to notify it. Every pass through its critical section takes the front job, and
where it stands before one with a job in the queue the pass is possible, at once or after that
notification. -/
theorem mailbox_never_stranded (cfg : Config) (queueLimit : Nat) (run : List Action) :
    (machine cfg queueLimit).Always run (fun s a t =>
      t.exec.jobs.length ≤ queueLimit ∧ t.accepted = t.taken ++ t.exec.jobs ∧
        (s.blocked = false → t.blocked = true → t.exec.jobs = []) ∧
        (t.blocked = true → t.exec.jobs ≠ [] → 0 < t.notifying) ∧
        t.taken = s.taken ++ taking a s.exec.jobs ∧
        (t.exec.stage = .idle → t.exec.jobs ≠ [] → t.FrontTaken cfg)) := by
  intro pre a s t hpre hs ht
  have hI : s.MailboxInv queueLimit :=
    (machine cfg queueLimit).invariant (init_mailboxInv cfg queueLimit)
      (fun _ _ _ _ hI hs => (hI.step hs).1) ⟨pre, hs⟩
  obtain ⟨hinv, hsleep⟩ := hI.step ht
  exact ⟨hinv.bounded, hinv.fifo, hsleep, fun hblocked hne => hinv.roused hblocked (hinv.wake hne),
    hI.taken ht, hinv.frontTaken⟩

def goldJob : OrderJob :=
  { symbol := "XAU/USD", side := "buy", volume := 1, stoplossPips := 20, takeprofitPips := 40 }

/-- The worker sleeps when two jobs arrive at a queue of one. The second is dropped, and the worker, once
notified, takes the first. -/
theorem sleeping_worker_takes_job :
    ∃ s t, (machine {} 1).run (machine {} 1).init
        [.start, .worker, .execute goldJob, .execute { goldJob with side := "sell" }, .notify] = some s ∧
      s.exec.jobs = [goldJob] ∧ s.taken = [] ∧ s.step {} .worker = some t ∧ t.taken = [goldJob] ∧
      t.exec.jobs = [] := by
  refine ⟨_, _, rfl, rfl, rfl, rfl, ?_, rfl⟩
  have hsteps := mailbox_never_stranded {} 1
    [.start, .worker, .execute goldJob, .execute { goldJob with side := "sell" }, .notify, .worker]
  exact (hsteps [.start, .worker, .execute goldJob, .execute { goldJob with side := "sell" }, .notify]
    .worker _ _ List.prefix_rfl rfl rfl).2.2.2.2.1

end CTraderMailbox

end LatencyArb
