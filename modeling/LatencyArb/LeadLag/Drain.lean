import LatencyArb.LeadLag.Workers

/-!
# The queue of the FXCM executor is drained (`submit`, `stop` and the wait of `worker_loop`)

The executor after `start`, with the condition variable of its queue and a record of what becomes of the
signals. A worker finishes only when it finds the queue empty after `stop` was called, so that the signals
submitted before have all been taken.
-/

namespace LatencyArb

namespace LeadLag

/-- The signal that a worker has taken and not executed to its end. -/
def Stage.inHand : Stage → List Signal
  | .gate s => [s]
  | .passed s => [s]
  | .placing o => [o.signal]
  | _ => []

/-- More than the steps of a worker until it waits for the next signal. -/
def Stage.work : Stage → Nat
  | .unstarted => 2
  | .waiting => 1
  | .gate _ => 6
  | .passed _ => 5
  | .placing o => o.left + 2
  | .finished => 0

inductive QueueEvent (n : Nat) where
  | submitted (s : Signal)
  | stopCalled
  | taken (w : Fin n) (s : Signal)
  | executed (w : Fin n) (s : Signal)

/-- `asleep` are the workers asleep in `cv_.wait`, `notifying` and `notifyingAll` the callers of `submit`
and of `stop` that have released the mutex and not yet notified. `log` only records the run. -/
structure FXCMQueue (n : Nat) where
  exec : FXCMExecutor n := {}
  asleep : Fin n → Bool := fun _ => false
  notifying : Nat := 0
  notifyingAll : Nat := 0
  log : List (QueueEvent n) := []

namespace FXCMQueue

/-- `notifyOne none` is a notification that finds nobody asleep. -/
inductive Action (n : Nat) where
  | act (a : LeadLag.Action n)
  | sleep (w : Fin n)
  | notifyOne (w : Option (Fin n))
  | notifyAll
  | wakeUp (w : Fin n)

variable {n : Nat}

/-! ## The record -/

def submitted (log : List (QueueEvent n)) : List Signal :=
  log.filterMap (fun event => match event with | .submitted s => some s | _ => none)

def taken (log : List (QueueEvent n)) : List (Fin n × Signal) :=
  log.filterMap (fun event => match event with | .taken w s => some (w, s) | _ => none)

def executed (log : List (QueueEvent n)) : List (Fin n × Signal) :=
  log.filterMap (fun event => match event with | .executed w s => some (w, s) | _ => none)

def ofWorker (w : Fin n) (entries : List (Fin n × Signal)) : List (Fin n × Signal) :=
  entries.filter (fun entry => decide (entry.1 = w))

def isStop : QueueEvent n → Bool
  | .stopCalled => true
  | _ => false

/-- The signals submitted before the first call of `stop`. -/
def submittedBeforeStop (log : List (QueueEvent n)) : List Signal :=
  submitted (log.takeWhile (fun event => !isStop event))

/-! ## The steps -/

def events (cfg : Config) (e : FXCMExecutor n) : LeadLag.Action n → List (QueueEvent n)
  | .submit s => [.submitted s]
  | .stop => [.stopCalled]
  | .take w => e.queue.head?.toList.map (QueueEvent.taken w)
  | .load w =>
    match e.workers w with
    | .gate s => if skips cfg e.openPositions then [.executed w s] else []
    | _ => []
  | .sub w =>
    match e.workers w with
    | .placing o => [.executed w o.signal]
    | _ => []
  | _ => []

/-- A worker asleep does not look at the queue. -/
def mayAct (q : FXCMQueue n) : LeadLag.Action n → Bool
  | .take w => !q.asleep w
  | _ => true

section

variable (parse : List UInt8 → Option Json) (dump : Json → List UInt8) (cfg : Config)

/-- A step of the executor; `submit` and `stop` notify after it. -/
def act (q : FXCMQueue n) (a : LeadLag.Action n) (e : FXCMExecutor n) : FXCMQueue n :=
  { q with
    exec := e
    notifying := match a with | .submit _ => q.notifying + 1 | _ => q.notifying
    notifyingAll := match a with | .stop => q.notifyingAll + 1 | _ => q.notifyingAll
    log := q.log ++ events cfg q.exec a }

/-- The predicate of the wait is false. -/
def waits (q : FXCMQueue n) : Bool := q.exec.queue.isEmpty && !q.exec.stopping

def rouse (q : FXCMQueue n) (w : Fin n) : FXCMQueue n :=
  { q with asleep := Function.update q.asleep w false }

def step (q : FXCMQueue n) : Action n → Option (FXCMQueue n)
  | .act a =>
    if q.mayAct a then (q.exec.step parse dump cfg a).map (q.act cfg a) else none
  | .sleep w =>
    match q.exec.workers w with
    | .waiting =>
      if !q.asleep w && q.waits then some { q with asleep := Function.update q.asleep w true } else none
    | _ => none
  | .notifyOne (some w) =>
    if 0 < q.notifying ∧ q.asleep w then some { q.rouse w with notifying := q.notifying - 1 } else none
  | .notifyOne none =>
    if 0 < q.notifying ∧ ∀ w, q.asleep w = false then some { q with notifying := q.notifying - 1 } else none
  | .notifyAll =>
    if 0 < q.notifyingAll then
      some { q with asleep := fun _ => false, notifyingAll := q.notifyingAll - 1 }
    else none
  | .wakeUp w => if q.asleep w then some (q.rouse w) else none

/-- What a step can do. -/
inductive Moves (q : FXCMQueue n) : Action n → FXCMQueue n → Prop where
  | act (a : LeadLag.Action n) (e : FXCMExecutor n) (may : q.mayAct a = true)
      (exec : q.exec.step parse dump cfg a = some e) : Moves q (.act a) (q.act cfg a e)
  | sleep (w : Fin n) (stage : q.exec.workers w = .waiting) (empty : q.exec.queue = [])
      (running : q.exec.stopping = false) :
      Moves q (.sleep w) { q with asleep := Function.update q.asleep w true }
  | notifyNobody (pending : 0 < q.notifying) (nobody : ∀ w, q.asleep w = false) :
      Moves q (.notifyOne none) { q with notifying := q.notifying - 1 }
  | notifyOne (w : Fin n) (pending : 0 < q.notifying) (asleep : q.asleep w = true) :
      Moves q (.notifyOne (some w)) { q.rouse w with notifying := q.notifying - 1 }
  | notifyAll (pending : 0 < q.notifyingAll) :
      Moves q .notifyAll { q with asleep := fun _ => false, notifyingAll := q.notifyingAll - 1 }
  | wakeUp (w : Fin n) (asleep : q.asleep w = true) : Moves q (.wakeUp w) (q.rouse w)

/-- The executor once `start` has started its workers. -/
def started (n : Nat) : FXCMExecutor n := { workers := fun _ => .waiting }

def machine (n : Nat) : Machine (FXCMQueue n) (Action n) where
  init := { exec := started n }
  step := step parse dump cfg

/-- `start` goes from worker to worker. -/
lemma run_start (n : Nat) :
    (FXCMExecutor.machine parse dump cfg n).run {} ((List.finRange n).map .start) = some (started n) := by
  have hrun : ∀ (ws : List (Fin n)), ws.Nodup → ∀ e : FXCMExecutor n,
      (∀ w ∈ ws, e.workers w = .unstarted) →
      (FXCMExecutor.machine parse dump cfg n).run e (ws.map .start) =
        some { e with workers := fun w => if w ∈ ws then .waiting else e.workers w } := by
    intro ws
    induction ws with
    | nil =>
      intro _ e _
      simp
    | cons w ws ih =>
      intro hnodup e hunstarted
      obtain ⟨hnot, hrest⟩ := List.nodup_cons.mp hnodup
      have hstep : (FXCMExecutor.machine parse dump cfg n).step e (.start w) =
          some (e.put w .waiting) := by
        simp [FXCMExecutor.machine, FXCMExecutor.step, hunstarted w List.mem_cons_self]
      rw [List.map_cons, Machine.run_cons, hstep, Option.bind_some, ih hrest]
      · have hworkers : ∀ v, (if v ∈ ws then Stage.waiting else (e.put w .waiting).workers v) =
            if v ∈ w :: ws then .waiting else e.workers v := by
          intro v
          by_cases hv : v = w
          · subst hv
            simp
          · simp [FXCMExecutor.put, hv]
        simp only [hworkers]
        rfl
      · intro v hv
        have hne : v ≠ w := fun h => hnot (h ▸ hv)
        simp only [FXCMExecutor.put, Function.update_of_ne hne]
        exact hunstarted v (List.mem_cons_of_mem w hv)
  rw [hrun _ (List.nodup_finRange n) _ (fun _ _ => rfl)]
  simp [started]

end

variable {parse : List UInt8 → Option Json} {dump : Json → List UInt8} {cfg : Config}

theorem step_moves {q q' : FXCMQueue n} {a : Action n} (hs : q.step parse dump cfg a = some q') :
    Moves parse dump cfg q a q' := by
  cases a with
  | act a =>
    simp only [step] at hs
    split at hs
    · obtain ⟨e, he, rfl⟩ := Option.map_eq_some_iff.mp hs
      exact .act a e ‹_› he
    · cases hs
  | sleep w =>
    simp only [step] at hs
    split at hs
    · split at hs <;> cases hs
      rename_i hstage hsleep
      simp only [waits, Bool.and_eq_true, Bool.not_eq_true', List.isEmpty_iff] at hsleep
      exact .sleep w hstage hsleep.2.1 hsleep.2.2
    · cases hs
  | notifyOne w =>
    cases w with
    | none =>
      simp only [step] at hs
      split at hs <;> cases hs
      rename_i hnobody
      exact .notifyNobody hnobody.1 hnobody.2
    | some w =>
      simp only [step] at hs
      split at hs <;> cases hs
      rename_i hasleep
      exact .notifyOne w hasleep.1 hasleep.2
  | notifyAll =>
    simp only [step] at hs
    split at hs <;> cases hs
    exact .notifyAll ‹_›
  | wakeUp w =>
    simp only [step] at hs
    split at hs <;> cases hs
    exact .wakeUp w ‹_›

/-! ## What the record says -/

structure DrainInv (e : FXCMExecutor n) (log : List (QueueEvent n)) : Prop where
  started : ∀ w, e.workers w ≠ .unstarted
  fifo : submitted log = (taken log).map Prod.snd ++ e.queue
  busy : ∀ w, ofWorker w (taken log) = ofWorker w (executed log) ++ (e.workers w).inHand.map (Prod.mk w)
  stopping : e.stopping = log.any isStop
  finished : ∀ w, e.workers w = .finished →
    e.stopping = true ∧ submittedBeforeStop log <+: (taken log).map Prod.snd

variable {e e' : FXCMExecutor n} {log : List (QueueEvent n)}

lemma submitted_append (log log' : List (QueueEvent n)) :
    submitted (log ++ log') = submitted log ++ submitted log' := List.filterMap_append

lemma taken_append (log log' : List (QueueEvent n)) : taken (log ++ log') = taken log ++ taken log' :=
  List.filterMap_append

lemma executed_append (log log' : List (QueueEvent n)) :
    executed (log ++ log') = executed log ++ executed log' := List.filterMap_append

lemma ofWorker_append (w : Fin n) (entries entries' : List (Fin n × Signal)) :
    ofWorker w (entries ++ entries') = ofWorker w entries ++ ofWorker w entries' := List.filter_append ..

lemma ofWorker_own (w : Fin n) (signals : List Signal) :
    ofWorker w (signals.map (Prod.mk w)) = signals.map (Prod.mk w) := by
  simp [ofWorker]

lemma ofWorker_other {v w : Fin n} (h : v ≠ w) (signals : List Signal) :
    ofWorker v (signals.map (Prod.mk w)) = [] := by
  simp [ofWorker, h.symm]

lemma submittedBeforeStop_first (log : List (QueueEvent n)) : submittedBeforeStop log <+: submitted log :=
  (List.takeWhile_prefix _).filterMap _

/-- What comes after a call of `stop` was not submitted before it. -/
lemma submittedBeforeStop_append (h : log.any isStop = true) (log' : List (QueueEvent n)) :
    submittedBeforeStop (log ++ log') = submittedBeforeStop log := by
  obtain ⟨event, hmem, hstop⟩ := List.any_eq_true.mp h
  have hshort : (log.takeWhile (fun event => !isStop event)).length ≠ log.length := by
    intro hlength
    have hall := List.takeWhile_eq_self_iff.mp
      ((List.takeWhile_prefix (fun event => !isStop event)).eq_of_length hlength)
    simpa [hstop] using hall event hmem
  unfold submittedBeforeStop
  rw [List.takeWhile_append, if_neg hshort]

/-! ## What a step keeps -/

lemma DrainInv.mono (h : DrainInv e log) {log' : List (QueueEvent n)} {w : Fin n}
    (hw : e.workers w = .finished) :
    submittedBeforeStop (log ++ log') <+: (taken (log ++ log')).map Prod.snd := by
  obtain ⟨hstopping, hprefix⟩ := h.finished w hw
  rw [submittedBeforeStop_append (h.stopping ▸ hstopping), taken_append, List.map_append]
  exact hprefix.trans (List.prefix_append _ _)

/-- A worker that goes on: what it has in hand is what it took and has not executed. -/
lemma DrainInv.goOn (h : DrainInv e log) (ts es : List Signal) {log' : List (QueueEvent n)} {w : Fin n}
    {stage : Stage} (hworkers : e'.workers = Function.update e.workers w stage)
    (hstopping : e'.stopping = e.stopping) (hsubmitted : submitted log' = [])
    (htaken : taken log' = ts.map (Prod.mk w)) (hexecuted : executed log' = es.map (Prod.mk w))
    (hstop : log'.any isStop = false) (hqueue : e.queue = ts ++ e'.queue)
    (hinHand : (e.workers w).inHand ++ ts = es ++ stage.inHand) (hstarted : stage ≠ .unstarted)
    (hfinished : stage = .finished → e.stopping = true ∧ e.queue = []) : DrainInv e' (log ++ log') := by
  have hother : ∀ {v}, v ≠ w → e'.workers v = e.workers v := by
    intro v hv
    rw [hworkers, Function.update_of_ne hv]
  have hown : e'.workers w = stage := by
    rw [hworkers, Function.update_self]
  refine ⟨?_, ?_, ?_, ?_, ?_⟩
  · intro v
    by_cases hv : v = w
    · rw [hv, hown]
      exact hstarted
    · rw [hother hv]
      exact h.started v
  · have hsnd : (ts.map (Prod.mk w)).map Prod.snd = ts := by simp
    rw [submitted_append, hsubmitted, List.append_nil, h.fifo, taken_append, htaken, List.map_append,
      hsnd, hqueue, List.append_assoc]
  · intro v
    rw [taken_append, executed_append, ofWorker_append, ofWorker_append, h.busy v, htaken, hexecuted]
    by_cases hv : v = w
    · subst hv
      rw [ofWorker_own, ofWorker_own, hown, List.append_assoc, ← List.map_append, hinHand,
        List.map_append, List.append_assoc]
    · rw [ofWorker_other hv, ofWorker_other hv, hother hv, List.append_nil, List.append_nil]
  · rw [hstopping, h.stopping, List.any_append, hstop, Bool.or_false]
  · intro v hfin
    by_cases hv : v = w
    · subst hv
      rw [hown] at hfin
      obtain ⟨hs, hempty⟩ := hfinished hfin
      have hfifo := h.fifo
      rw [hempty, List.append_nil] at hfifo
      refine ⟨hstopping.trans hs, ?_⟩
      rw [submittedBeforeStop_append (h.stopping ▸ hs), taken_append, List.map_append, ← hfifo]
      exact (submittedBeforeStop_first log).trans (List.prefix_append _ _)
    · rw [hother hv] at hfin
      exact ⟨hstopping.trans (h.finished v hfin).1, h.mono hfin⟩

lemma post_signal (o : Order) (answer : Exchange) : (o.post parse dump cfg answer).signal = o.signal := by
  unfold Order.post
  dsimp only
  split <;> rfl

/-- A step that leaves the workers and the queue alone. -/
lemma DrainInv.aside (h : DrainInv e log) (hworkers : e'.workers = e.workers) (hqueue : e'.queue = e.queue)
    (hstopping : e'.stopping = e.stopping) : DrainInv e' log := by
  refine ⟨?_, ?_, ?_, ?_, ?_⟩
  · rw [hworkers]
    exact h.started
  · rw [hqueue]
    exact h.fifo
  · rw [hworkers]
    exact h.busy
  · rw [hstopping]
    exact h.stopping
  · rw [hworkers, hstopping]
    exact h.finished

/-- An event that is neither a signal taken nor one executed. -/
lemma DrainInv.busy_append (h : DrainInv e log) {log' : List (QueueEvent n)} (htaken : taken log' = [])
    (hexecuted : executed log' = []) (w : Fin n) :
    ofWorker w (taken (log ++ log')) =
      ofWorker w (executed (log ++ log')) ++ (e.workers w).inHand.map (Prod.mk w) := by
  rw [taken_append, executed_append, htaken, hexecuted, List.append_nil, List.append_nil]
  exact h.busy w

lemma DrainInv.submit (h : DrainInv e log) (s : Signal) :
    DrainInv (e.submit s) (log ++ [.submitted s]) := by
  have htaken : taken [QueueEvent.submitted (n := n) s] = [] := rfl
  have hstop : [QueueEvent.submitted (n := n) s].any isStop = false := rfl
  refine ⟨h.started, ?_, h.busy_append rfl rfl, ?_, ?_⟩
  · rw [submitted_append, taken_append, h.fifo, htaken, List.append_nil, List.append_assoc]
    rfl
  · rw [List.any_append, hstop, Bool.or_false]
    exact h.stopping
  · intro w hw
    exact ⟨(h.finished w hw).1, h.mono hw⟩

lemma DrainInv.stop (h : DrainInv e log) :
    DrainInv { e with stopping := true } (log ++ [.stopCalled]) := by
  have hsubmitted : submitted [QueueEvent.stopCalled (n := n)] = [] := rfl
  have htaken : taken [QueueEvent.stopCalled (n := n)] = [] := rfl
  refine ⟨h.started, ?_, h.busy_append rfl rfl, ?_, ?_⟩
  · rw [submitted_append, taken_append, hsubmitted, htaken, List.append_nil, List.append_nil]
    exact h.fifo
  · simp [isStop]
  · intro w hw
    exact ⟨rfl, h.mono hw⟩

theorem DrainInv.step {a : LeadLag.Action n} (h : DrainInv e log)
    (hs : e.step parse dump cfg a = some e') : DrainInv e' (log ++ events cfg e a) := by
  cases FXCMExecutor.step_moves hs with
  | start w stage => exact absurd stage (h.started w)
  | submit s => exact h.submit s
  | stop => exact h.stop
  | stopped stopping joined =>
    have hevents : events cfg e .stopped = [] := rfl
    rw [hevents, List.append_nil]
    exact h
  | take w s queue stage front =>
    have hevents : events cfg e (.take w) = [.taken w s] := by simp [events, front]
    rw [hevents]
    exact h.goOn [s] [] rfl rfl rfl rfl rfl rfl front (by rw [stage]; rfl) (by simp)
      (by simp)
  | finish w stage empty stopping =>
    have hevents : events cfg e (.take w) = [] := by simp [events, empty]
    rw [hevents]
    exact h.goOn [] [] rfl rfl rfl rfl rfl rfl rfl (by rw [stage]; rfl) (by simp)
      (fun _ => ⟨stopping, empty⟩)
  | skip w s stage skipped =>
    have hevents : events cfg e (.load w) = [.executed w s] := by simp [events, stage, skipped]
    rw [hevents]
    exact h.goOn [] [s] rfl rfl rfl rfl rfl rfl rfl (by rw [stage]; rfl) (by simp)
      (by simp)
  | pass w s stage passed =>
    have hevents : events cfg e (.load w) = [] := by simp [events, stage, passed]
    rw [hevents]
    exact h.goOn [] [] rfl rfl rfl rfl rfl rfl rfl (by rw [stage]; rfl) (by simp)
      (by simp)
  | add w s stage =>
    exact h.goOn [] [] rfl rfl rfl rfl rfl rfl rfl (by rw [stage]; rfl) (by simp)
      (by simp)
  | post w o answer stage goesOn =>
    refine h.goOn [] [] rfl rfl rfl rfl rfl rfl rfl ?_ (by simp) (by simp)
    rw [stage]
    simp [Stage.inHand, post_signal]
  | sub w o stage done =>
    have hevents : events cfg e (.sub w) = [.executed w o.signal] := by simp [events, stage]
    rw [hevents]
    exact h.goOn [] [o.signal] rfl rfl rfl rfl rfl rfl rfl (by rw [stage]; rfl) (by simp)
      (by simp)
  | close i accepted =>
    have hevents : events cfg e (.close i) = [] := rfl
    rw [hevents, List.append_nil]
    exact h.aside rfl rfl rfl

/-! ## Who can go on -/

/-- A sleeping worker is waiting. While a signal is in the queue a worker is awake or about to be
notified, and so are all of them once `stop` was called. -/
structure RousedInv (q : FXCMQueue (n + 1)) : Prop where
  asleep : ∀ w, q.asleep w = true → q.exec.workers w = .waiting
  roused : q.exec.queue ≠ [] → 0 < q.notifying ∨ ∃ w, q.asleep w = false
  stopping : q.exec.stopping = true → 0 < q.notifyingAll ∨ ∀ w, q.asleep w = false

/-- The steps of the workers and of the notifications; the others are those of the callers and of the
broker. -/
def own : Action n → Bool
  | .act (.submit _) => false
  | .act .stop => false
  | .act .stopped => false
  | .act (.close _) => false
  | _ => true

/-- What the steps of the executor leave to the condition variable. -/
lemma exec_keeps {a : LeadLag.Action n} (hs : e.step parse dump cfg a = some e') :
    (e'.stopping = true → e.stopping = true ∨ a = .stop) ∧
      (e'.queue ≠ [] → e.queue ≠ [] ∨ ∃ s, a = .submit s) ∧
      (∀ w, e.workers w = .waiting → e'.workers w = .waiting ∨ a = .take w) := by
  have hput : ∀ {w v : Fin n} {old stage : Stage}, e.workers w = old → old ≠ .waiting →
      e.workers v = .waiting → Function.update e.workers w stage v = .waiting := by
    intro w v old stage hold hnot hv
    have hne : v ≠ w := by
      rintro rfl
      exact hnot (hold.symm.trans hv)
    rw [Function.update_of_ne hne]
    exact hv
  have htake : ∀ {w v : Fin n} {stage : Stage}, e.workers v = .waiting →
      Function.update e.workers w stage v = .waiting ∨ LeadLag.Action.take w = .take v := by
    intro w v stage hv
    by_cases hne : v = w
    · exact .inr (hne ▸ rfl)
    · exact .inl (by rw [Function.update_of_ne hne]; exact hv)
  cases FXCMExecutor.step_moves hs with
  | start w stage => exact ⟨.inl, .inl, fun v hv => .inl (hput stage (by simp) hv)⟩
  | submit s => exact ⟨.inl, fun _ => .inr ⟨s, rfl⟩, fun v hv => .inl hv⟩
  | stop => exact ⟨fun _ => .inr rfl, .inl, fun v hv => .inl hv⟩
  | stopped stopping joined => exact ⟨.inl, .inl, fun v hv => .inl hv⟩
  | take w s queue stage front => exact ⟨.inl, fun _ => .inl (by simp [front]), fun v hv => htake hv⟩
  | finish w stage empty stopping => exact ⟨.inl, .inl, fun v hv => htake hv⟩
  | skip w s stage skipped => exact ⟨.inl, .inl, fun v hv => .inl (hput stage (by simp) hv)⟩
  | pass w s stage passed => exact ⟨.inl, .inl, fun v hv => .inl (hput stage (by simp) hv)⟩
  | add w s stage => exact ⟨.inl, .inl, fun v hv => .inl (hput stage (by simp) hv)⟩
  | post w o answer stage goesOn => exact ⟨.inl, .inl, fun v hv => .inl (hput stage (by simp) hv)⟩
  | sub w o stage done => exact ⟨.inl, .inl, fun v hv => .inl (hput stage (by simp) hv)⟩
  | close i accepted => exact ⟨.inl, .inl, fun v hv => .inl hv⟩

variable {q q' : FXCMQueue (n + 1)}

lemma RousedInv.act {a : LeadLag.Action (n + 1)} {e : FXCMExecutor (n + 1)} (h : RousedInv q)
    (hmay : q.mayAct a = true) (hs : q.exec.step parse dump cfg a = some e) :
    RousedInv (q.act cfg a e) := by
  obtain ⟨hstopping, hqueue, hwaiting⟩ := exec_keeps hs
  have hone : q.notifying ≤ (q.act cfg a e).notifying := by
    cases a <;> simp [FXCMQueue.act]
  have hall : q.notifyingAll ≤ (q.act cfg a e).notifyingAll := by
    cases a <;> simp [FXCMQueue.act]
  refine ⟨?_, ?_, ?_⟩
  · intro w hw
    obtain hstill | rfl := hwaiting w (h.asleep w hw)
    · exact hstill
    · have hawake : q.asleep w = false := by simpa [mayAct] using hmay
      exact absurd (hw.symm.trans hawake) (by simp)
  · intro hne
    obtain hbefore | ⟨s, rfl⟩ := hqueue hne
    · obtain hnotifying | hawake := h.roused hbefore
      · exact .inl (by omega)
      · exact .inr hawake
    · exact .inl (Nat.succ_pos _)
  · intro hstop
    obtain hbefore | rfl := hstopping hstop
    · obtain hnotifying | hawake := h.stopping hbefore
      · exact .inl (by omega)
      · exact .inr hawake
    · exact .inl (Nat.succ_pos _)

lemma RousedInv.rouse (h : RousedInv q) (w : Fin (n + 1)) (k : Nat) :
    RousedInv { q.rouse w with notifying := k } := by
  have hother : ∀ v, (q.rouse w).asleep v = true → q.asleep v = true := by
    intro v hv
    by_cases hne : v = w
    · subst hne
      simp [FXCMQueue.rouse] at hv
    · simpa [FXCMQueue.rouse, hne] using hv
  refine ⟨fun v hv => h.asleep v (hother v hv), fun _ => .inr ⟨w, by simp [FXCMQueue.rouse]⟩, ?_⟩
  intro hstop
  apply (h.stopping hstop).imp_right
  intro hawake v
  rw [← Bool.not_eq_true]
  intro hv
  have hv := hother v hv
  rw [hawake v] at hv
  cases hv

lemma RousedInv.step {a : Action (n + 1)} (h : RousedInv q) (hs : q.step parse dump cfg a = some q') :
    RousedInv q' := by
  cases step_moves hs with
  | act a e may exec => exact h.act may exec
  | sleep w stage empty running =>
    refine ⟨?_, fun hne => absurd empty hne, fun hstop => absurd (hstop.symm.trans running) (by simp)⟩
    intro v hv
    by_cases hne : v = w
    · subst hne
      exact stage
    · exact h.asleep v (by simpa [hne] using hv)
  | notifyNobody pending nobody => exact ⟨h.asleep, fun _ => .inr ⟨0, nobody 0⟩, h.stopping⟩
  | notifyOne w pending asleep => exact h.rouse w _
  | notifyAll pending =>
    exact ⟨fun w hw => (by cases hw), fun _ => .inr ⟨0, rfl⟩, fun _ => .inr (fun _ => rfl)⟩
  | wakeUp w asleep => exact h.rouse w _

def work (q : FXCMQueue n) : Nat :=
  6 * q.exec.queue.length + Workers.total Stage.work q.exec.workers + q.notifying + q.notifyingAll +
    Workers.total Bool.toNat q.asleep

/-- The executor of the queue runs as the executor does once its workers are started. -/
theorem exec_runs (parse : List UInt8 → Option Json) (dump : Json → List UInt8) (cfg : Config)
    {run : List (Action n)} {q : FXCMQueue n}
    (hrun : (machine parse dump cfg n).run (machine parse dump cfg n).init run = some q) :
    ∃ steps, (FXCMExecutor.machine parse dump cfg n).run {} steps = some q.exec := by
  induction run using List.reverseRecOn generalizing q with
  | nil =>
    obtain rfl := Option.some.inj hrun
    exact ⟨_, run_start parse dump cfg n⟩
  | append_singleton run a ih =>
    obtain ⟨p, hp, hstep⟩ := (machine parse dump cfg n).run_concat_eq_some.mp hrun
    obtain ⟨steps, hsteps⟩ := ih hp
    cases step_moves hstep with
    | act a e may exec =>
      exact ⟨steps ++ [a],
        (FXCMExecutor.machine parse dump cfg n).run_concat_eq_some.mpr ⟨p.exec, hsteps, exec⟩⟩
    | _ => exact ⟨steps, hsteps⟩

end FXCMQueue

end LeadLag

end LatencyArb
