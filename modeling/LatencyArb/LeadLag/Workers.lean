import LatencyArb.LeadLag.Repost
import LatencyArb.Library.Machine
import LatencyArb.Library.Workers

/-!
# The workers of the FXCM executor

`worker_loop` and `execute` cut at their accesses to the queue and to `open_positions_`, with one post a
step. A label says which worker goes on and what the broker answers, or what the callers and the broker do.
-/

namespace LatencyArb

namespace LeadLag

/-- Where a worker stands: about to take a signal, about to load `open_positions_`, past that test and about
to add to it, or in the loop of `execute` (or behind it, about to subtract). -/
inductive Stage where
  | unstarted
  | waiting
  | gate (s : Signal)
  | passed (s : Signal)
  | placing (o : Order)
  | finished

def Stage.joined : Stage → Bool
  | .unstarted => true
  | .finished => true
  | _ => false

inductive Action (n : Nat) where
  | start (w : Fin n)
  | submit (s : Signal)
  | stop
  | stopped
  | take (w : Fin n)
  | load (w : Fin n)
  | add (w : Fin n)
  | post (w : Fin n) (answer : Exchange)
  | sub (w : Fin n)
  | close (i : Nat)

/-- The executor's state. `accepted` are the orders that the broker has accepted and not closed. -/
structure FXCMExecutor (n : Nat) where
  queue : List Signal := []
  stopping : Bool := false
  openPositions : Int := 0
  workers : Fin n → Stage := fun _ => .unstarted
  accepted : List PostResult := []

namespace FXCMExecutor

variable {n : Nat}

def put (e : FXCMExecutor n) (w : Fin n) (stage : Stage) : FXCMExecutor n :=
  { e with workers := Function.update e.workers w stage }

def submit (e : FXCMExecutor n) (s : Signal) : FXCMExecutor n := { e with queue := e.queue ++ [s] }

/-- The critical section of `worker_loop`; a worker that would block takes no step. -/
def take (e : FXCMExecutor n) (w : Fin n) : Option (FXCMExecutor n) :=
  match e.queue with
  | s :: queue => some { e.put w (.gate s) with queue := queue }
  | [] => if e.stopping then some (e.put w .finished) else none

section

variable (parse : List UInt8 → Option Json) (dump : Json → List UInt8) (cfg : Config)

def post (e : FXCMExecutor n) (w : Fin n) (o : Order) (answer : Exchange) : FXCMExecutor n :=
  let o := o.post parse dump cfg answer
  { e.put w (.placing o) with accepted := if o.placed then e.accepted ++ [o.last] else e.accepted }

def step (e : FXCMExecutor n) : Action n → Option (FXCMExecutor n)
  | .start w =>
    match e.workers w with
    | .unstarted => some (e.put w .waiting)
    | _ => none
  | .submit s => some (e.submit s)
  | .stop => some { e with stopping := true }
  | .stopped => if e.stopping ∧ ∀ w, (e.workers w).joined then some e else none
  | .take w =>
    match e.workers w with
    | .waiting => e.take w
    | _ => none
  | .load w =>
    match e.workers w with
    | .gate s => some (e.put w (if skips cfg e.openPositions then .waiting else .passed s))
    | _ => none
  | .add w =>
    match e.workers w with
    | .passed s => some { e.put w (.placing { signal := s }) with openPositions := e.openPositions + 1 }
    | _ => none
  | .post w answer =>
    match e.workers w with
    | .placing o => if o.open? then some (e.post parse dump cfg w o answer) else none
    | _ => none
  | .sub w =>
    match e.workers w with
    | .placing o =>
      if o.open? then none
      else some { e.put w .waiting with openPositions := e.openPositions - 1 }
    | _ => none
  | .close i => if i < e.accepted.length then some { e with accepted := e.accepted.eraseIdx i } else none

def machine (n : Nat) : Machine (FXCMExecutor n) (Action n) where
  init := {}
  step := step parse dump cfg

/-! ## What a step can do -/

inductive Moves (e : FXCMExecutor n) : Action n → FXCMExecutor n → Prop where
  | start (w : Fin n) (stage : e.workers w = .unstarted) : Moves e (.start w) (e.put w .waiting)
  | submit (s : Signal) : Moves e (.submit s) (e.submit s)
  | stop : Moves e .stop { e with stopping := true }
  | stopped (stopping : e.stopping = true) (joined : ∀ w, (e.workers w).joined = true) :
      Moves e .stopped e
  | take (w : Fin n) (s : Signal) (queue : List Signal) (stage : e.workers w = .waiting)
      (front : e.queue = s :: queue) : Moves e (.take w) { e.put w (.gate s) with queue := queue }
  | finish (w : Fin n) (stage : e.workers w = .waiting) (empty : e.queue = [])
      (stopping : e.stopping = true) : Moves e (.take w) (e.put w .finished)
  | skip (w : Fin n) (s : Signal) (stage : e.workers w = .gate s)
      (skipped : skips cfg e.openPositions = true) : Moves e (.load w) (e.put w .waiting)
  | pass (w : Fin n) (s : Signal) (stage : e.workers w = .gate s)
      (passed : skips cfg e.openPositions = false) : Moves e (.load w) (e.put w (.passed s))
  | add (w : Fin n) (s : Signal) (stage : e.workers w = .passed s) :
      Moves e (.add w) { e.put w (.placing { signal := s }) with openPositions := e.openPositions + 1 }
  | post (w : Fin n) (o : Order) (answer : Exchange) (stage : e.workers w = .placing o)
      (goesOn : o.open? = true) : Moves e (.post w answer) (e.post parse dump cfg w o answer)
  | sub (w : Fin n) (o : Order) (stage : e.workers w = .placing o) (done : o.open? = false) :
      Moves e (.sub w) { e.put w .waiting with openPositions := e.openPositions - 1 }
  | close (i : Nat) (accepted : i < e.accepted.length) :
      Moves e (.close i) { e with accepted := e.accepted.eraseIdx i }

end

variable {parse : List UInt8 → Option Json} {dump : Json → List UInt8} {cfg : Config}
  {e e' : FXCMExecutor n} {a : Action n}

lemma take_moves {w : Fin n} (hstage : e.workers w = .waiting) (hs : e.take w = some e') :
    Moves parse dump cfg e (.take w) e' := by
  unfold take at hs
  split at hs
  · rename_i s queue hqueue
    cases hs
    exact .take w s queue hstage hqueue
  · rename_i hempty
    split at hs
    · rename_i hstopping
      cases hs
      exact .finish w hstage hempty hstopping
    · cases hs

lemma load_moves {w : Fin n} (hs : e.step parse dump cfg (.load w) = some e') :
    Moves parse dump cfg e (.load w) e' := by
  simp only [step] at hs
  split at hs
  · rename_i s hstage
    cases hs
    cases hskips : skips cfg e.openPositions with
    | true => exact .skip w s hstage hskips
    | false => exact .pass w s hstage hskips
  · cases hs

theorem step_moves (hs : e.step parse dump cfg a = some e') : Moves parse dump cfg e a e' := by
  cases a with
  | start w =>
    simp only [step] at hs
    split at hs <;> cases hs
    exact .start w ‹_›
  | submit s =>
    cases hs
    exact .submit s
  | stop =>
    cases hs
    exact .stop
  | stopped =>
    simp only [step] at hs
    split at hs <;> cases hs
    rename_i hstopped
    exact .stopped hstopped.1 hstopped.2
  | take w =>
    simp only [step] at hs
    split at hs
    · exact take_moves ‹_› hs
    · cases hs
  | load w => exact load_moves hs
  | add w =>
    simp only [step] at hs
    split at hs <;> cases hs
    exact .add w _ ‹_›
  | post w answer =>
    simp only [step] at hs
    split at hs
    · split at hs <;> cases hs
      exact .post w _ answer ‹_› ‹_›
    · cases hs
  | sub w =>
    simp only [step] at hs
    split at hs
    · rename_i o hstage
      split at hs
      · cases hs
      · rename_i hdone
        cases hs
        exact .sub w o hstage (Bool.eq_false_iff.mpr hdone)
    · cases hs
  | close i =>
    simp only [step] at hs
    split at hs <;> cases hs
    exact .close i ‹_›

/-! ## A worker alone -/

@[simp] lemma put_workers (w : Fin n) (stage : Stage) : (e.put w stage).workers w = stage := by
  simp [put]

variable (parse dump cfg) in
/-- The posts of a worker go round the loop of `execute`. -/
lemma run_posts (answers : Nat → Exchange) (w : Fin n) (fuel : Nat) {o : Order}
    (hstage : e.workers w = .placing o) :
    ∃ as e', (machine parse dump cfg n).run e as = some e' ∧ (∀ a ∈ as, ∃ x, a = .post w x) ∧
      e'.workers w = .placing (Loop.run (Order.postNext parse dump cfg answers) fuel o) := by
  induction fuel generalizing e o with
  | zero => exact ⟨[], e, rfl, by simp, hstage⟩
  | succ fuel ih =>
    cases hopen : o.open? with
    | false => exact ⟨[], e, rfl, by simp, by rw [run_closed answers hopen, hstage]⟩
    | true =>
      obtain ⟨as, e', hrun, hposts, hfinal⟩ :=
        ih (e := e.post parse dump cfg w o (answers o.attempt)) (put_workers w _)
      refine ⟨.post w (answers o.attempt) :: as, e', ?_, ?_, ?_⟩
      · have hpost : (machine parse dump cfg n).step e (.post w (answers o.attempt)) =
            some (e.post parse dump cfg w o (answers o.attempt)) := by
          simp [machine, step, hstage, hopen]
        rw [Machine.run_cons, hpost]
        exact hrun
      · simpa using hposts
      · rw [hfinal, run_open answers hopen]

/-- A worker that nobody interrupts does what `execute` does. -/
theorem worker_executes {w : Fin n} {s : Signal} (hstage : e.workers w = .gate s)
    (hskips : skips cfg e.openPositions = false) (answers : Nat → Exchange) :
    ∃ as e' o, (machine parse dump cfg n).run e (.load w :: .add w :: as) = some e' ∧
      (∀ a ∈ as, ∃ x, a = .post w x) ∧ e'.workers w = .placing o ∧ o.open? = false ∧
      execute parse dump cfg e.openPositions s answers = o.events ++ [.trade o.telemetry] := by
  have hload : (machine parse dump cfg n).step e (.load w) = some (e.put w (.passed s)) := by
    simp [machine, step, hstage, hskips]
  have hadd : (machine parse dump cfg n).step (e.put w (.passed s)) (.add w) =
      some { (e.put w (.passed s)).put w (.placing { signal := s }) with
        openPositions := e.openPositions + 1 } := by
    simp only [machine, step, put_workers]
    rfl
  obtain ⟨as, e', hrun, hposts, hfinal⟩ := run_posts parse dump cfg
    (e := { (e.put w (.passed s)).put w (.placing { signal := s }) with
      openPositions := e.openPositions + 1 }) answers w kMaxAttempts (put_workers w _)
  refine ⟨as, e', _, ?_, hposts, hfinal, postNext_eq_none.mp (loop_ends s answers), ?_⟩
  · rw [Machine.run_cons, hload, Option.bind_some, Machine.run_cons, hadd]
    exact hrun
  · unfold execute
    rw [hskips]
    rfl

end FXCMExecutor

end LeadLag

end LatencyArb
