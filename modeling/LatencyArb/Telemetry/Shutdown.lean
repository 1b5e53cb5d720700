import LatencyArb.Library.Machine
import LatencyArb.Library.Mailbox

/-!
# The shutdown of the logger (`Telemetry::stop` and `writer_loop`)

`push` appends and notifies under the lock, and the writer tests and blocks under the lock. `stop` takes no
lock: it clears `running_` and notifies while the writer may stand between its test and its `wait`. A line is
written when `write_line` has been called with it, which itself writes nothing without a mapping or when that is
full.
-/

namespace LatencyArb

namespace Telemetry

abbrev Line := List UInt8

/-- Where the writer stands in `writer_loop`: in front of the lock, holding it after a test that failed, in
`wait`, with a line in hand, or past the loop. -/
inductive WriterPhase where
  | testing | blocking | asleep | writing | done
  deriving DecidableEq

/-- Where the caller of `stop` stands: not there yet, past the store, in `join`, or back. -/
inductive Stopper where
  | idle | stored | joining | returned
  deriving DecidableEq

/-- `promised` records what had been logged when `stop` was called. -/
structure Shutdown where
  running : Bool := true
  lines : Mailbox Line := {}
  writer : WriterPhase := .testing
  stopper : Stopper := .idle
  promised : List Line := []

inductive ShutdownAction where
  | push (line : Line)
  | test
  | block
  | spurious
  | write
  | store
  | notify
  | join

namespace Shutdown

/-- A notification, which finds the writer only if it is asleep. -/
def woken (s : Shutdown) : Shutdown := { s with writer := if s.writer = .asleep then .testing else s.writer }

/-- The writer takes the lock, evaluates the predicate of `wait` and goes on while it holds. -/
def testQueue (s : Shutdown) : Shutdown :=
  if s.lines.queue = [] then { s with writer := if s.running then .blocking else .done }
  else { s with lines := s.lines.take, writer := .writing }

def step (s : Shutdown) : ShutdownAction → Option Shutdown
  | .push line => if s.writer = .blocking then none else some { s.woken with lines := s.lines.push line }
  | .test => if s.writer = .testing then some s.testQueue else none
  | .block => if s.writer = .blocking then some { s with writer := .asleep } else none
  | .spurious => if s.writer = .asleep then some s.woken else none
  | .write => if s.writer = .writing then some { s with lines := s.lines.handle, writer := .testing } else none
  | .store =>
    if s.stopper = .idle then some { s with running := false, stopper := .stored, promised := s.lines.pushed }
    else none
  | .notify => if s.stopper = .stored then some { s.woken with stopper := .joining } else none
  | .join => if s.stopper = .joining ∧ s.writer = .done then some { s with stopper := .returned } else none

def machine : Machine Shutdown ShutdownAction where
  init := {}
  step := step

/-- What a step can do. -/
inductive Moves (s : Shutdown) : ShutdownAction → Shutdown → Prop where
  | push (line : Line) : Moves s (.push line) { s.woken with lines := s.lines.push line }
  | test (testing : s.writer = .testing) : Moves s .test s.testQueue
  | block (blocking : s.writer = .blocking) : Moves s .block { s with writer := .asleep }
  | spurious : Moves s .spurious s.woken
  | write (writing : s.writer = .writing) :
      Moves s .write { s with lines := s.lines.handle, writer := .testing }
  | store (idle : s.stopper = .idle) :
      Moves s .store { s with running := false, stopper := .stored, promised := s.lines.pushed }
  | notify (stored : s.stopper = .stored) : Moves s .notify { s.woken with stopper := .joining }
  | join (joining : s.stopper = .joining) (done : s.writer = .done) : Moves s .join { s with stopper := .returned }

lemma step_moves {s t : Shutdown} {a : ShutdownAction} (hstep : machine.step s a = some t) : s.Moves a t := by
  cases a with
  | push line =>
    obtain ⟨-, ht⟩ := Option.ite_none_left_eq_some.mp hstep
    exact Option.some.inj ht ▸ .push line
  | test =>
    obtain ⟨htesting, ht⟩ := Option.ite_none_right_eq_some.mp hstep
    exact Option.some.inj ht ▸ .test htesting
  | block =>
    obtain ⟨hblocking, ht⟩ := Option.ite_none_right_eq_some.mp hstep
    exact Option.some.inj ht ▸ .block hblocking
  | spurious =>
    obtain ⟨-, ht⟩ := Option.ite_none_right_eq_some.mp hstep
    exact Option.some.inj ht ▸ .spurious
  | write =>
    obtain ⟨hwriting, ht⟩ := Option.ite_none_right_eq_some.mp hstep
    exact Option.some.inj ht ▸ .write hwriting
  | store =>
    obtain ⟨hidle, ht⟩ := Option.ite_none_right_eq_some.mp hstep
    exact Option.some.inj ht ▸ .store hidle
  | notify =>
    obtain ⟨hstored, ht⟩ := Option.ite_none_right_eq_some.mp hstep
    exact Option.some.inj ht ▸ .notify hstored
  | join =>
    obtain ⟨⟨hjoining, hdone⟩, ht⟩ := Option.ite_none_right_eq_some.mp hstep
    exact Option.some.inj ht ▸ .join hjoining hdone

end Shutdown

namespace ShutdownAction

/-- The steps that the writer and the caller of `stop` take on their own. -/
def Own : ShutdownAction → Prop
  | .push _ | .spurious => False
  | _ => True

end ShutdownAction

namespace Shutdown

variable {s t : Shutdown} {a : ShutdownAction}

/-- Nothing is lost, the writer holds one line just while it writes, and when it is done it has written what was
logged before the call of `stop`. -/
structure Inv (s : Shutdown) : Prop where
  sound : s.lines.Sound
  holding : s.lines.batch.length = if s.writer = .writing then 1 else 0
  running : s.running = true ↔ s.stopper = .idle
  promised : s.promised <+: s.lines.pushed
  done : s.writer = .done → s.stopper ≠ .idle ∧ s.promised <+: s.lines.handled
  returned : s.stopper = .returned → s.writer = .done

lemma Inv.empty_handed (h : s.Inv) (hwriter : s.writer ≠ .writing) : s.lines.batch = [] := by
  have hlength := h.holding
  rw [if_neg hwriter] at hlength
  exact List.length_eq_zero_iff.mp hlength

/-- The writer goes to a place where it holds nothing. -/
lemma Inv.go (h : s.Inv) (hwriter : s.writer ≠ .writing) (hgoing : s.writer ≠ .done) {n : WriterPhase}
    (hnext : n ≠ .writing) (hdone : n = .done → s.stopper ≠ .idle ∧ s.promised <+: s.lines.handled) :
    ({ s with writer := n } : Shutdown).Inv where
  sound := h.sound
  holding := by
    rw [if_neg hnext]
    exact List.length_eq_zero_iff.mpr (h.empty_handed hwriter)
  running := h.running
  promised := h.promised
  done := hdone
  returned hreturned := absurd (h.returned hreturned) hgoing

lemma woken_of_asleep (h : s.writer = .asleep) : s.woken = { s with writer := .testing } := by
  rw [woken, if_pos h]

lemma woken_of_awake (h : s.writer ≠ .asleep) : s.woken = s := by
  rw [woken, if_neg h]

/-- Only a writer that is about to block misses a notification. -/
lemma woken_goes_on (hwriter : s.writer ≠ .blocking) :
    s.woken.writer = .testing ∨ s.woken.writer = .writing ∨ s.woken.writer = .done := by
  by_cases hasleep : s.writer = .asleep
  · rw [woken_of_asleep hasleep]
    exact .inl rfl
  · rw [woken_of_awake hasleep]
    cases hphase : s.writer with
    | testing => exact .inl rfl
    | writing => exact .inr (.inl rfl)
    | done => exact .inr (.inr rfl)
    | blocking => exact absurd hphase hwriter
    | asleep => exact absurd hphase hasleep

lemma Inv.woken (h : s.Inv) : s.woken.Inv := by
  by_cases hasleep : s.writer = .asleep
  · rw [woken_of_asleep hasleep]
    exact h.go (by rw [hasleep]; decide) (by rw [hasleep]; decide) (by decide) (by simp)
  · rwa [woken_of_awake hasleep]

lemma Inv.push (h : s.Inv) (line : Line) : ({ s.woken with lines := s.lines.push line } : Shutdown).Inv where
  sound := h.sound.push line
  holding := h.woken.holding
  running := h.running
  promised := h.promised.trans (List.prefix_append _ _)
  done := h.woken.done
  returned := h.woken.returned

/-- With an empty queue the writer blocks or, once `running_` is cleared, is done. -/
lemma Inv.testQueue (h : s.Inv) (hwriter : s.writer = .testing) : s.testQueue.Inv := by
  have hnone : s.writer ≠ .writing := by rw [hwriter]; decide
  have hgoing : s.writer ≠ .done := by rw [hwriter]; decide
  have hbatch := h.empty_handed hnone
  unfold Shutdown.testQueue
  by_cases hqueue : s.lines.queue = []
  · rw [if_pos hqueue]
    by_cases hrunning : s.running = true
    · rw [if_pos hrunning]
      exact h.go hnone hgoing (by decide) (by simp)
    · rw [if_neg hrunning]
      refine h.go hnone hgoing (by decide) ?_
      intro _
      have hall : s.lines.handled ++ s.lines.batch ++ s.lines.queue = s.lines.pushed := h.sound
      rw [hbatch, hqueue, List.append_nil, List.append_nil] at hall
      exact ⟨fun hidle => hrunning (h.running.mpr hidle), hall ▸ h.promised⟩
  · obtain ⟨line, rest, hlines⟩ := List.exists_cons_of_ne_nil hqueue
    rw [if_neg hqueue]
    exact {
      sound := h.sound.take hbatch
      holding := by
        rw [if_pos rfl]
        show (s.lines.queue.take 1).length = 1
        rw [hlines]
        rfl
      running := h.running
      promised := h.promised
      done := by simp
      returned := fun hreturned => absurd (h.returned hreturned) hgoing }

lemma Inv.write (h : s.Inv) (hwriter : s.writer = .writing) :
    ({ s with lines := s.lines.handle, writer := .testing } : Shutdown).Inv where
  sound := h.sound.handle
  holding := by
    have hone := h.holding
    rw [if_pos hwriter] at hone
    show s.lines.batch.tail.length = 0
    rw [List.length_tail, hone]
  running := h.running
  promised := h.promised
  done := by simp
  returned hreturned := by
    have hdone := h.returned hreturned
    rw [hwriter] at hdone
    cases hdone

/-- The invariant of every interleaving. -/
lemma Inv.step (h : s.Inv) (hstep : machine.step s a = some t) : t.Inv := by
  cases step_moves hstep with
  | push line => exact h.push line
  | test htesting => exact h.testQueue htesting
  | block hblocking => exact h.go (by rw [hblocking]; decide) (by rw [hblocking]; decide) (by decide) (by simp)
  | spurious => exact h.woken
  | write hwriting => exact h.write hwriting
  | store hidle =>
    exact ⟨h.sound, h.holding, by simp, List.prefix_rfl, fun hdone => absurd hidle (h.done hdone).1, by simp⟩
  | notify hstored =>
    have hrunning : s.running = true ↔ Stopper.joining = .idle := by
      rw [h.running, hstored]
      simp
    exact ⟨h.sound, h.woken.holding, hrunning, h.promised, fun hdone => ⟨by simp, (h.woken.done hdone).2⟩,
      by simp⟩
  | join hjoining hdone =>
    have hrunning : s.running = true ↔ Stopper.returned = .idle := by
      rw [h.running, hjoining]
      simp
    exact ⟨h.sound, h.holding, hrunning, h.promised, fun _ => ⟨by simp, (h.done hdone).2⟩, fun _ => hdone⟩

lemma reachable_inv (hs : machine.Reachable s) : s.Inv := by
  refine machine.invariant ?_ (fun _ _ _ _ h hstep => h.step hstep) hs
  exact ⟨rfl, rfl, by simp [machine], List.prefix_rfl, by simp [machine], by simp [machine]⟩

/-- What `stop` found logged stays on record. -/
lemma step_promised (hstored : s.stopper ≠ .idle) (hstep : machine.step s a = some t) :
    t.stopper ≠ .idle ∧ t.promised = s.promised := by
  cases step_moves hstep with
  | push | block | spurious | write => exact ⟨hstored, rfl⟩
  | test =>
    unfold testQueue
    split <;> exact ⟨hstored, rfl⟩
  | store hidle => exact absurd hidle hstored
  | notify | join => exact ⟨by simp, rfl⟩

/-! ## After the notification of `stop` -/

/-- How many steps the writer and the caller of `stop` can still take. -/
def rank (s : Shutdown) : Nat :=
  2 * s.lines.queue.length +
    (match s.writer with
      | .testing => 1
      | .writing | .blocking => 2
      | .asleep | .done => 0) +
    (match s.stopper with
      | .idle => 4
      | .stored => 3
      | .joining => 1
      | .returned => 0)

/-- Each of these steps lowers the rank. -/
lemma rank_decreases (hrunning : s.running = false) (hown : a.Own) (hstep : machine.step s a = some t) :
    t.running = false ∧ t.rank < s.rank := by
  cases step_moves hstep with
  | push | spurious => exact absurd hown (by simp [ShutdownAction.Own])
  | test hwriter =>
    unfold testQueue rank
    cases hqueue : s.lines.queue with
    | nil => simp [hwriter, hrunning, hqueue]
    | cons line rest =>
      rw [if_neg (by simp)]
      refine ⟨hrunning, ?_⟩
      simp only [Mailbox.take, hwriter, hqueue, List.tail_cons, List.length_cons]
      omega
  | block hwriter => exact ⟨hrunning, by simp [rank, hwriter]⟩
  | write hwriter => exact ⟨hrunning, by simp [rank, hwriter, Mailbox.handle]⟩
  | store hidle => exact ⟨rfl, by simp [rank, hidle]⟩
  | notify hstored =>
    refine ⟨hrunning, ?_⟩
    by_cases hasleep : s.writer = .asleep
    · simp [woken_of_asleep hasleep, rank, hasleep, hstored]
    · simp [woken_of_awake hasleep, rank, hstored]
  | join hjoining hdone => exact ⟨hrunning, by simp [rank, hjoining]⟩

/-- Once `stop` has notified a writer that was not about to block, it waits for a writer that does not sleep. -/
structure Finishing (s : Shutdown) : Prop where
  inv : s.Inv
  running : s.running = false
  stopper : s.stopper = .joining ∨ s.stopper = .returned
  writer : s.writer = .testing ∨ s.writer = .writing ∨ s.writer = .done

lemma Finishing.step (h : s.Finishing) (hown : a.Own) (hstep : machine.step s a = some t) : t.Finishing := by
  have hinv := h.inv.step hstep
  have hstopped := (rank_decreases h.running hown hstep).1
  cases step_moves hstep with
  | push | spurious => exact absurd hown (by simp [ShutdownAction.Own])
  | test =>
    have hrunning : ¬s.running = true := Bool.eq_false_iff.mp h.running
    unfold testQueue at hinv ⊢
    by_cases hqueue : s.lines.queue = []
    · rw [if_pos hqueue, if_neg hrunning] at hinv ⊢
      exact ⟨hinv, h.running, h.stopper, .inr (.inr rfl)⟩
    · rw [if_neg hqueue] at hinv ⊢
      exact ⟨hinv, h.running, h.stopper, .inr (.inl rfl)⟩
  | block hblocking =>
    have hwriter := h.writer
    rw [hblocking] at hwriter
    simp at hwriter
  | write => exact ⟨hinv, hstopped, h.stopper, .inl rfl⟩
  | store hidle =>
    have hstopper := h.stopper
    rw [hidle] at hstopper
    simp at hstopper
  | notify hstored =>
    have hstopper := h.stopper
    rw [hstored] at hstopper
    simp at hstopper
  | join => exact ⟨hinv, hstopped, .inr rfl, h.writer⟩

/-- Neither the writer nor the caller of `stop` can go on. -/
def Stuck (s : Shutdown) : Prop := ∀ a : ShutdownAction, a.Own → machine.step s a = none

/-- Then `stop` has returned. -/
lemma Finishing.of_stuck (h : s.Finishing) (hstuck : s.Stuck) : s.stopper = .returned := by
  have hdone : s.writer = .done := by
    rcases h.writer with hwriter | hwriter | hwriter
    · have htest : machine.step s .test = some s.testQueue := if_pos hwriter
      rw [hstuck .test trivial] at htest
      cases htest
    · have hwrite : machine.step s .write = some { s with lines := s.lines.handle, writer := .testing } :=
        if_pos hwriter
      rw [hstuck .write trivial] at hwrite
      cases hwrite
    · exact hwriter
  rcases h.stopper with hjoining | hreturned
  · have hjoin : machine.step s .join = some { s with stopper := .returned } := if_pos ⟨hjoining, hdone⟩
    rw [hstuck .join trivial] at hjoin
    cases hjoin
  · exact hreturned

/-- A writer that blocks just after the notification is left asleep, and `stop` waits for it. -/
lemma stuck_of_asleep (hwriter : s.writer = .asleep) (hstopper : s.stopper = .joining) : s.Stuck := by
  intro a hown
  cases a with
  | push _ | spurious => exact absurd hown (by simp [ShutdownAction.Own])
  | test | block | write => exact if_neg (by rw [hwriter]; decide)
  | store | notify => exact if_neg (by rw [hstopper]; decide)
  | join => exact if_neg (by rw [hwriter]; simp)

/-- In every reachable state in which `stop` has cleared `running_` and is about to notify: whatever happens
from there on, by the time `stop` returns all that was logged before its call has been handed to `write_line`.
Left to themselves, the writer and `stop` take a bounded number of steps, and they end with the return of `stop`
exactly when the writer is not, at the notification, between its test and its `wait`. -/
theorem stop_drains_iff (hs : machine.Reachable s) (hstored : s.stopper = .stored) :
    (∀ as t, machine.run s as = some t → t.stopper = .returned → s.promised <+: t.lines.handled) ∧
    (∀ as t, (∀ a ∈ as, a.Own) → machine.run s (.notify :: as) = some t →
      as.length ≤ 2 * s.lines.queue.length + 4) ∧
    ((∀ as t, (∀ a ∈ as, a.Own) → machine.run s (.notify :: as) = some t → t.Stuck → t.stopper = .returned) ↔
      s.writer ≠ .blocking) := by
  have hinv := reachable_inv hs
  have hrunning : s.running = false := by
    rw [Bool.eq_false_iff, ne_eq, hinv.running, hstored]
    decide
  have hnotify : machine.step s .notify = some { s.woken with stopper := .joining } := if_pos hstored
  refine ⟨?_, ?_, ?_, ?_⟩
  · intro as t hrun hreturned
    have hend : (t.Inv ∧ t.stopper ≠ .idle) ∧ t.promised = s.promised := by
      refine machine.run_keeps (I := fun u => (u.Inv ∧ u.stopper ≠ .idle) ∧ u.promised = s.promised) ?_
        ⟨⟨hinv, by rw [hstored]; decide⟩, rfl⟩ hrun
      rintro u b v ⟨⟨hu, hstopper⟩, hpromised⟩ hstep
      obtain ⟨hlater, hsame⟩ := step_promised hstopper hstep
      exact ⟨⟨hu.step hstep, hlater⟩, hsame.trans hpromised⟩
    rw [← hend.2]
    exact (hend.1.1.done (hend.1.1.returned hreturned)).2
  · intro as t hown hrun
    have hall : ∀ a ∈ ShutdownAction.notify :: as, a.Own := List.forall_mem_cons.mpr ⟨by trivial, hown⟩
    have hlength :=
      (machine.run_rank_le (fun _ _ _ h hown hstep => rank_decreases h hown hstep) hrunning hall hrun).2
    have hbound : s.rank ≤ 2 * s.lines.queue.length + 5 := by
      unfold rank
      rw [hstored]
      cases s.writer <;> simp
    rw [List.length_cons] at hlength
    omega
  · rintro hreturns hblocking
    have hwoken : s.woken = s := woken_of_awake (by rw [hblocking]; decide)
    rw [hwoken] at hnotify
    have hrun : machine.run s [.notify, .block] = some { s with stopper := .joining, writer := .asleep } := by
      rw [Machine.run_cons, hnotify, Option.bind_some, Machine.run_cons]
      have hblock : machine.step { s with stopper := .joining } .block =
          some { s with stopper := .joining, writer := .asleep } := if_pos hblocking
      rw [hblock]
      rfl
    have hreturned := hreturns [.block] _ (by simp [ShutdownAction.Own]) hrun (stuck_of_asleep rfl rfl)
    cases hreturned
  · intro hwriter as t hown hrun hstuck
    have hfinishing : ({ s.woken with stopper := .joining } : Shutdown).Finishing :=
      ⟨hinv.step hnotify, hrunning, .inl rfl, woken_goes_on hwriter⟩
    rw [Machine.run_cons, hnotify, Option.bind_some] at hrun
    have hend : t.Finishing :=
      (machine.run_rank_le
        (fun _ _ _ h hown hstep => ⟨h.step hown hstep, (rank_decreases h.running hown hstep).2⟩)
        hfinishing hown hrun).1
    exact hend.of_stuck hstuck

/-- The line "up". -/
def lineUp : Line := [117, 112]

/-- The writer has written a line, found the queue empty and has not blocked yet when `stop` clears `running_`. -/
def betweenTestAndWait : Shutdown where
  running := false
  lines := { pushed := [lineUp], handled := [lineUp] }
  writer := .blocking
  stopper := .stored
  promised := [lineUp]

/-- The line is in the queue when `stop` clears `running_`. -/
def lineQueued : Shutdown where
  running := false
  lines := { queue := [lineUp], pushed := [lineUp] }
  stopper := .stored
  promised := [lineUp]

/-- With the line queued, `stop` returns and the line has been written; between test and wait, it can wait for
ever. -/
theorem stop_drains_iff_betweenTestAndWait :
    (machine.run machine.init [.push lineUp, .store] = some lineQueued ∧
      ∀ as t, (∀ a ∈ as, a.Own) → machine.run lineQueued (.notify :: as) = some t → t.Stuck →
        t.stopper = .returned ∧ [lineUp] <+: t.lines.handled) ∧
    machine.run machine.init [.push lineUp, .test, .write, .test, .store] = some betweenTestAndWait ∧
      ∃ as t, (∀ a ∈ as, a.Own) ∧ machine.run betweenTestAndWait (.notify :: as) = some t ∧ t.Stuck ∧
        t.stopper ≠ .returned := by
  have hqueued : machine.run machine.init [.push lineUp, .store] = some lineQueued := rfl
  have hbetween : machine.run machine.init [.push lineUp, .test, .write, .test, .store] =
      some betweenTestAndWait := rfl
  refine ⟨⟨hqueued, ?_⟩, hbetween, ?_⟩
  · obtain ⟨hwritten, -, hiff⟩ := stop_drains_iff ⟨_, hqueued⟩ rfl
    intro as t hown hrun hstuck
    have hreturned := hiff.mpr (by decide) as t hown hrun hstuck
    exact ⟨hreturned, hwritten _ t hrun hreturned⟩
  · have hiff := (stop_drains_iff ⟨_, hbetween⟩ rfl).2.2
    have hstays := mt hiff.mp (fun hwriter => hwriter rfl)
    push Not at hstays
    exact hstays

end Shutdown

end Telemetry

end LatencyArb
