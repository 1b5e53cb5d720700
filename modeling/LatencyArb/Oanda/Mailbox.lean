import LatencyArb.Oanda.Executor

/-!
# Orders left in the mailbox while the worker sleeps

A take clears the wake flag and takes one order. Orders it leaves behind are stranded unless an
accepted order or a `stop` has set the flag again when the worker is back at its wait.
-/

namespace LatencyArb

open Oanda

namespace OandaExecutor

variable {cfg : Config}

/-- The worker that is about to block leaves no order in the mailbox, or will not block. -/
def NotStranded (e : OandaExecutor) : Prop := e.stage = .wait → e.jobs = [] ∨ e.waitOver = true

/-- A worker that goes back to its wait left nothing behind at its last take, or an order has been
accepted or the executor stopped since. -/
def rousedAgain (s : OandaExecutor) (a : Action) : Bool :=
  match s.stage, a with
  | .top, .loop => s.leftBehind == 0 || s.roused != 0 || !s.running
  | _, _ => true

/-- What the history says about the mailbox. -/
structure MailboxInv (e : OandaExecutor) : Prop where
  left : e.leftBehind ≤ e.jobs.length
  jobs : e.jobs.length ≤ e.leftBehind + e.roused
  wake : e.wake = true ↔ e.roused ≠ 0

lemma stop_mailbox (e : OandaExecutor) :
    e.stop.jobs = e.jobs ∧ e.stop.wake = e.wake ∧ e.stop.leftBehind = e.leftBehind ∧
      e.stop.roused = e.roused ∧ e.stop.stage = e.stage := by
  unfold stop
  split <;> simp

lemma transportFailed_mailbox (e : OandaExecutor) (task : Task) (received : Bool)
    (failure : Failure) :
    (e.transportFailed task received failure).jobs = e.jobs ∧
      (e.transportFailed task received failure).wake = e.wake ∧
      (e.transportFailed task received failure).leftBehind = e.leftBehind ∧
      (e.transportFailed task received failure).roused = e.roused ∧
      (e.transportFailed task received failure).stage ≠ .wait := by
  unfold transportFailed
  dsimp only
  split <;> simp [report]

variable (cfg) in
lemma writeRequest_mailbox (e : OandaExecutor) (task : Task) (received : Bool)
    (failure : Option Failure) :
    (e.writeRequest cfg task received failure).jobs = e.jobs ∧
      (e.writeRequest cfg task received failure).wake = e.wake ∧
      (e.writeRequest cfg task received failure).leftBehind = e.leftBehind ∧
      (e.writeRequest cfg task received failure).roused = e.roused ∧
      (e.writeRequest cfg task received failure).stage ≠ .wait := by
  unfold writeRequest
  dsimp only
  split
  · split <;> simp
  · rename_i failure
    split
    · exact transportFailed_mailbox _ task received failure
    · exact e.transportFailed_mailbox task received failure

/-- A step that does not touch the mailbox. -/
lemma MailboxInv.congr {e e' : OandaExecutor} (hI : e.MailboxInv) (hjobs : e'.jobs = e.jobs)
    (hwake : e'.wake = e.wake) (hleft : e'.leftBehind = e.leftBehind)
    (hroused : e'.roused = e.roused) : e'.MailboxInv := by
  constructor
  · rw [hleft, hjobs]
    exact hI.left
  · rw [hleft, hjobs, hroused]
    exact hI.jobs
  · rw [hwake, hroused]
    exact hI.wake

lemma execute_mailboxInv {e : OandaExecutor} (hI : e.MailboxInv) (job : OrderJob) :
    (e.execute job).MailboxInv := by
  unfold execute
  split
  · exact hI
  · split
    · exact hI
    · have hleft := hI.left
      have hjobs := hI.jobs
      constructor
      · simp only [List.length_append, List.length_singleton]
        omega
      · simp only [List.length_append, List.length_singleton]
        omega
      · simp

lemma take_mailboxInv (e : OandaExecutor) : e.take.MailboxInv := by
  unfold take
  split
  · rename_i hjobs
    dsimp only
    split
    · exact ⟨by simp, by simp [hjobs], by simp⟩
    · exact ⟨by simp [finish], by simp [finish, hjobs], by simp [finish]⟩
  · exact ⟨by simp, by simp, by simp⟩

lemma step_mailboxInv {e e' : OandaExecutor} {a : Action} (hI : e.MailboxInv)
    (hs : e.step cfg a = some e') : e'.MailboxInv := by
  cases step_moves hs with
  | started running => exact hI
  | start stage => exact hI.congr rfl rfl rfl rfl
  | stop =>
    obtain ⟨hjobs, hwake, hleft, hroused, -⟩ := e.stop_mailbox
    exact hI.congr hjobs hwake hleft hroused
  | stopWake =>
    have hjobs := hI.jobs
    exact ⟨hI.left, by simp only; omega, by simp⟩
  | join stage => exact hI.congr rfl rfl rfl rfl
  | execute job => exact execute_mailboxInv hI job
  | opened ok stage => exact hI.congr rfl rfl rfl rfl
  | reconnected task stage => exact hI.congr rfl rfl rfl rfl
  | connectFailed task stage => exact hI.congr rfl rfl rfl rfl
  | loop stage =>
    unfold loopTest
    split <;> exact hI.congr rfl rfl rfl rfl
  | take stage woken => exact take_mailboxInv e
  | write task received failure stage =>
    obtain ⟨hjobs, hwake, hleft, hroused, -⟩ :=
      e.writeRequest_mailbox cfg task received failure
    exact hI.congr hjobs hwake hleft hroused
  | readFailed task received failure stage =>
    obtain ⟨hjobs, hwake, hleft, hroused, -⟩ := e.transportFailed_mailbox task received failure
    exact hI.congr hjobs hwake hleft hroused
  | read task received res stage => exact hI.congr rfl rfl rfl rfl

theorem reachable_mailboxInv {e : OandaExecutor} (he : (machine cfg).Reachable e) :
    e.MailboxInv := by
  apply (machine cfg).invariant _ _ he
  · exact ⟨by simp [machine], by simp [machine], by simp [machine]⟩
  · intro s a t _ hI hs
    exact step_mailboxInv hI hs

lemma loopTest_notStranded_iff {e : OandaExecutor} (hI : e.MailboxInv) :
    e.loopTest.NotStranded ↔ (e.leftBehind == 0 || e.roused != 0 || !e.running) = true := by
  have hleft := hI.left
  have hjobs := hI.jobs
  unfold loopTest NotStranded
  by_cases hrunning : e.running = true
  · rw [if_pos hrunning]
    simp only [waitOver, hrunning, Bool.not_true, Bool.or_false, hI.wake, forall_const,
      Bool.or_eq_true, beq_iff_eq, bne_iff_ne, ← List.length_eq_zero_iff]
    omega
  · rw [if_neg hrunning]
    simp [finish, hrunning]

lemma stop_notStranded {e : OandaExecutor} (hn : e.NotStranded) : e.stop.NotStranded := by
  intro hstage
  unfold stop at hstage ⊢
  split
  · right
    simp [waitOver]
  · split at hstage
    · contradiction
    · exact hn hstage

lemma execute_notStranded {e : OandaExecutor} (hn : e.NotStranded) (job : OrderJob) :
    (e.execute job).NotStranded := by
  intro hstage
  unfold execute at hstage ⊢
  split
  · split at hstage
    · exact hn hstage
    · contradiction
  · split
    · exact hn (by simpa [*] using hstage)
    · right
      simp [waitOver]

/-- Only going back to the wait can strand an order. -/
theorem step_notStranded_iff {e e' : OandaExecutor} {a : Action} (hI : e.MailboxInv)
    (hn : e.NotStranded) (hs : e.step cfg a = some e') :
    e'.NotStranded ↔ e.rousedAgain a = true := by
  cases step_moves hs with
  | started running => simp [hn, rousedAgain]
  | start stage => simp [NotStranded, rousedAgain]
  | stop => simp [stop_notStranded hn, rousedAgain]
  | stopWake => simp [NotStranded, waitOver, rousedAgain]
  | join stage => simp [NotStranded, rousedAgain]
  | execute job => simp [execute_notStranded hn, rousedAgain]
  | opened ok stage => simp [NotStranded, rousedAgain]
  | reconnected task stage => simp [NotStranded, stage, rousedAgain]
  | connectFailed task stage => simp [NotStranded, report, rousedAgain]
  | loop stage =>
    rw [loopTest_notStranded_iff hI]
    simp [rousedAgain, stage]
  | take stage woken =>
    have hmoves : e.take.stage ≠ .wait := by
      unfold take
      split
      · dsimp only
        split <;> simp [finish]
      · simp
    simp [NotStranded, hmoves, rousedAgain]
  | write task received failure stage =>
    obtain ⟨-, -, -, -, hmoves⟩ := e.writeRequest_mailbox cfg task received failure
    simp [NotStranded, hmoves, rousedAgain]
  | readFailed task received failure stage =>
    obtain ⟨-, -, -, -, hmoves⟩ := e.transportFailed_mailbox task received failure
    simp [NotStranded, hmoves, rousedAgain]
  | read task received res stage => simp [NotStranded, report, rousedAgain]

/-- A run strands no order exactly when every take that leaves orders behind is followed by an
accepted order or a `stop` before the worker waits again. -/
theorem no_order_stranded_iff (cfg : Config) (run : List Action) :
    (machine cfg).Always run (fun _ _ t => t.NotStranded) ↔
      (machine cfg).Always run (fun s a _ => s.rousedAgain a = true) := by
  apply (machine cfg).always_iff_along (I := NotStranded)
  · simp [machine, NotStranded]
  · intro s a t hr hn hs hC
    exact (step_notStranded_iff (reachable_mailboxInv hr) hn hs).mpr hC
  · intro s a t hr hn hs
    exact step_notStranded_iff (reachable_mailboxInv hr) hn hs

/-- Two orders queued before the worker first looks. -/
def twoQueued : List Action :=
  [.execute ⟨"XAU_USD", "buy", 10, 0, 0⟩, .execute ⟨"XAU_USD", "buy", 20, 0, 0⟩, .start,
    .connect true, .loop, .take, .write true none, .read (.ok ⟨201, ""⟩)]

/-- The second of two orders waits for a third one. -/
theorem second_order_stranded :
    ((machine {}).run (machine {}).init (twoQueued ++ [Action.loop])).map
      (fun e => (e.jobs.map OrderJob.units, e.waitOver)) = some ([20], false) ∧
    ¬(machine {}).Always (twoQueued ++ [Action.loop]) (fun _ _ t => t.NotStranded) := by
  refine ⟨by decide +kernel, ?_⟩
  intro hnot
  have hbefore : ((machine {}).run (machine {}).init twoQueued).map
      (fun e => (e.rousedAgain .loop, (e.step {} .loop).isSome)) = some (false, true) := by
    decide +kernel
  obtain ⟨s, hs, hpair⟩ := Option.map_eq_some_iff.mp hbefore
  simp only [Prod.mk.injEq] at hpair
  obtain ⟨t, ht⟩ := Option.isSome_iff_exists.mp hpair.2
  have hn : s.NotStranded := by
    intro hstage
    simp [rousedAgain, hstage] at hpair
  have hroused := (step_notStranded_iff (reachable_mailboxInv ⟨twoQueued, hs⟩) hn ht).mp
    (hnot twoQueued .loop s t List.prefix_rfl hs ht)
  rw [hpair.1] at hroused
  cases hroused

end OandaExecutor

end LatencyArb
