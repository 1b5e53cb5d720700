import LatencyArb.Oanda.Executor

/-!
# The orders of the OANDA executor

Every request the broker receives is the one `send_market_order` builds for a call of `execute` that took it.
-/

namespace LatencyArb

namespace Oanda

/-- A job that `execute` takes. -/
def OrderJob.Accepted (job : OrderJob) : Prop :=
  job.instrument ≠ "" ∧ (job.side = "buy" ∨ job.side = "sell")

/-- The job in hand is one of `P`. -/
def Stage.Of (P : OrderJob → Prop) : Stage → Prop
  | .attempt task => P task.job
  | .reading task _ => P task.job
  | _ => True

end Oanda

open Oanda

namespace OandaExecutor

/-- The jobs of the mailbox, of the worker and of the requests at the broker are jobs of `P`. -/
structure OrdersOf (P : OrderJob → Prop) (cfg : Config) (e : OandaExecutor) : Prop where
  jobs : ∀ job ∈ e.jobs, P job
  stage : e.stage.Of P
  received : ∀ r ∈ e.received, P r.job ∧ r.request = buildRequest cfg r.job

variable {P : OrderJob → Prop} {cfg : Config} {e : OandaExecutor}

lemma OrdersOf.stop (h : e.OrdersOf P cfg) : e.stop.OrdersOf P cfg := by
  unfold OandaExecutor.stop
  split
  · exact ⟨h.jobs, h.stage, h.received⟩
  · exact h

lemma OrdersOf.execute (h : e.OrdersOf P cfg) {job : OrderJob} (hjob : job.Accepted → P job) :
    (e.execute job).OrdersOf P cfg := by
  unfold OandaExecutor.execute
  split
  · exact h
  · rename_i hvalid
    split
    · exact h
    · refine ⟨?_, h.stage, h.received⟩
      intro j hj
      rcases List.mem_append.mp hj with hold | hnew
      · exact h.jobs j hold
      · rw [List.mem_singleton.mp hnew]
        apply hjob
        constructor
        · intro hempty
          exact hvalid (.inl hempty)
        · by_contra hside
          exact hvalid (.inr (not_or.mp hside))

lemma OrdersOf.loopTest (h : e.OrdersOf P cfg) : e.loopTest.OrdersOf P cfg := by
  unfold OandaExecutor.loopTest
  split <;> exact ⟨h.jobs, trivial, h.received⟩

lemma OrdersOf.take (h : e.OrdersOf P cfg) : e.take.OrdersOf P cfg := by
  have hjobs := h.jobs
  unfold OandaExecutor.take
  split
  · rename_i hempty
    dsimp only
    split
    · exact ⟨h.jobs, trivial, h.received⟩
    · exact ⟨h.jobs, trivial, h.received⟩
  · rename_i job jobs hcons
    rw [hcons] at hjobs
    refine ⟨?_, hjobs job List.mem_cons_self, h.received⟩
    intro j hj
    exact hjobs j (List.mem_cons_of_mem job hj)

lemma OrdersOf.transportFailed (h : e.OrdersOf P cfg) {task : Task} (received : Bool)
    (failure : Failure) (hjob : P task.job) :
    (e.transportFailed task received failure).OrdersOf P cfg := by
  unfold OandaExecutor.transportFailed
  dsimp only
  split
  · exact ⟨h.jobs, hjob, h.received⟩
  · exact ⟨h.jobs, trivial, h.received⟩

lemma OrdersOf.writeRequest (h : e.OrdersOf P cfg) {task : Task} (received : Bool)
    (failure : Option Failure) (hjob : P task.job) :
    (e.writeRequest cfg task received failure).OrdersOf P cfg := by
  unfold OandaExecutor.writeRequest
  extract_lets e₁
  have hafter : e₁.OrdersOf P cfg := by
    cases received with
    | false => exact h
    | true =>
      refine ⟨h.jobs, h.stage, ?_⟩
      intro r hr
      rcases List.mem_append.mp hr with hold | hnew
      · exact h.received r hold
      · rw [List.mem_singleton.mp hnew]
        exact ⟨hjob, rfl⟩
  split
  · exact ⟨hafter.jobs, hjob, hafter.received⟩
  · exact hafter.transportFailed received _ hjob

lemma step_ordersOf {a : Action} {e' : OandaExecutor} (h : e.OrdersOf P cfg)
    (htaken : ∀ job, a = .execute job → job.Accepted → P job) (hs : e.step cfg a = some e') : e'.OrdersOf P cfg := by
  have hstage := h.stage
  cases step_moves hs with
  | started running => exact h
  | start stage => exact ⟨h.jobs, trivial, h.received⟩
  | stop => exact h.stop
  | stopWake => exact ⟨h.jobs, h.stage, h.received⟩
  | join stage => exact ⟨h.jobs, trivial, h.received⟩
  | execute job => exact h.execute (htaken job rfl)
  | opened ok stage => exact ⟨h.jobs, trivial, h.received⟩
  | reconnected task stage => exact ⟨h.jobs, h.stage, h.received⟩
  | connectFailed task stage => exact ⟨h.jobs, trivial, h.received⟩
  | loop stage => exact h.loopTest
  | take stage woken => exact h.take
  | write task received failure stage =>
    rw [stage] at hstage
    exact h.writeRequest received failure hstage
  | readFailed task received failure stage =>
    rw [stage] at hstage
    exact h.transportFailed received failure hstage
  | read task received res stage => exact ⟨h.jobs, trivial, h.received⟩

/-- The jobs of a run are those of its calls of `execute`. -/
theorem run_ordersOf {run : List Action} (h : (machine cfg).run (machine cfg).init run = some e) :
    e.OrdersOf (fun job => job.Accepted ∧ Action.execute job ∈ run) cfg := by
  apply (machine cfg).invariant_of_always _ _ ((machine cfg).always_mem run) h
  · exact ⟨by simp [machine], trivial, by simp [machine]⟩
  · intro s a t _ hI hs ha
    apply step_ordersOf hI _ hs
    rintro job rfl haccepted
    exact ⟨haccepted, ha⟩

end OandaExecutor

end LatencyArb
