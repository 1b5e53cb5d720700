import LatencyArb.Oanda.Executor

/-!
# How often an order is executed

The second attempt sends the same request over a new connection. It reaches the broker a second time
when the first attempt failed only after its request had arrived, and nothing in the request says
that it is a repetition.
-/

namespace LatencyArb

open Oanda

namespace OandaExecutor

variable {cfg : Config}

/-- How many complete copies of the order with this number the broker has received. -/
def copies (e : OandaExecutor) (orderId : Nat) : Nat :=
  e.received.countP (fun r => decide (r.orderId = orderId))

/-- From the requests alone the broker can tell whether a later one repeats an earlier one. -/
def Recognisable (cfg : Config) : Prop :=
  ∃ duplicate : Request → Request → Bool, ∀ e, (machine cfg).Reachable e →
    ∀ (i j : Nat) (a b : Received), i < j → e.received[i]? = some a → e.received[j]? = some b →
      (duplicate a.request b.request = true ↔ a.orderId = b.orderId)

def AtMostOnce (cfg : Config) (e : OandaExecutor) : Prop :=
  ∀ orderId, e.copies orderId ≤ 1 ∨ Recognisable cfg

/-- The network does not deliver the request of a second attempt after that of the first. -/
def notRedelivered (s : OandaExecutor) (a : Action) : Bool :=
  match s.stage, a with
  | .attempt task, .write true _ => task.retry != some true
  | _, _ => true

/-! ## The request does not tell -/

/-- A worker with a connection and an empty mailbox, about to test its loop. -/
def ready : List Action := [.start, .connect true]

/-- The first attempt fails when its response is read, the second one arrives too. -/
def deliveredTwice (job : OrderJob) : List Action :=
  ready ++ [Action.loop, .execute job, .take, .write true none, .read (.error .unknown), .connect true,
    .write true none]

/-- The same call is made twice. -/
def orderedTwice (job : OrderJob) : List Action :=
  ready ++ [Action.loop, .execute job, .take, .write true none, .read (.ok ⟨201, ""⟩),
    .loop, .execute job, .take, .write true none]

def sampleJob : OrderJob := ⟨"XAU_USD", "buy", 10, 0, 0⟩

lemma deliveredTwice_received (cfg : Config) :
    ((machine cfg).run (machine cfg).init (deliveredTwice sampleJob)).map received =
      some [⟨sampleJob, 1, buildRequest cfg sampleJob⟩, ⟨sampleJob, 1, buildRequest cfg sampleJob⟩] := by
  simp [deliveredTwice, ready, machine, step, start, loopTest, execute, sampleJob, waitOver, take,
    writeRequest, transportFailed]

lemma orderedTwice_received (cfg : Config) :
    ((machine cfg).run (machine cfg).init (orderedTwice sampleJob)).map received =
      some [⟨sampleJob, 1, buildRequest cfg sampleJob⟩, ⟨sampleJob, 2, buildRequest cfg sampleJob⟩] := by
  simp [orderedTwice, ready, machine, step, start, loopTest, execute, sampleJob, waitOver, take,
    writeRequest, report]

/-- A repeated request and a new order with the same arguments look the same. -/
lemma not_recognisable (cfg : Config) : ¬Recognisable cfg := by
  rintro ⟨duplicate, hduplicate⟩
  obtain ⟨s, hs, hagain⟩ := Option.map_eq_some_iff.mp (deliveredTwice_received cfg)
  obtain ⟨t, ht, hnew⟩ := Option.map_eq_some_iff.mp (orderedTwice_received cfg)
  have hsame := hduplicate s ⟨_, hs⟩ 0 1 _ _ Nat.zero_lt_one (by rw [hagain]; rfl) (by rw [hagain]; rfl)
  have hother := hduplicate t ⟨_, ht⟩ 0 1 _ _ Nat.zero_lt_one (by rw [hnew]; rfl) (by rw [hnew]; rfl)
  have hrepeat : (1 : Nat) = 2 := hother.mp (hsame.mpr rfl)
  cases hrepeat

lemma atMostOnce_iff {e : OandaExecutor} : AtMostOnce cfg e ↔ ∀ orderId, e.copies orderId ≤ 1 := by
  apply forall_congr'
  intro orderId
  exact or_iff_left (not_recognisable cfg)

/-! ## What the broker has of the order in hand -/

/-- The order in hand is the last one, and the task knows whether its first request has arrived. -/
def Held (e : OandaExecutor) : Stage → Prop
  | .attempt task =>
    task.orderId = e.nextId ∧ e.copies e.nextId = if task.retry = some true then 1 else 0
  | .reading task received =>
    task.orderId = e.nextId ∧
      (task.retry = none → e.copies e.nextId = if received = true then 1 else 0)
  | _ => True

structure Delivered (e : OandaExecutor) : Prop where
  once : ∀ orderId, e.copies orderId ≤ 1
  old : ∀ r ∈ e.received, r.orderId ≤ e.nextId

structure DeliveryInv (e : OandaExecutor) : Prop where
  delivered : e.Delivered
  held : e.Held e.stage

lemma copies_new {e : OandaExecutor} {orderId : Nat} (hold : ∀ r ∈ e.received, r.orderId ≤ e.nextId)
    (hnew : e.nextId < orderId) : e.copies orderId = 0 := by
  apply List.countP_eq_zero.mpr
  intro r hr
  have hle := hold r hr
  simp only [decide_eq_true_eq]
  omega

lemma copies_append {e e' : OandaExecutor} {r : Received} (h : e'.received = e.received ++ [r])
    (orderId : Nat) :
    e'.copies orderId = e.copies orderId + if r.orderId = orderId then 1 else 0 := by
  unfold copies
  rw [h, List.countP_append, List.countP_singleton]
  simp only [decide_eq_true_eq]

/-- A step that delivers nothing and takes no order. -/
lemma Delivered.congr {e e' : OandaExecutor} (h : e.Delivered) (hreceived : e'.received = e.received)
    (hnext : e'.nextId = e.nextId) : e'.Delivered := by
  constructor
  · intro orderId
    unfold copies
    rw [hreceived]
    exact h.once orderId
  · rw [hreceived, hnext]
    exact h.old

lemma Held.congr {e e' : OandaExecutor} {stage : Stage} (h : e.Held stage)
    (hreceived : e'.received = e.received) (hnext : e'.nextId = e.nextId) : e'.Held stage := by
  unfold Held copies at h ⊢
  rw [hreceived, hnext]
  exact h

lemma DeliveryInv.congr {e e' : OandaExecutor} (hI : e.DeliveryInv)
    (hreceived : e'.received = e.received) (hnext : e'.nextId = e.nextId)
    (hstage : e'.stage = e.stage) : e'.DeliveryInv :=
  ⟨hI.delivered.congr hreceived hnext, hstage ▸ hI.held.congr hreceived hnext⟩

lemma stop_delivery {e : OandaExecutor} (hI : e.DeliveryInv) : e.stop.DeliveryInv := by
  unfold stop
  split
  · exact hI.congr rfl rfl rfl
  · exact hI

lemma execute_delivery {e : OandaExecutor} (hI : e.DeliveryInv) (job : OrderJob) :
    (e.execute job).DeliveryInv := by
  unfold execute
  split
  · exact hI
  · split
    · exact hI
    · exact hI.congr rfl rfl rfl

lemma take_delivery {e : OandaExecutor} (h : e.Delivered) : e.take.DeliveryInv := by
  unfold take
  split
  · dsimp only
    split <;> exact ⟨h.congr rfl rfl, trivial⟩
  · constructor
    · exact ⟨h.once, fun r hr => (h.old r hr).trans (Nat.le_succ _)⟩
    · refine ⟨rfl, ?_⟩
      have hnone : e.copies (e.nextId + 1) = 0 := copies_new h.old (Nat.lt_succ_self _)
      exact hnone

lemma transportFailed_delivery {e : OandaExecutor} {task : Task} {received : Bool}
    {failure : Failure} (h : e.Delivered) (hheld : e.Held (.reading task received)) :
    (e.transportFailed task received failure).DeliveryInv := by
  unfold transportFailed
  dsimp only
  split
  · rename_i hfirst
    refine ⟨h.congr rfl rfl, hheld.1, ?_⟩
    simp only [Option.some.injEq]
    exact hheld.2 hfirst
  · exact ⟨h.congr rfl rfl, trivial⟩

/-- The broker gets the request of an order of which it has no copy yet. -/
lemma Delivered.receive {e e' : OandaExecutor} {r : Received} (h : e.Delivered)
    (hr : r.orderId = e.nextId) (hnone : e.copies e.nextId = 0)
    (hreceived : e'.received = e.received ++ [r]) (hnext : e'.nextId = e.nextId) :
    e'.Delivered := by
  constructor
  · intro orderId
    rw [copies_append hreceived]
    by_cases hsame : r.orderId = orderId
    · rw [if_pos hsame, ← hsame, hr, hnone]
    · rw [if_neg hsame]
      exact h.once orderId
  · intro r' hr'
    rw [hreceived] at hr'
    rw [hnext]
    rcases List.mem_append.mp hr' with hold | hlast
    · exact h.old r' hold
    · rw [List.mem_singleton.mp hlast]
      exact hr.le

lemma writeRequest_delivery {e : OandaExecutor} {task : Task} {received : Bool}
    {failure : Option Failure} (hI : e.DeliveryInv) (hstage : e.stage = .attempt task)
    (hnew : received = true → task.retry ≠ some true) :
    (e.writeRequest cfg task received failure).DeliveryInv := by
  have hheld := hI.held
  rw [hstage] at hheld
  obtain ⟨hid, hcopies⟩ := hheld
  unfold writeRequest
  extract_lets e₁
  have hafter : e₁.Delivered ∧ e₁.Held (.reading task received) := by
    cases received with
    | false =>
      refine ⟨hI.delivered, hid, ?_⟩
      intro hfirst
      rw [hfirst, if_neg (by simp)] at hcopies
      exact hcopies
    | true =>
      rw [if_neg (hnew rfl)] at hcopies
      have hone : e₁.copies e₁.nextId = 1 := by
        have hlast : task.orderId = e₁.nextId := hid
        rw [copies_append rfl, if_pos hlast]
        exact congrArg (· + 1) hcopies
      exact ⟨hI.delivered.receive hid hcopies rfl rfl, hid, fun _ => hone⟩
  split
  · exact ⟨hafter.1.congr rfl rfl, hafter.2.congr rfl rfl⟩
  · exact transportFailed_delivery hafter.1 hafter.2

lemma step_delivery {e e' : OandaExecutor} {a : Action} (hI : e.DeliveryInv)
    (hs : e.step cfg a = some e') (hnew : e.notRedelivered a = true) : e'.DeliveryInv := by
  cases step_moves hs with
  | started running => exact hI
  | start stage => exact ⟨hI.delivered.congr rfl rfl, trivial⟩
  | stop => exact stop_delivery hI
  | stopWake => exact hI.congr rfl rfl rfl
  | join stage => exact ⟨hI.delivered.congr rfl rfl, trivial⟩
  | execute job => exact execute_delivery hI job
  | opened ok stage => exact ⟨hI.delivered.congr rfl rfl, trivial⟩
  | reconnected task stage => exact hI.congr rfl rfl rfl
  | connectFailed task stage => exact ⟨hI.delivered.congr rfl rfl, trivial⟩
  | loop stage =>
    unfold loopTest
    split <;> exact ⟨hI.delivered.congr rfl rfl, trivial⟩
  | take stage woken => exact take_delivery hI.delivered
  | write task received failure stage =>
    apply writeRequest_delivery hI stage
    rintro rfl
    simpa [notRedelivered, stage] using hnew
  | readFailed task received failure stage =>
    have hheld := hI.held
    rw [stage] at hheld
    exact transportFailed_delivery hI.delivered hheld
  | read task received res stage => exact ⟨hI.delivered.congr rfl rfl, trivial⟩

/-- The broker gets the request, and what follows does not touch what it has. -/
lemma writeRequest_received {e : OandaExecutor} {task : Task} {failure : Option Failure} :
    (e.writeRequest cfg task true failure).received =
      e.received ++ [⟨task.job, task.orderId, buildRequest cfg task.job⟩] := by
  unfold writeRequest transportFailed
  dsimp only
  split
  · rfl
  · split <;> rfl

/-- A second attempt whose request arrives after that of the first is a second execution. -/
lemma redelivered_twice {e e' : OandaExecutor} {a : Action} (hI : e.DeliveryInv)
    (hs : e.step cfg a = some e') (hagain : e.notRedelivered a = false) :
    e'.copies e.nextId = 2 := by
  unfold notRedelivered at hagain
  split at hagain
  · rename_i task failure hstage
    have hheld := hI.held
    rw [hstage] at hheld
    obtain ⟨hid, hcopies⟩ := hheld
    have hretry : task.retry = some true := by simpa using hagain
    rw [if_pos hretry] at hcopies
    have he' : e' = e.writeRequest cfg task true failure := by
      simp only [step, hstage] at hs
      split at hs
      · exact (Option.some.inj hs).symm
      · cases hs
    rw [he', copies_append writeRequest_received, if_pos hid, hcopies]
  · cases hagain

theorem step_atMostOnce_iff {e e' : OandaExecutor} {a : Action} (hI : e.DeliveryInv)
    (hs : e.step cfg a = some e') : AtMostOnce cfg e' ↔ e.notRedelivered a = true := by
  rw [atMostOnce_iff]
  constructor
  · intro honce
    by_contra hagain
    have htwice := redelivered_twice hI hs (Bool.not_eq_true _ ▸ hagain)
    have hle := honce e.nextId
    omega
  · intro hnew
    exact (step_delivery hI hs hnew).delivered.once

/-- In a run every order is executed at most once exactly when no second attempt is delivered after
the first one was. -/
theorem executed_at_most_once_iff (cfg : Config) (run : List Action) :
    (machine cfg).Always run (fun _ _ t => AtMostOnce cfg t) ↔
      (machine cfg).Always run (fun s a _ => s.notRedelivered a = true) := by
  apply (machine cfg).always_iff_along (I := DeliveryInv)
  · exact ⟨⟨by simp [machine, copies], by simp [machine]⟩, trivial⟩
  · intro s a t _ hI hs hnew
    exact step_delivery hI hs hnew
  · intro s a t _ hI hs
    exact step_atMostOnce_iff hI hs

/-- The connection breaks when the response to a delivered order is read. -/
theorem order_executed_twice :
    ((machine {}).run (machine {}).init (deliveredTwice sampleJob)).map (fun e => e.copies 1) =
      some 2 ∧
    ¬(machine {}).Always (deliveredTwice sampleJob) (fun _ _ t => AtMostOnce {} t) := by
  refine ⟨by decide +kernel, ?_⟩
  intro honce
  have hagain : ((machine {}).run (machine {}).init (deliveredTwice sampleJob)).map
      (fun e => e.copies 1) = some 2 := by decide +kernel
  obtain ⟨t, ht, htwo⟩ := Option.map_eq_some_iff.mp hagain
  obtain ⟨s, hs, hlast⟩ := (machine {}).run_concat_eq_some.mp
    (show (machine {}).run _ ((deliveredTwice sampleJob).dropLast ++ [Action.write true none]) = _ from ht)
  have hle := atMostOnce_iff.mp (honce _ (.write true none) s t List.prefix_rfl hs hlast) 1
  omega

end OandaExecutor

end LatencyArb
