import LatencyArb.Fix.OrderBook

/-!
# Accepted orders and failed writes

An accepted order is accounted for while it is in the mailbox or in the write queue, and from then on if
its frame is written or its result is reported. The frame whose write fails leaves the queue.
-/

namespace LatencyArb

namespace Fix

def acceptedOrders (log : List OrderEvent) : List OrderJob :=
  log.filterMap (fun event => match event with | .accepted job => some job | _ => none)

/-- The orders whose frames are completely written. -/
def writtenOrders (log : List OrderEvent) : List OrderJob :=
  log.filterMap (fun event => match event with | .wrote true (some f) => f.job | _ => none)

namespace OrderBook

variable {b b' : OrderBook} {log log' : List OrderEvent} {job : OrderJob}

/-- The orders that are to be written and those that are. -/
def places (b : OrderBook) (log : List OrderEvent) : List OrderJob :=
  b.orders ++ b.queued ++ writtenOrders log

def Reported (b : OrderBook) (job : OrderJob) : Prop := ∃ r ∈ b.results, r.orderId = job.orderId

def Accounted (b : OrderBook) (log : List OrderEvent) : Prop :=
  ∀ job ∈ acceptedOrders log, job ∈ b.places log ∨ b.Reported job

/-- Every accepted order is accounted for, and the orders in their places are accepted, each in one. -/
structure Kept (b : OrderBook) (log : List OrderEvent) : Prop where
  sound : b.Sound
  distinct : ((b.places log).map OrderJob.orderId).Nodup
  old : ∀ job ∈ b.places log, job.orderId < b.nextOrderId
  known : ∀ job ∈ b.places log, job ∈ acceptedOrders log
  accounted : b.Accounted log

lemma Reported.mono (h : b.Reported job) (hresults : ∀ r ∈ b.results, r ∈ b'.results) :
    b'.Reported job := by
  obtain ⟨r, hr, hid⟩ := h
  exact ⟨r, hresults r hr, hid⟩

/-- The orders change their places. -/
lemma Kept.move (h : b.Kept log) (hsound : b'.Sound) (hplaces : (b'.places log').Perm (b.places log))
    (haccepted : acceptedOrders log' = acceptedOrders log)
    (hresults : ∀ r ∈ b.results, r ∈ b'.results) (hnext : b.nextOrderId ≤ b'.nextOrderId) :
    b'.Kept log' := by
  constructor
  · exact hsound
  · exact (hplaces.map OrderJob.orderId).nodup_iff.mpr h.distinct
  · intro job hjob
    exact (h.old job (hplaces.subset hjob)).trans_le hnext
  · intro job hjob
    rw [haccepted]
    exact h.known job (hplaces.subset hjob)
  · intro job hjob
    rw [haccepted] at hjob
    rcases h.accounted job hjob with hplace | hreported
    · exact .inl (hplaces.symm.subset hplace)
    · exact .inr (hreported.mono hresults)

/-- An order comes into its first place. -/
lemma Kept.accept (h : b.Kept log) (hsound : b'.Sound) (hid : job.orderId = b.nextOrderId)
    (hplaces : (b'.places log').Perm (job :: b.places log))
    (haccepted : acceptedOrders log' = acceptedOrders log ++ [job])
    (hresults : ∀ r ∈ b.results, r ∈ b'.results) (hnext : b'.nextOrderId = b.nextOrderId + 1) :
    b'.Kept log' := by
  constructor
  · exact hsound
  · rw [(hplaces.map OrderJob.orderId).nodup_iff, List.map_cons, List.nodup_cons]
    refine ⟨?_, h.distinct⟩
    intro hmem
    obtain ⟨k, hk, hsame⟩ := List.mem_map.mp hmem
    have hlt := h.old k hk
    omega
  · intro k hk
    rcases List.mem_cons.mp (hplaces.subset hk) with rfl | hold
    · omega
    · have hlt := h.old k hold
      omega
  · intro k hk
    rw [haccepted]
    rcases List.mem_cons.mp (hplaces.subset hk) with rfl | hold
    · exact List.mem_append_right _ (List.mem_singleton_self k)
    · exact List.mem_append_left _ (h.known k hold)
  · intro k hk
    rw [haccepted] at hk
    rcases List.mem_append.mp hk with hold | hnew
    · rcases h.accounted k hold with hplace | hreported
      · exact .inl (hplaces.symm.subset (List.mem_cons_of_mem job hplace))
      · exact .inr (hreported.mono hresults)
    · rw [List.mem_singleton.mp hnew]
      exact .inl (hplaces.symm.subset List.mem_cons_self)

/-- An order loses its place; it is accounted for only by its result. -/
lemma Kept.drop (h : b.Kept log) (hsound : b'.Sound) (hplaces : (b.places log).Perm (job :: b'.places log'))
    (haccepted : acceptedOrders log' = acceptedOrders log) (hresults : b'.results = b.results)
    (hnext : b'.nextOrderId = b.nextOrderId) :
    (b.Reported job → b'.Kept log') ∧ (b'.Accounted log' → b.Reported job) := by
  have hdistinct := (hplaces.map OrderJob.orderId).nodup_iff.mp h.distinct
  rw [List.map_cons, List.nodup_cons] at hdistinct
  constructor
  · intro hreported
    constructor
    · exact hsound
    · exact hdistinct.2
    · intro k hk
      rw [hnext]
      exact h.old k (hplaces.symm.subset (List.mem_cons_of_mem job hk))
    · intro k hk
      rw [haccepted]
      exact h.known k (hplaces.symm.subset (List.mem_cons_of_mem job hk))
    · intro k hk
      rw [haccepted] at hk
      have hkeep : ∀ r ∈ b.results, r ∈ b'.results := fun r hr => hresults ▸ hr
      rcases h.accounted k hk with hplace | hold
      · rcases List.mem_cons.mp (hplaces.subset hplace) with rfl | hplace
        · exact .inr (hreported.mono hkeep)
        · exact .inl hplace
      · exact .inr (hold.mono hkeep)
  · intro haccounted
    have hjob : job ∈ acceptedOrders log' := by
      rw [haccepted]
      exact h.known job (hplaces.symm.subset List.mem_cons_self)
    rcases haccounted job hjob with hplace | hreported
    · exact absurd (List.mem_map_of_mem hplace) hdistinct.1
    · exact hreported.mono (fun r hr => hresults ▸ hr)

/-! ### The end of a write -/

lemma writtenOrders_concat (log : List OrderEvent) (event : OrderEvent) :
    writtenOrders (log ++ [event]) = writtenOrders log ++ writtenOrders [event] :=
  List.filterMap_append

lemma acceptedOrders_wrote (log : List OrderEvent) (ok : Bool) (frame : Option Outgoing) :
    acceptedOrders (log ++ [OrderEvent.wrote ok frame]) = acceptedOrders log := by
  simp [acceptedOrders]

lemma Kept.popped_sound (h : b.Kept log) (queued : List OrderJob) : (b.popped queued).Sound :=
  ⟨h.sound.distinct, h.sound.old, h.sound.named⟩

/-- The frame has no order. -/
lemma Kept.wroteMessage (h : b.Kept log) (ok : Bool) {frame : Option Outgoing}
    (hframe : frame.bind Outgoing.job = none) : (b.popped b.queued).Kept (log ++ [OrderEvent.wrote ok frame]) := by
  have hsame : writtenOrders [.wrote ok frame] = [] := by
    cases ok with
    | false => rfl
    | true =>
      cases frame with
      | none => rfl
      | some f => exact List.filterMap_cons_none hframe
  apply h.move (h.popped_sound b.queued) _ (acceptedOrders_wrote log ok frame) (fun _ hr => hr) le_rfl
  unfold places
  rw [writtenOrders_concat, hsame, List.append_nil]
  exact List.Perm.refl _

/-- The order at the head of the queue is written. -/
lemma Kept.wroteOrder (h : b.Kept log) {f : Outgoing} {rest : List OrderJob} (hjob : f.job = some job)
    (hqueued : b.queued = job :: rest) : (b.popped rest).Kept (log ++ [OrderEvent.wrote true (some f)]) := by
  have hone : writtenOrders [.wrote true (some f)] = [job] := List.filterMap_cons_some hjob
  apply h.move (h.popped_sound rest) _ (acceptedOrders_wrote log true (some f)) (fun _ hr => hr) le_rfl
  unfold places
  rw [writtenOrders_concat, hone, hqueued]
  simp only [popped, List.append_assoc]
  apply List.Perm.append_left
  rw [List.cons_append, ← List.append_assoc]
  exact List.perm_append_singleton _ _

/-- The write of the order at the head of the queue fails. -/
lemma Kept.failedOrder (h : b.Kept log) (f : Outgoing) {rest : List OrderJob}
    (hqueued : b.queued = job :: rest) :
    (b.Reported job → (b.popped rest).Kept (log ++ [OrderEvent.wrote false (some f)])) ∧
      ((b.popped rest).Accounted (log ++ [OrderEvent.wrote false (some f)]) → b.Reported job) := by
  have hsame : writtenOrders [.wrote false (some f)] = [] := rfl
  apply h.drop (h.popped_sound rest) _ (acceptedOrders_wrote log false (some f)) rfl rfl
  unfold places
  rw [writtenOrders_concat, hsame, hqueued, List.append_nil, List.append_assoc, List.append_assoc]
  exact List.perm_middle

end OrderBook

/-- Whether the event is no failed write of an order without a result. -/
def OrderEvent.spares (results : List ExecutionResult) : OrderEvent → Bool
  | .wrote false (some f) =>
    f.job.all (fun job => results.any (fun r => decide (r.orderId = job.orderId)))
  | _ => true

end Fix

open LatencyArb.Fix

namespace FixExecutor

variable {cfg : Config} {utc : Nat → String} {e : FixExecutor} {log : List OrderEvent}

def journal (e : FixExecutor) (a : Action) : List OrderEvent := (e.event a).toList

/-- No accepted order is dropped. -/
def Accounts (e : FixExecutor) (log : List OrderEvent) : Prop := e.book.Accounted log

def sparesOrders (e : FixExecutor) (a : Action) : Bool := (e.event a).all (OrderEvent.spares e.results)

lemma queuedOrders_cons {f : Outgoing} {rest : List Outgoing} (h : e.wqueue = f :: rest) :
    e.queuedOrders = f.job.toList ++ rest.filterMap Outgoing.job := by
  unfold queuedOrders
  rw [h, List.filterMap_cons]
  cases f.job <;> rfl

/-- The completion of a write keeps the accounts unless it fails for an order without a result. -/
lemma wrote_accounts (h : e.book.Kept log) (ok : Bool) :
    ((OrderEvent.wrote ok e.wqueue.head?).spares e.results = true →
        (e.book.popped (e.wqueue.tail.filterMap Outgoing.job)).Kept (log ++ [OrderEvent.wrote ok e.wqueue.head?])) ∧
      ((e.book.popped (e.wqueue.tail.filterMap Outgoing.job)).Accounted (log ++ [OrderEvent.wrote ok e.wqueue.head?]) →
        (OrderEvent.wrote ok e.wqueue.head?).spares e.results = true) := by
  cases hq : e.wqueue with
  | nil =>
    have hnone : e.book.queued = [] := by
      show e.queuedOrders = []
      rw [queuedOrders, hq]
      rfl
    have hkept : (e.book.popped e.book.queued).Kept (log ++ [.wrote ok none]) := h.wroteMessage ok rfl
    rw [hnone] at hkept
    refine ⟨fun _ => hkept, ?_⟩
    cases ok <;> exact fun _ => rfl
  | cons f rest =>
    have hcons : e.book.queued = f.job.toList ++ rest.filterMap Outgoing.job := queuedOrders_cons hq
    cases hjob : f.job with
    | none =>
      have hkept : (e.book.popped e.book.queued).Kept (log ++ [.wrote ok (some f)]) :=
        h.wroteMessage ok hjob
      rw [hcons, hjob] at hkept
      refine ⟨fun _ => hkept, ?_⟩
      cases ok <;> simp [OrderEvent.spares, hjob]
    | some job =>
      rw [hjob] at hcons
      cases ok with
      | true => exact ⟨fun _ => h.wroteOrder hjob hcons, fun _ => rfl⟩
      | false =>
        have hspares : (OrderEvent.wrote false (some f)).spares e.results = true ↔
            e.book.Reported job := by
          simp [OrderEvent.spares, hjob, OrderBook.Reported, book]
        rw [List.head?_cons, hspares]
        exact h.failedOrder f hcons

/-- A step keeps the accounts exactly when it spares the orders. -/
lemma BookMove.accounts {event : Option OrderEvent} {b : OrderBook} (h : e.book.Kept log)
    (hmove : BookMove e event b) :
    (event.all (OrderEvent.spares e.results) = true → b.Kept (log ++ event.toList)) ∧
      (b.Accounted (log ++ event.toList) → event.all (OrderEvent.spares e.results) = true) := by
  have hsound := hmove.sound h.sound
  cases hmove with
  | same =>
    rw [Option.toList_none, List.append_nil]
    exact ⟨fun _ => h, fun _ => rfl⟩
  | refused =>
    rw [Option.toList_none, List.append_nil]
    exact ⟨fun _ => h.move hsound (List.Perm.refl _) rfl (fun _ hr => hr) (Nat.le_succ _), fun _ => rfl⟩
  | drained =>
    rw [Option.toList_none, List.append_nil]
    refine ⟨fun _ => h.move hsound ?_ rfl ?_ ?_, fun _ => rfl⟩
    · rw [h.sound.drain_eq]
      simp only [OrderBook.places, List.nil_append]
      exact List.perm_append_comm.append_right _
    · intro r hr
      rw [h.sound.drain_eq]
      exact hr
    · rw [h.sound.drain_eq]
  | accepted call =>
    have hid : (e.newJob call).orderId = e.book.nextOrderId := rfl
    refine ⟨fun _ => h.accept hsound hid ?_ ?_ (fun _ hr => hr) rfl, fun _ => rfl⟩
    · have hwritten : writtenOrders (log ++ [OrderEvent.accepted (e.newJob call)]) = writtenOrders log := by
        simp [writtenOrders]
      simp only [Option.toList_some, OrderBook.places, hwritten, OrderBook.accept, List.append_assoc,
        List.singleton_append]
      exact List.perm_middle
    · simp [acceptedOrders]
  | wrote ok =>
    simp only [Option.all_some, Option.toList_some]
    exact wrote_accounts h ok
  | report f move =>
    have hwritten : writtenOrders (log ++ [OrderEvent.report f]) = writtenOrders log := by simp [writtenOrders]
    have haccepted : acceptedOrders (log ++ [OrderEvent.report f]) = acceptedOrders log := by
      simp [acceptedOrders]
    refine ⟨fun _ => ?_, fun _ => rfl⟩
    cases move with
    | ignored unknown =>
      apply h.move hsound _ haccepted (fun _ hr => hr) le_rfl
      simp only [OrderBook.places, hwritten]
      exact List.Perm.refl _
    | reported job r pending named result =>
      apply h.move hsound _ haccepted (fun _ hr => List.mem_append_left _ hr) le_rfl
      simp only [OrderBook.places, hwritten]
      exact List.Perm.refl _

/-- In a run no accepted order is dropped exactly when every write that fails is of a session message or
of an order that has its result. -/
theorem no_order_dropped_iff (cfg : Config) (utc : Nat → String) (run : List Action) :
    ((machine cfg utc).recorded journal).Always run (fun _ _ t => t.1.Accounts t.2) ↔
      ((machine cfg utc).recorded journal).Always run (fun s a _ => s.1.sparesOrders a = true) := by
  apply Machine.always_iff_along (I := fun s => s.1.book.Kept s.2)
  · have hinit : (machine cfg utc).Reachable (machine cfg utc).init := ⟨[], rfl⟩
    constructor
    · exact reachable_book_sound hinit
    · exact List.nodup_nil
    · intro job hjob
      cases hjob
    · intro job hjob
      cases hjob
    · intro job hjob
      cases hjob
  · intro s a t _ hI hs hC
    obtain ⟨hstep, hrecord⟩ := Machine.recorded_step hs
    rw [hrecord]
    exact ((step_bookMove hI.sound hstep).accounts hI).1 hC
  · intro s a t _ hI hs
    obtain ⟨hstep, hrecord⟩ := Machine.recorded_step hs
    obtain ⟨hkept, hspares⟩ := (step_bookMove hI.sound hstep).accounts hI
    rw [hrecord]
    exact ⟨hspares, fun hC => (hkept hC).accounted⟩

/-- The Logon of a session is written, then an order is taken and its write fails. -/
def failedOrder : List Action :=
  [.start, .loop, .connect .up, .drain, .listen, .arm, .wrote true, .handle,
    .execute ⟨"XAU/USD", "buy", 1, 0, 0⟩, .post, .handle, .wrote false]

/-- The orders that are accepted, those written, in the mailbox and in the queue, and those reported. -/
def account (run : List Action) : Option (List (List Nat)) :=
  (((machine {} (fun _ => "")).recorded journal).run
      ((machine {} (fun _ => "")).recorded journal).init run).map (fun s =>
    [(acceptedOrders s.2).map OrderJob.orderId, (writtenOrders s.2).map OrderJob.orderId,
      s.1.orders.map OrderJob.orderId, s.1.queuedOrders.map OrderJob.orderId,
      s.1.results.map ExecutionResult.orderId])

/-- The order whose write fails is nowhere, and it still is when the next session has written its
Logon. -/
theorem failed_order_dropped :
    account (failedOrder ++ [Action.handle]) = some [[1], [], [], [], []] ∧
    account (failedOrder ++ [Action.handle, .leave, .loop, .connect .up, .drain, .listen, .arm, .handle, .handle,
      .wrote true, .handle]) = some [[1], [], [], [], []] ∧
    ¬((machine {} (fun _ => "")).recorded journal).Always (failedOrder ++ [Action.handle])
      (fun _ _ t => t.1.Accounts t.2) := by
  have hlost : account (failedOrder ++ [Action.handle]) = some [[1], [], [], [], []] := by decide +kernel
  have hlater : account (failedOrder ++ [Action.handle, .leave, .loop, .connect .up, .drain, .listen, .arm,
      .handle, .handle, .wrote true, .handle]) = some [[1], [], [], [], []] := by decide +kernel
  refine ⟨hlost, hlater, ?_⟩
  intro haccounts
  obtain ⟨t, ht, hplaces⟩ := Option.map_eq_some_iff.mp hlost
  obtain ⟨s, hs, hlast⟩ := Machine.run_concat_eq_some _ |>.mp ht
  have haccounted := haccounts failedOrder .handle s t List.prefix_rfl hs hlast
  simp only [List.cons.injEq, List.map_eq_nil_iff, and_true] at hplaces
  obtain ⟨hone, hwritten, horders, hqueued, hresults⟩ := hplaces
  obtain ⟨job, hjob, -⟩ := List.mem_map.mp (by rw [hone]; exact List.mem_singleton_self 1)
  rcases haccounted job hjob with hplace | ⟨r, hr, -⟩
  · have hnowhere : t.1.book.places t.2 = [] := by
      show t.1.orders ++ t.1.queuedOrders ++ writtenOrders t.2 = []
      rw [horders, hqueued, hwritten]
      rfl
    rw [hnowhere] at hplace
    cases hplace
  · have hnone : t.1.book.results = [] := hresults
    rw [hnone] at hr
    cases hr

end FixExecutor

end LatencyArb
