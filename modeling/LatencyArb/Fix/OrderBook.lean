import LatencyArb.Fix.Executor

/-!
# The order book of the FIX executor

An order is in the mailbox, then in the write queue and in the table of pending orders, and at last
among the results. The book is what the executor has of its orders; every step makes one move of it.
-/

namespace LatencyArb

namespace Fix

lemma ascii_inj {s t : String} : ascii s = ascii t ↔ s = t := by
  constructor
  · intro h
    have hdata : s.toUTF8.data = t.toUTF8.data := Array.toList_inj.mp h
    exact String.toByteArray_inj.mp (ByteArray.ext hdata)
  · rintro rfl
    rfl

/-- `queued` are the orders in the frames of the write queue. -/
structure OrderBook where
  orders : List OrderJob
  queued : List OrderJob
  pending : List OrderJob
  results : List ExecutionResult
  nextOrderId : Nat

namespace OrderBook

def accept (b : OrderBook) (job : OrderJob) : OrderBook :=
  { b with orders := b.orders ++ [job], nextOrderId := b.nextOrderId + 1 }

def refuse (b : OrderBook) : OrderBook := { b with nextOrderId := b.nextOrderId + 1 }

/-- An order of the mailbox is sent. -/
def park (b : OrderBook) (job : OrderJob) : OrderBook :=
  { b with
    pending := b.pending.filter (fun j => decide (j.clOrdId ≠ job.clOrdId)) ++ [job]
    queued := b.queued ++ [job] }

def drain (b : OrderBook) : OrderBook := b.orders.foldl park { b with orders := [] }

/-- The write of the head of the queue is over. -/
def popped (b : OrderBook) (queued : List OrderJob) : OrderBook := { b with queued := queued }

def report (b : OrderBook) (job : OrderJob) (r : ExecutionResult) : OrderBook :=
  { b with
    pending := b.pending.filter (fun j => decide (j.clOrdId ≠ job.clOrdId))
    results := b.results ++ [r] }

/-- The orders that wait or are pending, and their numbers with those of the results. -/
def unreported (b : OrderBook) : List OrderJob := b.orders ++ b.pending

def ids (b : OrderBook) : List Nat :=
  b.unreported.map OrderJob.orderId ++ b.results.map ExecutionResult.orderId

/-- No two orders have the same number, and every ClOrdID is made of the number. -/
structure Sound (b : OrderBook) : Prop where
  distinct : b.ids.Nodup
  old : ∀ id ∈ b.ids, id < b.nextOrderId
  named : ∀ job ∈ b.unreported, job.clOrdId = "LL" ++ toString job.orderId

variable {b : OrderBook} {job : OrderJob} {r : ExecutionResult}

lemma clOrdId_inj {j k : OrderJob} (hj : j.clOrdId = "LL" ++ toString j.orderId)
    (hk : k.clOrdId = "LL" ++ toString k.orderId) : j.clOrdId = k.clOrdId ↔ j.orderId = k.orderId := by
  rw [hj, hk, String.append_right_inj]
  constructor
  · intro h
    exact Nat.repr_injective h
  · intro h
    rw [h]

lemma Sound.accept (h : b.Sound) (hid : job.orderId = b.nextOrderId)
    (hname : job.clOrdId = "LL" ++ toString job.orderId) : (b.accept job).Sound := by
  have hperm : (b.accept job).ids.Perm (job.orderId :: b.ids) := by
    simp only [ids, unreported, OrderBook.accept, List.map_append, List.map_cons,
      List.append_assoc, List.singleton_append]
    exact List.perm_middle
  constructor
  · rw [hperm.nodup_iff, List.nodup_cons]
    refine ⟨?_, h.distinct⟩
    intro hmem
    have hlt := h.old job.orderId hmem
    omega
  · intro id hid'
    rcases List.mem_cons.mp (hperm.subset hid') with rfl | hold
    · rw [hid]
      exact Nat.lt_succ_self _
    · exact (h.old id hold).trans (Nat.lt_succ_self _)
  · intro k hk
    simp only [unreported, OrderBook.accept, List.append_assoc, List.mem_append, List.mem_singleton] at hk
    rcases hk with hk | rfl | hk
    · exact h.named k (List.mem_append_left _ hk)
    · exact hname
    · exact h.named k (List.mem_append_right _ hk)

lemma Sound.refuse (h : b.Sound) : b.refuse.Sound :=
  ⟨h.distinct, fun id hid => (h.old id hid).trans (Nat.lt_succ_self _), h.named⟩

/-- Among the pending orders the one with this ClOrdID is the one with this number. -/
lemma filter_clOrdId {jobs : List OrderJob} (hnamed : ∀ j ∈ jobs, j.clOrdId = "LL" ++ toString j.orderId)
    (hjob : job.clOrdId = "LL" ++ toString job.orderId) :
    jobs.filter (fun j => decide (j.clOrdId ≠ job.clOrdId)) =
      jobs.filter (fun j => decide (j.orderId ≠ job.orderId)) := by
  apply List.filter_congr
  intro j hj
  simp only [ne_eq, clOrdId_inj (hnamed j hj) hjob]

lemma perm_cons_filter {jobs : List OrderJob} (hdistinct : (jobs.map OrderJob.orderId).Nodup)
    (hjob : job ∈ jobs) :
    jobs.Perm (job :: jobs.filter (fun j => decide (j.orderId ≠ job.orderId))) := by
  have hfilter : jobs.filter (fun j => decide (j.orderId ≠ job.orderId)) = jobs.erase job := by
    rw [(List.Nodup.of_map _ hdistinct).erase_eq_filter]
    apply List.filter_congr
    intro j hj
    have hinj : j.orderId = job.orderId ↔ j = job := by
      constructor
      · exact List.inj_on_of_nodup_map hdistinct hj hjob
      · intro h
        rw [h]
    rw [Bool.eq_iff_iff]
    simp [hinj]
  rw [hfilter]
  exact List.perm_cons_erase hjob

lemma Sound.pending_distinct (h : b.Sound) : (b.pending.map OrderJob.orderId).Nodup := by
  have hdistinct := h.distinct
  rw [ids, unreported, List.map_append, List.nodup_append, List.nodup_append] at hdistinct
  exact hdistinct.1.2.1

/-- A pending order that is reported moves to the results. -/
lemma Sound.report (h : b.Sound) (hjob : job ∈ b.pending) (hid : r.orderId = job.orderId) :
    (b.report job r).Sound := by
  have hname := h.named job (List.mem_append_right _ hjob)
  have hfilter := filter_clOrdId (fun j hj => h.named j (List.mem_append_right _ hj)) hname
  have hpending := (perm_cons_filter h.pending_distinct hjob).map OrderJob.orderId
  have hperm : (b.report job r).ids.Perm b.ids := by
    simp only [ids, unreported, OrderBook.report, hfilter, List.map_append, List.map_cons,
      List.map_nil, hid, List.append_assoc] at hpending ⊢
    apply List.Perm.append_left
    refine List.Perm.trans ?_ (hpending.symm.append_right _)
    rw [List.cons_append, ← List.append_assoc]
    exact List.perm_append_singleton _ _
  constructor
  · exact hperm.nodup_iff.mpr h.distinct
  · intro id hid'
    exact h.old id (hperm.subset hid')
  · intro k hk
    rcases List.mem_append.mp hk with hk | hk
    · exact h.named k (List.mem_append_left _ hk)
    · exact h.named k (List.mem_append_right _ (List.mem_of_mem_filter hk))

lemma foldl_park {jobs : List OrderJob} {d : OrderBook}
    (hdistinct : ((d.pending ++ jobs).map OrderJob.clOrdId).Nodup) :
    jobs.foldl park d = { d with pending := d.pending ++ jobs, queued := d.queued ++ jobs } := by
  induction jobs generalizing d with
  | nil => simp
  | cons job jobs ih =>
    have hkept : d.pending.filter (fun j => decide (j.clOrdId ≠ job.clOrdId)) = d.pending := by
      rw [List.filter_eq_self]
      intro j hj
      rw [List.map_append, List.nodup_append] at hdistinct
      have hne := hdistinct.2.2 j.clOrdId (List.mem_map_of_mem hj) job.clOrdId (by simp)
      simpa using hne
    have hparked : d.park job = { d with pending := d.pending ++ [job], queued := d.queued ++ [job] } := by
      unfold park
      rw [hkept]
    rw [List.foldl_cons, hparked, ih]
    · simp
    · simpa using hdistinct

/-- Drained orders are pending and queued. -/
lemma Sound.drain_eq (h : b.Sound) :
    b.drain =
      { b with orders := [], pending := b.pending ++ b.orders, queued := b.queued ++ b.orders } := by
  have hdistinct := h.distinct
  rw [ids, List.nodup_append] at hdistinct
  have hclOrdIds : ((b.pending ++ b.orders).map OrderJob.clOrdId).Nodup := by
    apply List.Nodup.map_on
    · intro j hj k hk heq
      have hj' : j ∈ b.unreported := (List.perm_append_comm.subset hj)
      have hk' : k ∈ b.unreported := (List.perm_append_comm.subset hk)
      exact List.inj_on_of_nodup_map hdistinct.1 hj' hk'
        ((clOrdId_inj (h.named j hj') (h.named k hk')).mp heq)
    · exact List.perm_append_comm.nodup_iff.mp (List.Nodup.of_map _ hdistinct.1)
  exact foldl_park hclOrdIds

lemma Sound.drain (h : b.Sound) : b.drain.Sound := by
  rw [h.drain_eq]
  have hperm : (b.pending ++ b.orders).Perm b.unreported := List.perm_append_comm
  have hids := (hperm.map OrderJob.orderId).append_right (b.results.map ExecutionResult.orderId)
  constructor
  · exact hids.nodup_iff.mpr h.distinct
  · intro id hid
    exact h.old id (hids.subset hid)
  · intro job hjob
    exact h.named job (hperm.subset hjob)

end OrderBook

/-- What a step does to the orders: `execute` takes one, the completion of the write at the head of the
queue is handled, or an ExecutionReport is. -/
inductive OrderEvent where
  | accepted (job : OrderJob)
  | wrote (ok : Bool) (frame : Option Outgoing)
  | report (frame : Bytes)

end Fix

open LatencyArb.Fix

namespace FixExecutor

def event (e : FixExecutor) : Action → Option OrderEvent
  | .execute call => ((e.execute call).orders.drop e.orders.length).head?.map OrderEvent.accepted
  | .handle =>
    match e.stage, e.ioStopped, e.handlers with
    | .running, false, .wrote ok :: _ => some (.wrote ok e.wqueue.head?)
    | _, _, _ => none
  | .parse =>
    match e.stage, scan e.inbound with
    | .parsing, .item f _ => if scanTag f 35 = ascii "8" then some (.report f) else none
    | _, _ => none
  | _ => none

/-- The orders in the frames of the write queue. -/
def queuedOrders (e : FixExecutor) : List OrderJob := e.wqueue.filterMap Outgoing.job

def book (e : FixExecutor) : OrderBook :=
  ⟨e.orders, e.queuedOrders, e.pendingOrders, e.results, e.nextOrderId⟩

variable {cfg : Config} {utc : Nat → String} {e : FixExecutor}

lemma pumpWrite_book (e : FixExecutor) : e.pumpWrite.book = e.book := by
  unfold pumpWrite
  split
  · rfl
  · split <;> rfl

lemma send_book (e : FixExecutor) (build : Nat → String → Message) :
    (e.send utc build).book = e.book := by
  unfold send ioWrite
  rw [pumpWrite_book]
  simp [book, queuedOrders]

lemma sendOrder_book (e : FixExecutor) (job : OrderJob) :
    (e.sendOrder cfg utc job).book = e.book.park job := by
  unfold sendOrder send ioWrite
  rw [pumpWrite_book]
  simp [book, queuedOrders, OrderBook.park]

lemma foldl_sendOrder_book (jobs : List OrderJob) (e : FixExecutor) :
    (jobs.foldl (sendOrder cfg utc) e).book = jobs.foldl OrderBook.park e.book := by
  induction jobs generalizing e with
  | nil => rfl
  | cons job jobs ih => rw [List.foldl_cons, List.foldl_cons, ih, sendOrder_book]

lemma drainOrders_book (e : FixExecutor) :
    (e.drainOrders cfg utc).book = if e.connected then e.book.drain else e.book := by
  unfold drainOrders
  by_cases hc : e.connected = true
  · simp only [hc, Bool.not_true, Bool.false_eq_true, if_false, if_true]
    exact foldl_sendOrder_book e.orders _
  · simp [hc]

lemma cancelTimer_book (e : FixExecutor) : e.cancelTimer.book = e.book := by
  unfold cancelTimer
  split <;> rfl

lemma startHbTimer_book (e : FixExecutor) : (e.startHbTimer cfg).book = e.book := by
  unfold startHbTimer
  split
  · rfl
  · exact cancelTimer_book e

lemma startRead_book (e : FixExecutor) : e.startRead.book = e.book := by
  unfold startRead
  split <;> rfl

lemma onTimer_book (e : FixExecutor) (aborted : Bool) : (e.onTimer cfg utc aborted).book = e.book := by
  unfold onTimer
  split
  · rfl
  · split
    · rfl
    · split
      · rw [startHbTimer_book, send_book]
      · exact startHbTimer_book e

lemma onLogout_book (e : FixExecutor) : (e.onLogout cfg utc).book = e.book := by
  unfold onLogout
  split <;> rfl

lemma onRead_book (e : FixExecutor) (outcome : ReadOutcome) : (e.onRead outcome).book = e.book := by
  cases outcome <;> rfl

/-- What `on_execution_report` makes of the book. -/
inductive ReportMove (e : FixExecutor) (f : Bytes) : OrderBook → Prop where
  | ignored
      (unknown : ∀ job ∈ e.pendingOrders, ascii job.clOrdId = scanTag f 11 →
        executionResult job f e.nowMs = none) : ReportMove e f e.book
  | reported (job : OrderJob) (r : ExecutionResult) (pending : job ∈ e.pendingOrders)
      (named : ascii job.clOrdId = scanTag f 11) (result : executionResult job f e.nowMs = some r) :
      ReportMove e f (e.book.report job r)

inductive BookMove (e : FixExecutor) : Option OrderEvent → OrderBook → Prop where
  | same : BookMove e none e.book
  | refused : BookMove e none e.book.refuse
  | drained : BookMove e none e.book.drain
  | accepted (call : OrderCall) :
      BookMove e (some (.accepted (e.newJob call))) (e.book.accept (e.newJob call))
  | wrote (ok : Bool) :
      BookMove e (some (.wrote ok e.wqueue.head?))
        (e.book.popped (e.wqueue.tail.filterMap Outgoing.job))
  | report (f : Bytes) {b : OrderBook} (move : ReportMove e f b) : BookMove e (some (.report f)) b

lemma execute_move (e : FixExecutor) (call : OrderCall) :
    BookMove e (e.event (.execute call)) (e.execute call).book := by
  by_cases hvalid : call.instrument = "" ∨ (call.side ≠ "buy" ∧ call.side ≠ "sell") ∨ call.volume ≤ 0
  · have he : e.execute call = e := if_pos hvalid
    have hevent : e.event (.execute call) = none := by simp [event, he]
    rw [hevent, he]
    exact .same
  · by_cases hroom : e.queueLimit ≤ e.orders.length
    · have he : e.execute call = { e with nextOrderId := e.nextOrderId + 1 } :=
        (if_neg hvalid).trans (if_pos hroom)
      have hevent : e.event (.execute call) = none := by simp [event, he]
      rw [hevent, he]
      exact .refused
    · have he : e.execute call = _ := (if_neg hvalid).trans (if_neg hroom)
      have hevent : e.event (.execute call) = some (.accepted (e.newJob call)) := by simp [event, he]
      rw [hevent, he]
      exact .accepted call

/-- The pending order with the ClOrdID of a report is the one that is found. -/
lemma find_pending (h : e.book.Sound) {job : OrderJob} (hjob : job ∈ e.pendingOrders) {cl : Bytes}
    (hcl : ascii job.clOrdId = cl) :
    cl ≠ [] ∧ e.pendingOrders.find? (fun j => decide (ascii j.clOrdId = cl)) = some job := by
  have hnamed : ∀ j ∈ e.pendingOrders, j.clOrdId = "LL" ++ toString j.orderId :=
    fun j hj => h.named j (List.mem_append_right _ hj)
  subst hcl
  constructor
  · intro hnil
    have hempty : job.clOrdId = "" := ascii_inj.mp hnil
    have hlength := congrArg String.length ((hnamed job hjob).symm.trans hempty)
    simp at hlength
  · match hf : e.pendingOrders.find? (fun j => decide (ascii j.clOrdId = ascii job.clOrdId)) with
    | none =>
      have hnone := List.find?_eq_none.mp hf job hjob
      simp at hnone
    | some k =>
      have hk := List.mem_of_find?_eq_some hf
      have hsame : k.clOrdId = job.clOrdId := by
        have hfound := List.find?_some hf
        exact ascii_inj.mp (of_decide_eq_true hfound)
      have hid := (OrderBook.clOrdId_inj (hnamed k hk) (hnamed job hjob)).mp hsame
      rw [hf, List.inj_on_of_nodup_map h.pending_distinct hk hjob hid]

lemma onExecutionReport_move (h : e.book.Sound) (f : Bytes) :
    ReportMove e f (e.onExecutionReport f).book := by
  unfold onExecutionReport
  split
  · rename_i hnil
    apply ReportMove.ignored
    intro job hjob hcl
    exact absurd hnil (find_pending h hjob hcl).1
  · split
    · rename_i hnone
      apply ReportMove.ignored
      intro job hjob hcl
      rw [(find_pending h hjob hcl).2] at hnone
      cases hnone
    · rename_i job hfound
      have hjob := List.mem_of_find?_eq_some hfound
      have hmatch := List.find?_some hfound
      have hcl : ascii job.clOrdId = scanTag f 11 := of_decide_eq_true hmatch
      split
      · rename_i hresult
        apply ReportMove.ignored
        intro k hk hname
        have hsame := (find_pending h hk hname).2
        rw [hfound] at hsame
        rw [← Option.some.inj hsame]
        exact hresult
      · rename_i r hresult
        exact .reported job r hjob hcl hresult

lemma noteFrame_book (e : FixExecutor) (f : Bytes) : (e.noteFrame cfg utc f).book = e.book := by
  unfold noteFrame
  split
  · rfl
  · exact send_book _ _

lemma noteFrame_nowMs (e : FixExecutor) (f : Bytes) : (e.noteFrame cfg utc f).nowMs = e.nowMs := by
  unfold noteFrame
  split
  · rfl
  · unfold send ioWrite pumpWrite
    split
    · rfl
    · split <;> rfl

lemma ReportMove.congr {d : FixExecutor} {f : Bytes} {b : OrderBook} (h : ReportMove d f b)
    (hbook : d.book = e.book) (hnow : d.nowMs = e.nowMs) : ReportMove e f b := by
  have hpending : d.pendingOrders = e.pendingOrders := congrArg OrderBook.pending hbook
  cases h with
  | ignored unknown =>
    rw [hbook]
    apply ReportMove.ignored
    intro job hjob hcl
    rw [← hnow]
    exact unknown job (hpending ▸ hjob) hcl
  | reported job r pending named result =>
    rw [hbook]
    exact .reported job r (hpending ▸ pending) named (hnow ▸ result)

variable (cfg utc) in
/-- Only an ExecutionReport makes a difference to the book. -/
lemma handleFrame_move (h : e.book.Sound) (f : Bytes) :
    (scanTag f 35 = ascii "8" → ReportMove e f (e.handleFrame cfg utc f).book) ∧
      (scanTag f 35 ≠ ascii "8" → (e.handleFrame cfg utc f).book = e.book) := by
  unfold handleFrame
  generalize hd : ({ e with lastRecvMs := e.nowMs, handled := e.handled ++ [f] } :
    FixExecutor).noteFrame cfg utc f = d
  have hbook : d.book = e.book := by
    rw [← hd, noteFrame_book]
    rfl
  have hnow : d.nowMs = e.nowMs := by
    rw [← hd, noteFrame_nowMs]
  unfold dispatch
  constructor
  · intro htype
    rw [if_pos htype]
    have hsound : d.book.Sound := hbook ▸ h
    exact (onExecutionReport_move hsound f).congr hbook hnow
  · intro htype
    rw [if_neg htype]
    split
    · rw [send_book, hbook]
    · split
      · exact hbook
      · exact hbook

lemma readAgain_book (e : FixExecutor) : e.readAgain.book = e.book := startRead_book e

lemma event_parse (hstage : e.stage = .parsing) :
    e.event .parse =
      match scan e.inbound with
      | .item f _ => if scanTag f 35 = ascii "8" then some (.report f) else none
      | _ => none := by
  unfold event
  rw [hstage]
  match scan e.inbound with
  | .wait _ => rfl
  | .skip _ => rfl
  | .item _ _ => rfl

lemma parse_move (h : e.book.Sound) (hstage : e.stage = .parsing) :
    BookMove e (e.event .parse) (e.parse cfg utc).book := by
  rw [event_parse hstage]
  match hscan : scan e.inbound with
  | .wait keep =>
    rw [parse_wait hscan, readAgain_book]
    exact .same
  | .skip rest =>
    rw [parse_skip hscan]
    exact .same
  | .item f rest =>
    have hsound : ({ e with inbound := rest } : FixExecutor).book.Sound := h
    obtain ⟨hreport, hother⟩ := handleFrame_move cfg utc hsound f
    rw [parse_item hscan]
    generalize ({ e with inbound := rest } : FixExecutor).handleFrame cfg utc f = d at hreport hother
    have hbook : (if d.halted = true then d.readAgain else d).book = d.book := by
      split
      · exact readAgain_book d
      · rfl
    rw [hbook]
    by_cases htype : scanTag f 35 = ascii "8"
    · simp only [htype, if_true]
      apply BookMove.report
      exact (hreport htype).congr rfl rfl
    · simp only [htype, if_false]
      rw [hother htype]
      exact .same

lemma handle_move {handler : Handler} {rest : List Handler} (hstage : e.stage = .running)
    (hgoing : e.ioStopped = false) (hnext : e.handlers = handler :: rest) :
    BookMove e (e.event .handle) ((e.dequeue rest).handle cfg utc handler).book := by
  unfold event
  rw [hstage, hgoing, hnext]
  cases handler with
  | drain =>
    show BookMove e none ((e.dequeue rest).drainOrders cfg utc).book
    rw [drainOrders_book]
    split
    · exact .drained
    · exact .same
  | logout =>
    show BookMove e none ((e.dequeue rest).onLogout cfg utc).book
    rw [onLogout_book]
    exact .same
  | wrote ok =>
    have hbook : ((e.dequeue rest).onWrote ok).book = e.book.popped (e.wqueue.tail.filterMap Outgoing.job) := by
      unfold onWrote
      split
      · rw [pumpWrite_book]
        rfl
      · rfl
    show BookMove e _ ((e.dequeue rest).onWrote ok).book
    rw [hbook]
    exact .wrote ok
  | read outcome =>
    show BookMove e none ((e.dequeue rest).onRead outcome).book
    rw [onRead_book]
    exact .same
  | timer aborted =>
    show BookMove e none ((e.dequeue rest).onTimer cfg utc aborted).book
    rw [onTimer_book]
    exact .same

/-- What a step does to the book. -/
theorem step_bookMove {a : Action} {e' : FixExecutor} (h : e.book.Sound)
    (hs : e.step cfg utc a = some e') : BookMove e (e.event a) e'.book := by
  cases step_moves hs with
  | stop =>
    unfold stop
    split <;> exact .same
  | join stage =>
    unfold join
    rw [cancelTimer_book]
    exact .same
  | execute call => exact execute_move e call
  | connected stage =>
    have hbook : (e.startSession cfg utc).book = e.book := send_book e.opened (buildLogon cfg)
    rw [hbook]
    exact .same
  | drain stage =>
    have hbook : ({ e.drainOrders cfg utc with stage := .listening } : FixExecutor).book =
        if e.connected then e.book.drain else e.book := drainOrders_book e
    rw [hbook]
    split
    · exact .drained
    · exact .same
  | listen stage =>
    have hbook : ({ ({ e with lastRecvMs := e.nowMs } : FixExecutor).startRead with
        stage := .timing } : FixExecutor).book = e.book := startRead_book _
    rw [hbook]
    exact .same
  | arm stage =>
    have hbook : ({ e.startHbTimer cfg with stage := .running } : FixExecutor).book = e.book :=
      startHbTimer_book e
    rw [hbook]
    exact .same
  | handle handler rest stage going next => exact handle_move stage going next
  | parse stage => exact parse_move h stage
  | _ => exact .same

lemma executionResult_orderId {job : OrderJob} {f : Bytes} {nowMs : Int} {r : ExecutionResult}
    (h : executionResult job f nowMs = some r) : r.orderId = job.orderId := by
  simp only [executionResult] at h
  split_ifs at h <;> cases h <;> rfl

lemma BookMove.sound {event : Option OrderEvent} {b : OrderBook} (h : e.book.Sound)
    (hmove : BookMove e event b) : b.Sound := by
  cases hmove with
  | same => exact h
  | refused => exact h.refuse
  | drained => exact h.drain
  | accepted call => exact h.accept rfl rfl
  | wrote ok => exact ⟨h.distinct, h.old, h.named⟩
  | report f move =>
    cases move with
    | ignored unknown => exact h
    | reported job r pending named result => exact h.report pending (executionResult_orderId result)

theorem reachable_book_sound (h : (machine cfg utc).Reachable e) : e.book.Sound := by
  apply (machine cfg utc).invariant (I := fun e => e.book.Sound) _ _ h
  · constructor
    · exact List.nodup_nil
    · intro id hid
      cases hid
    · intro job hjob
      cases hjob
  · intro s a t _ hI hs
    exact (step_bookMove hI hs).sound hI

end FixExecutor

end LatencyArb
