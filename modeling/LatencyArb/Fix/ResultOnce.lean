import LatencyArb.Fix.Accounts
import LatencyArb.Fix.WriteOrder

/-!
# At most one result for an order

A result is made of an entry of the table of pending orders, and the entry is erased with it. The table
holds accepted orders whose frames have been given to `io_write`, whatever the peer sends.
-/

namespace LatencyArb

open LatencyArb.Fix

namespace FixExecutor

/-- The orders that have been drained: their frames were given to `io_write`. -/
def drained (e : FixExecutor) : List OrderJob := e.queued.filterMap Outgoing.job

/-- No two results are of one order, and a result that the step reports carries the identifiers of an
order that was accepted and drained before. -/
def ResultsOnce (s : FixExecutor × List OrderEvent) (_ : Action) (t : FixExecutor × List OrderEvent) :
    Prop :=
  (t.1.results.map ExecutionResult.orderId).Nodup ∧
    ∃ reported, t.1.results = s.1.results ++ reported ∧
      ∀ r ∈ reported, ∃ job ∈ acceptedOrders s.2, job ∈ s.1.drained ∧
        r.orderId = job.orderId ∧ r.clOrdId = ascii job.clOrdId

/-- Where the executor has its orders from. -/
structure TableInv (e : FixExecutor) (log : List OrderEvent) : Prop where
  sound : e.book.Sound
  held : e.wqueue ⊆ e.queued
  mailbox : e.orders ⊆ acceptedOrders log
  pending : e.pendingOrders ⊆ acceptedOrders log
  sent : e.pendingOrders ⊆ e.drained

variable {cfg : Config} {utc : Nat → String} {e e' : FixExecutor} {log : List OrderEvent}

lemma executionResult_clOrdId {job : OrderJob} {f : Bytes} {nowMs : Int} {r : ExecutionResult}
    (h : executionResult job f nowMs = some r) : r.clOrdId = scanTag f 11 := by
  simp only [executionResult] at h
  split_ifs at h <;> cases h <;> rfl

lemma Grows.drained (h : Grows e e') : e.drained ⊆ e'.drained :=
  (h.queued.filterMap Outgoing.job).subset

lemma acceptedOrders_grows (log : List OrderEvent) (event : Option OrderEvent) :
    acceptedOrders log ⊆ acceptedOrders (log ++ event.toList) := by
  unfold acceptedOrders
  rw [List.filterMap_append]
  exact List.subset_append_left _ _

/-- A step that takes no order and sends none. -/
lemma TableInv.keep (h : e.TableInv log) {event : Option OrderEvent} (hgrows : Grows e e')
    (hsound : e'.book.Sound) (horders : e'.orders = e.orders)
    (hpending : e'.pendingOrders ⊆ e.pendingOrders) : e'.TableInv (log ++ event.toList) := by
  refine ⟨hsound, hgrows.held h.held, ?_, ?_, ?_⟩
  · rw [horders]
    exact List.Subset.trans h.mailbox (acceptedOrders_grows log event)
  · exact List.Subset.trans hpending (List.Subset.trans h.pending (acceptedOrders_grows log event))
  · exact List.Subset.trans hpending (List.Subset.trans h.sent hgrows.drained)

/-- Drained orders are in the frames that wait to be written. -/
lemma TableInv.drain (h : e.TableInv log) (hgrows : Grows e e') (hbook : e'.book = e.book.drain) :
    e'.TableInv log := by
  have hdrain := hbook.trans h.sound.drain_eq
  have horders : e'.orders = [] := congrArg OrderBook.orders hdrain
  have hpending : e'.pendingOrders = e.pendingOrders ++ e.orders := congrArg OrderBook.pending hdrain
  have hqueued : e'.queuedOrders = e.queuedOrders ++ e.orders := congrArg OrderBook.queued hdrain
  have hheld : e'.wqueue ⊆ e'.queued := hgrows.held h.held
  have hsent : e.orders ⊆ e'.drained := by
    intro job hjob
    have hwaits : job ∈ e'.queuedOrders := by
      rw [hqueued]
      exact List.mem_append_right _ hjob
    obtain ⟨f, hf, hjob'⟩ := List.mem_filterMap.mp hwaits
    exact List.mem_filterMap.mpr ⟨f, hheld hf, hjob'⟩
  refine ⟨hbook ▸ h.sound.drain, hheld, ?_, ?_, ?_⟩
  · rw [horders]
    exact List.nil_subset _
  · rw [hpending]
    exact List.append_subset_of_subset_of_subset h.pending h.mailbox
  · rw [hpending]
    exact List.append_subset_of_subset_of_subset (List.Subset.trans h.sent hgrows.drained) hsent

lemma step_tableInv {a : Action} (h : e.TableInv log) (hs : e.step cfg utc a = some e') :
    e'.TableInv (log ++ e.journal a) ∧ ResultsOnce (e, log) a (e', log ++ e.journal a) := by
  have hmove := step_bookMove h.sound hs
  have hgrows : Grows e e' := step_grows hs
  have hsound : e'.book.Sound := hmove.sound h.sound
  have hdistinct : (e'.results.map ExecutionResult.orderId).Nodup := by
    have hids := hsound.distinct
    rw [OrderBook.ids, List.nodup_append] at hids
    exact hids.2.1
  have hquiet : e'.results = e.results → ResultsOnce (e, log) a (e', log ++ e.journal a) := by
    intro hresults
    exact ⟨hdistinct, [], by rw [hresults, List.append_nil], by simp⟩
  have hsame : e'.book.orders = e.book.orders → e'.book.pending ⊆ e.book.pending →
      e'.TableInv (log ++ e.journal a) := fun horders hpending => h.keep hgrows hsound horders hpending
  unfold journal at hquiet hsame ⊢
  generalize hbook : e'.book = b at hmove hsame
  generalize e.event a = event at hmove hquiet hsame
  have hresults : e'.results = b.results := congrArg OrderBook.results hbook
  cases hmove with
  | same => exact ⟨hsame rfl (List.Subset.refl _), hquiet hresults⟩
  | refused => exact ⟨hsame rfl (List.Subset.refl _), hquiet hresults⟩
  | drained =>
    rw [h.sound.drain_eq] at hresults
    rw [Option.toList_none, List.append_nil] at hquiet ⊢
    exact ⟨h.drain hgrows hbook, hquiet hresults⟩
  | accepted call =>
    have hpending : e'.pendingOrders = e.pendingOrders := congrArg OrderBook.pending hbook
    have horders : e'.orders = e.orders ++ [e.newJob call] := congrArg OrderBook.orders hbook
    refine ⟨⟨hsound, hgrows.held h.held, ?_, ?_, ?_⟩, hquiet hresults⟩
    · rw [horders]
      exact List.append_subset_of_subset_of_subset
        (List.Subset.trans h.mailbox (acceptedOrders_grows log _)) (by simp [acceptedOrders])
    · rw [hpending]
      exact List.Subset.trans h.pending (acceptedOrders_grows log _)
    · rw [hpending]
      exact List.Subset.trans h.sent hgrows.drained
  | wrote ok => exact ⟨hsame rfl (List.Subset.refl _), hquiet hresults⟩
  | report f move =>
    cases move with
    | ignored unknown => exact ⟨hsame rfl (List.Subset.refl _), hquiet hresults⟩
    | reported job r pending named result =>
      refine ⟨hsame rfl List.filter_sublist.subset, hdistinct, [r], hresults, ?_⟩
      intro r' hr
      obtain rfl := List.mem_singleton.mp hr
      refine ⟨job, h.pending pending, h.sent pending, executionResult_orderId result, ?_⟩
      rw [executionResult_clOrdId result, named]

/-- In every run, whatever the peer sends and however often the session is lost: the callback is invoked
at most once for an order, and always with the identifiers of an order accepted and drained before. -/
theorem results_once (cfg : Config) (utc : Nat → String) (run : List Action) :
    ((machine cfg utc).recorded journal).Always run ResultsOnce := by
  intro pre a s t hpre hs ht
  have hinit : (machine cfg utc).Reachable (machine cfg utc).init := ⟨[], rfl⟩
  have hI : s.1.TableInv s.2 := by
    apply Machine.invariant _ (I := fun s => s.1.TableInv s.2) _ _ ⟨pre, hs⟩
    · exact ⟨reachable_book_sound hinit, List.nil_subset _, List.nil_subset _, List.nil_subset _,
        List.nil_subset _⟩
    · intro s a t _ hI ht
      obtain ⟨hstep, hrecord⟩ := Machine.recorded_step ht
      rw [hrecord]
      exact (step_tableInv hI hstep).1
  obtain ⟨hstep, hrecord⟩ := Machine.recorded_step ht
  obtain ⟨hdistinct, hreported⟩ := (step_tableInv hI hstep).2
  exact ⟨hdistinct, hreported⟩

end FixExecutor

end LatencyArb
