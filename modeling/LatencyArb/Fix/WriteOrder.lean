import LatencyArb.Fix.Outbound

/-!
# One write in flight (`io_write`, `pump_write`)

The flag, the head of the queue and the write under way stay in step over every end of a session: the
completion of an aborted write waits in the `io_context`, and nothing is written until it has run.
-/

namespace LatencyArb

open LatencyArb.Fix

namespace FixExecutor

/-- The writes whose completion handler has not run yet. -/
def outstanding (e : FixExecutor) : Nat := e.writes + e.handlers.countP Handler.isWrote

/-- One write at most is outstanding, and the frames handed over are the first ones queued. -/
def OneWriteInOrder (e : FixExecutor) : Prop :=
  e.outstanding ≤ 1 ∧ e.handed.map Handed.frame <+: e.queued

structure WritesInv (e : FixExecutor) : Prop where
  queue : e.writeQueue.Sound
  late : e.outstanding = if e.writing then 1 else 0

variable {cfg : Config} {utc : Nat → String} {e e' : FixExecutor}

lemma WritesInv.of_same (h : e.WritesInv) (hqueue : e'.writeQueue = e.writeQueue)
    (hlate : e'.outstanding = e.outstanding) : e'.WritesInv := by
  have hwriting : e'.writing = e.writing := congrArg WriteQueue.writing hqueue
  constructor
  · rw [hqueue]
    exact h.queue
  · rw [hlate, hwriting]
    exact h.late

/-- A write is handed over when none is outstanding. -/
lemma WritesInv.pump (h : e.WritesInv) : e.pumpWrite.WritesInv := by
  by_cases hs : e.stream = true
  · have hqueue : e.pumpWrite.writeQueue.Sound := by
      rw [pumpWrite_writeQueue hs]
      exact h.queue.pump
    by_cases hw : e.writing = true
    · rwa [pumpWrite_of_writing hw]
    · rw [Bool.not_eq_true] at hw
      cases hq : e.wqueue with
      | nil => rwa [pumpWrite_of_nil hq]
      | cons f rest =>
        rw [pumpWrite_of_cons hs hw hq] at hqueue ⊢
        have hlate := h.late
        rw [hw, if_neg (by simp), outstanding] at hlate
        refine ⟨hqueue, ?_⟩
        show e.writes + 1 + e.handlers.countP Handler.isWrote = 1
        omega
  · have hclosed : e.pumpWrite = e := by
      rw [Bool.not_eq_true] at hs
      simp [pumpWrite, hs]
    rwa [hclosed]

lemma WritesInv.send (h : e.WritesInv) (build : Nat → String → Message) (job : Option OrderJob) :
    (e.send utc build job).WritesInv := by
  rw [send_eq]
  apply WritesInv.pump
  exact ⟨h.queue.push _, h.late⟩

lemma WritesInv.sends (h : e.WritesInv) (hs : Sends e e') : e'.WritesInv := by
  induction hs with
  | refl => exact h
  | quiet _ same stream ih => exact ih.of_same same.queue same.late
  | sent _ utc build job numbered ih => exact ih.send build job

lemma WritesInv.opened (h : e.WritesInv) : e.opened.WritesInv := h.of_same rfl rfl

lemma WritesInv.onWrote (h : e.WritesInv) {ok : Bool} {rest : List Handler}
    (hnext : e.handlers = .wrote ok :: rest) : ((e.dequeue rest).onWrote ok).WritesInv := by
  obtain ⟨hwriting, hlate⟩ := last_write hnext h.late
  have hdone : (e.dequeue rest).popWritten.WritesInv := ⟨h.queue.complete hwriting, hlate⟩
  cases ok with
  | false => exact hdone.of_same rfl rfl
  | true => exact hdone.pump

lemma WritesInv.handle (h : e.WritesInv) {handler : Handler} {rest : List Handler}
    (hnext : e.handlers = handler :: rest) : ((e.dequeue rest).handle cfg utc handler).WritesInv := by
  have hquiet : handler.isWrote = false → (e.dequeue rest).WritesInv := by
    intro hh
    refine h.of_same rfl ?_
    rw [outstanding, outstanding, hnext, List.countP_cons_of_neg (by simp [hh])]
    rfl
  cases handler with
  | drain => exact (hquiet rfl).sends (drainOrders_sends _)
  | logout =>
    have hlogout := hquiet rfl
    unfold FixExecutor.handle onLogout
    dsimp only
    split <;> exact hlogout.of_same rfl rfl
  | wrote ok => exact h.onWrote hnext
  | read outcome => exact (hquiet rfl).sends (onRead_sends _ outcome)
  | timer aborted => exact (hquiet rfl).sends (onTimer_sends _ aborted)

lemma WritesInv.leave (h : e.WritesInv) : e.leave.WritesInv := h.of_same rfl e.leave_late

lemma WritesInv.post (h : e.WritesInv) {handler : Handler} (hh : handler.isWrote = false) :
    (e.post handler).WritesInv := by
  refine h.of_same rfl ?_
  rw [outstanding, FixExecutor.post, List.countP_append, List.countP_singleton, hh]
  rfl

lemma WritesInv.cancelTimer (h : e.WritesInv) : e.cancelTimer.WritesInv :=
  h.of_same e.cancelTimer_keeps.1.queue e.cancelTimer_keeps.1.late

lemma WritesInv.step {a : Action} (h : e.WritesInv) (hs : e.step cfg utc a = some e') :
    e'.WritesInv := by
  cases step_moves hs with
  | started => exact h
  | stop =>
    unfold stop
    split <;> exact h.of_same rfl rfl
  | stopPost => exact (h.of_same rfl rfl : ({ e with stopping := false, joining := true } :
      FixExecutor).WritesInv).post rfl
  | join stage =>
    apply WritesInv.cancelTimer
    exact h.of_same rfl rfl
  | execute call =>
    unfold execute
    split
    · exact h
    · split <;> exact h.of_same rfl rfl
  | post => exact (h.of_same rfl rfl : ({ e with posting := e.posting - 1 } :
      FixExecutor).WritesInv).post rfl
  | connected stage => exact (h.opened.send (buildLogon cfg) none).of_same rfl rfl
  | drain stage => exact (h.sends (drainOrders_sends e)).of_same rfl rfl
  | listen stage =>
    have hclock : ({ e with lastRecvMs := e.nowMs } : FixExecutor).WritesInv := h.of_same rfl rfl
    exact (hclock.sends (startRead_sends _)).of_same rfl rfl
  | arm stage => exact (h.sends (startHbTimer_sends e)).of_same rfl rfl
  | handle handler rest stage going next => exact h.handle next
  | parse stage => exact h.sends (parse_sends e)
  | leave stage ended => exact h.leave
  | wrote ok writes =>
    refine h.of_same rfl ?_
    show e.writes - 1 + (e.handlers ++ [Handler.wrote ok]).countP Handler.isWrote = _
    rw [outstanding, List.countP_append, List.countP_singleton, Handler.isWrote, if_pos rfl]
    omega
  | received bytes reads => exact (h.of_same rfl rfl : ({ e with reads := e.reads - 1 } :
      FixExecutor).WritesInv).post rfl
  | readFailed reads => exact (h.of_same rfl rfl : ({ e with reads := e.reads - 1 } :
      FixExecutor).WritesInv).post rfl
  | expire dueMs timer => exact (h.of_same rfl rfl : ({ e with timer := none } :
      FixExecutor).WritesInv).post rfl
  | _ => exact h.of_same rfl rfl

lemma init_writesInv : (machine cfg utc).init.WritesInv :=
  ⟨⟨rfl, fun h => by cases h⟩, rfl⟩

/-- In every run, whichever way its sessions end and whenever the completions are delivered: at most
one write is outstanding, and the frames handed to `async_write` are the first of those given to
`io_write`, each of them once and in that order. -/
theorem one_write_in_order (cfg : Config) (utc : Nat → String) (run : List Action) :
    (machine cfg utc).Always run (fun _ _ t => t.OneWriteInOrder) := by
  intro pre a s t hpre hs ht
  have hI : t.WritesInv := by
    apply (machine cfg utc).invariant init_writesInv (fun _ _ _ _ hI hs => hI.step hs)
    exact ⟨pre ++ [a], (machine cfg utc).run_concat_eq_some.mpr ⟨s, hs, ht⟩⟩
  refine ⟨?_, hI.queue.handed_prefix⟩
  rw [hI.late]
  split <;> omega

/-! ## The frames given to `io_write` -/

/-- Frames are only added to those queued, and the write queue holds none but queued ones. -/
structure Grows (e e' : FixExecutor) : Prop where
  queued : e.queued <+: e'.queued
  held : e.wqueue ⊆ e.queued → e'.wqueue ⊆ e'.queued

lemma Grows.refl (e : FixExecutor) : Grows e e := ⟨List.prefix_rfl, fun h => h⟩

lemma Grows.trans {d : FixExecutor} (h : Grows e d) (h' : Grows d e') : Grows e e' :=
  ⟨h.queued.trans h'.queued, fun hheld => h'.held (h.held hheld)⟩

lemma Grows.of_same (hqueued : e'.queued = e.queued) (hwqueue : e'.wqueue ⊆ e.wqueue) : Grows e e' := by
  constructor
  · rw [hqueued]
  · intro hheld f hf
    rw [hqueued]
    exact hheld (hwqueue hf)

lemma pumpWrite_grows (e : FixExecutor) : Grows e e.pumpWrite := by
  unfold pumpWrite
  split
  · exact .refl e
  · split
    · exact .refl e
    · exact .of_same rfl (List.Subset.refl _)

lemma send_grows (e : FixExecutor) (build : Nat → String → Message) (job : Option OrderJob) :
    Grows e (e.send utc build job) := by
  rw [send_eq]
  refine Grows.trans ?_ (pumpWrite_grows _)
  constructor
  · exact List.prefix_append _ _
  · intro hheld
    exact List.append_subset_of_subset_of_subset (List.subset_append_of_subset_left _ hheld)
      (List.subset_append_right _ _)

lemma Sends.grows (h : Sends e e') : Grows e e' := by
  induction h with
  | refl => exact .refl e
  | @quiet d d' _ same stream ih =>
    have hwqueue : d'.wqueue = d.wqueue := congrArg WriteQueue.queue same.queue
    refine ih.trans (.of_same (congrArg WriteQueue.pushed same.queue) ?_)
    rw [hwqueue]
    exact List.Subset.refl _
  | sent _ utc build job numbered ih => exact ih.trans (send_grows _ build job)

lemma handle_grows (e : FixExecutor) (handler : Handler) (rest : List Handler) :
    Grows e ((e.dequeue rest).handle cfg utc handler) := by
  have hdequeue : Grows e (e.dequeue rest) := .of_same rfl (List.Subset.refl _)
  refine hdequeue.trans ?_
  cases handler with
  | drain => exact (drainOrders_sends _).grows
  | logout =>
    unfold handle onLogout
    dsimp only
    split <;> exact .of_same rfl (List.Subset.refl _)
  | wrote ok =>
    have hpop : Grows (e.dequeue rest) (e.dequeue rest).popWritten := .of_same rfl (List.tail_subset _)
    cases ok with
    | false => exact hpop.trans (.of_same rfl (List.Subset.refl _))
    | true => exact hpop.trans (pumpWrite_grows _)
  | read outcome => exact (onRead_sends _ outcome).grows
  | timer aborted => exact (onTimer_sends _ aborted).grows

lemma step_grows {a : Action} (hs : e.step cfg utc a = some e') : Grows e e' := by
  have hrefl : ∀ queue : List Outgoing, queue ⊆ queue := List.Subset.refl
  cases step_moves hs with
  | stop =>
    unfold stop
    split <;> exact .of_same rfl (hrefl _)
  | join stage =>
    unfold join cancelTimer
    split <;> exact .of_same rfl (hrefl _)
  | execute call =>
    unfold execute
    split
    · exact .refl e
    · split <;> exact .of_same rfl (hrefl _)
  | connected stage =>
    have hopened : Grows e e.opened := .of_same rfl (hrefl _)
    exact hopened.trans ((send_grows e.opened (buildLogon cfg) none).trans (.of_same rfl (hrefl _)))
  | drain stage => exact (drainOrders_sends e).grows.trans (.of_same rfl (hrefl _))
  | listen stage =>
    have hclock : Grows e { e with lastRecvMs := e.nowMs } := .of_same rfl (hrefl _)
    exact hclock.trans ((startRead_sends _).grows.trans (.of_same rfl (hrefl _)))
  | arm stage => exact (startHbTimer_sends e).grows.trans (.of_same rfl (hrefl _))
  | handle handler rest stage going next => exact handle_grows e handler rest
  | parse stage => exact (parse_sends e).grows
  | _ => exact .of_same rfl (hrefl _)

end FixExecutor

end LatencyArb
