import LatencyArb.Fix.OrderBook

/-!
# The reported result and the outcome of an order

`on_execution_report` reports the first report of an order that it classifies and forgets the order. An
acknowledgement is one that it classifies.
-/

namespace LatencyArb

namespace Fix

inductive Outcome where
  | filled | rejected | canceled
  deriving DecidableEq

/-- A FIX 4.4 Trade that leaves the order filled. -/
def isFullTrade (f : Bytes) : Bool :=
  decide (scanTag f 150 = ascii "F" ∧ scanTag f 39 = ascii "2")

/-- The final outcome of its order that a report tells of. -/
def finalOutcome (f : Bytes) : Option Outcome :=
  if scanTag f 150 = ascii "2" ∨ isFullTrade f then some .filled
  else if scanTag f 150 = ascii "1" then none
  else if scanTag f 150 = ascii "8" ∨ scanTag f 150 = ascii "3" ∨ scanTag f 39 = ascii "8" then
    some .rejected
  else if scanTag f 150 = ascii "4" then some .canceled
  else none

/-- Status and `ok` of the result that is made of a report. -/
def reportStatus (f : Bytes) : Option (String × Bool) :=
  if scanTag f 150 = ascii "2" then some ("FILLED", true)
  else if scanTag f 150 = ascii "1" then some ("PARTIAL", true)
  else if scanTag f 150 = ascii "8" ∨ scanTag f 150 = ascii "3" ∨ scanTag f 39 = ascii "8" then
    some ("REJECTED", false)
  else if scanTag f 150 = ascii "4" then some ("CANCELED", false)
  else if scanTag f 150 = ascii "0" then some ("NEW", true)
  else none

/-- A result that tells of the outcome. -/
def Outcome.told (o : Outcome) (result : String × Bool) : Bool :=
  match o with
  | .filled => result.1 == "FILLED"
  | _ => result.2 == false

lemma executionResult_status (job : OrderJob) (f : Bytes) (nowMs : Int) :
    (executionResult job f nowMs).map (fun r => (r.status, r.ok)) = reportStatus f := by
  simp only [executionResult, reportStatus]
  split_ifs <;> rfl

/-- A report without a final outcome is classified when it acknowledges the order or a part of it. -/
lemma reportStatus_progress {f : Bytes} (h : finalOutcome f = none) :
    (reportStatus f = none ↔ scanTag f 150 ≠ ascii "0" ∧ scanTag f 150 ≠ ascii "1") ∧
      ∀ result ∈ reportStatus f, ∀ o : Outcome, o.told result = false := by
  have hzero : ascii "0" ≠ ascii "1" := by decide +kernel
  unfold finalOutcome at h
  split_ifs at h with hfilled hpart hrejected hcanceled
  · unfold reportStatus
    rw [if_neg (fun h2 => hfilled (.inl h2)), if_pos hpart]
    refine ⟨by simp [hpart], ?_⟩
    intro result hresult o
    obtain rfl := Option.some.inj hresult
    cases o <;> decide
  · unfold reportStatus
    rw [if_neg (fun h2 => hfilled (.inl h2)), if_neg hpart, if_neg hrejected, if_neg hcanceled]
    split_ifs with hnew
    · refine ⟨by simp [hnew], ?_⟩
      intro result hresult o
      obtain rfl := Option.some.inj hresult
      cases o <;> decide
    · exact ⟨by simp [hnew, hpart], by simp⟩

/-- The result of a report with a final outcome tells of it; of a Trade there is none. -/
lemma reportStatus_final {f : Bytes} {o : Outcome} (h : finalOutcome f = some o) :
    (reportStatus f = none ↔ isFullTrade f = true) ∧ ∀ result ∈ reportStatus f, o.told result = true := by
  have htwo : ascii "2" ≠ ascii "F" := by decide +kernel
  have height : ascii "8" ≠ ascii "F" := by decide +kernel
  have hthree : ascii "3" ≠ ascii "F" := by decide +kernel
  have hone : ascii "1" ≠ ascii "F" := by decide +kernel
  have hfour : ascii "4" ≠ ascii "F" := by decide +kernel
  have hzero : ascii "0" ≠ ascii "F" := by decide +kernel
  have hstatus : ascii "2" ≠ ascii "8" := by decide +kernel
  unfold finalOutcome at h
  split_ifs at h with hfilled hpart hrejected hcanceled
  · obtain rfl := Option.some.inj h
    unfold reportStatus
    rcases hfilled with hfill | htrade
    · rw [if_pos hfill]
      refine ⟨?_, by simp [Outcome.told]⟩
      simp [isFullTrade, hfill, htwo]
    · have hboth := of_decide_eq_true htrade
      rw [hboth.1, hboth.2]
      simp [htrade, htwo.symm, hone.symm, height.symm, hthree.symm, hfour.symm, hzero.symm, hstatus]
  · obtain rfl := Option.some.inj h
    unfold reportStatus
    rw [if_neg (fun h2 => hfilled (.inl h2)), if_neg hpart, if_pos hrejected]
    refine ⟨?_, by simp [Outcome.told]⟩
    simp only [reduceCtorEq, false_iff]
    exact fun htrade => hfilled (.inr htrade)
  · obtain rfl := Option.some.inj h
    unfold reportStatus
    rw [if_neg (fun h2 => hfilled (.inl h2)), if_neg hpart, if_neg hrejected, if_pos hcanceled]
    refine ⟨?_, by simp [Outcome.told]⟩
    simp only [reduceCtorEq, false_iff]
    exact fun htrade => hfilled (.inr htrade)

lemma findSome_concat (reports : List Bytes) (f : Bytes) :
    (reports ++ [f]).findSome? reportStatus = (reports.findSome? reportStatus).or (reportStatus f) := by
  rw [List.findSome?_append, List.findSome?_singleton]

/-- The ExecutionReports on the order. -/
def reportsOn (job : OrderJob) : Option OrderEvent → List Bytes
  | some (.report f) => if scanTag f 11 = ascii job.clOrdId then [f] else []
  | _ => []

/-- An order is pending until a report on it is classified, and then its result is that of the report. -/
structure Answered (job : OrderJob) (b : OrderBook) (reports : List Bytes) : Prop where
  sound : b.Sound
  waiting : reports.findSome? reportStatus = none → job ∈ b.pending
  answered : ∀ result ∈ reports.findSome? reportStatus,
    ∃ r ∈ b.results, r.orderId = job.orderId ∧ (r.status, r.ok) = result

/-- A move that is not a report on the order. -/
lemma Answered.other {job : OrderJob} {b b' : OrderBook} {reports : List Bytes}
    (h : Answered job b reports) (hsound : b'.Sound) (hpending : job ∈ b.pending → job ∈ b'.pending)
    (hresults : ∀ r ∈ b.results, r ∈ b'.results) : Answered job b' reports := by
  constructor
  · exact hsound
  · intro hnone
    exact hpending (h.waiting hnone)
  · intro result hresult
    obtain ⟨r, hr, hid, hst⟩ := h.answered result hresult
    exact ⟨r, hresults r hr, hid, hst⟩

end Fix

open LatencyArb.Fix

namespace FixExecutor

variable {cfg : Config} {utc : Nat → String} {e : FixExecutor} {job : OrderJob} {reports : List Bytes}

lemma Answered.ignored {f : Bytes} (h : Answered job e.book reports)
    (hunknown : ∀ j ∈ e.pendingOrders, ascii j.clOrdId = scanTag f 11 →
      executionResult j f e.nowMs = none) (hcl : scanTag f 11 = ascii job.clOrdId) :
    Answered job e.book (reports ++ [f]) := by
  have hsame : (reports ++ [f]).findSome? reportStatus = reports.findSome? reportStatus := by
    rw [findSome_concat]
    cases hfirst : reports.findSome? reportStatus with
    | some result => rfl
    | none =>
      have hnone := hunknown job (h.waiting hfirst) hcl.symm
      have hstatus := executionResult_status job f e.nowMs
      rw [hnone] at hstatus
      exact hstatus.symm
  constructor
  · exact h.sound
  · rw [hsame]
    exact h.waiting
  · rw [hsame]
    exact h.answered

lemma Answered.reported {f : Bytes} {k : OrderJob} {r : ExecutionResult}
    (h : Answered job e.book reports) (hk : k ∈ e.pendingOrders)
    (hname : ascii k.clOrdId = scanTag f 11) (hr : executionResult k f e.nowMs = some r)
    (hcl : scanTag f 11 = ascii job.clOrdId) :
    Answered job (e.book.report k r) (reports ++ [f]) := by
  have hstatus := executionResult_status k f e.nowMs
  rw [hr, Option.map_some] at hstatus
  constructor
  · exact h.sound.report hk (executionResult_orderId hr)
  · intro hnone
    rw [findSome_concat, ← hstatus, Option.or_eq_none_iff] at hnone
    cases hnone.2
  · intro result hresult
    rw [findSome_concat] at hresult
    cases hfirst : reports.findSome? reportStatus with
    | some old =>
      rw [hfirst] at hresult
      obtain ⟨s, hs, hid, hst⟩ := h.answered old hfirst
      refine ⟨s, List.mem_append_left _ hs, hid, ?_⟩
      rw [hst]
      exact Option.some.inj hresult
    | none =>
      have hjob := h.waiting hfirst
      have hid : k.orderId = job.orderId := by
        apply (OrderBook.clOrdId_inj (h.sound.named k (List.mem_append_right _ hk))
          (h.sound.named job (List.mem_append_right _ hjob))).mp
        exact ascii_inj.mp (hname.trans hcl)
      refine ⟨r, List.mem_append_right _ (List.mem_singleton_self r),
        (executionResult_orderId hr).trans hid, ?_⟩
      rw [hfirst] at hresult
      simpa [← hstatus] using hresult

lemma BookMove.answered {event : Option OrderEvent} {b : OrderBook} (h : Answered job e.book reports)
    (hmove : BookMove e event b) : Answered job b (reports ++ reportsOn job event) := by
  have hsound := hmove.sound h.sound
  cases hmove with
  | same => simpa [reportsOn] using h
  | refused =>
    rw [show reportsOn job none = [] from rfl, List.append_nil]
    exact h.other hsound id (fun _ hr => hr)
  | drained =>
    rw [show reportsOn job none = [] from rfl, List.append_nil]
    apply h.other hsound
    · intro hjob
      rw [h.sound.drain_eq]
      exact List.mem_append_left _ hjob
    · intro r hr
      rw [h.sound.drain_eq]
      exact hr
  | accepted call =>
    rw [show reportsOn job (some (.accepted (e.newJob call))) = [] from rfl, List.append_nil]
    exact h.other hsound id (fun _ hr => hr)
  | wrote ok =>
    rw [show reportsOn job (some (.wrote ok e.wqueue.head?)) = [] from rfl, List.append_nil]
    exact h.other hsound id (fun _ hr => hr)
  | report f move =>
    by_cases hcl : scanTag f 11 = ascii job.clOrdId
    · have hreports : reportsOn job (some (.report f)) = [f] := if_pos hcl
      rw [hreports]
      cases move with
      | ignored unknown => exact Answered.ignored h unknown hcl
      | reported k r pending named result => exact Answered.reported h pending named result hcl
    · have hreports : reportsOn job (some (.report f)) = [] := if_neg hcl
      rw [hreports, List.append_nil]
      apply h.other hsound
      · intro hjob
        cases move with
        | ignored unknown => exact hjob
        | reported k r pending named result =>
          apply List.mem_filter.mpr
          refine ⟨hjob, decide_eq_true ?_⟩
          intro hsame
          exact hcl (named.symm.trans (congrArg ascii hsame.symm))
      · intro r hr
        cases move with
        | ignored unknown => exact hr
        | reported k s pending named result => exact List.mem_append_left _ hr

/-- The ExecutionReports on the order that a step handles. -/
def reportsOf (job : OrderJob) (e : FixExecutor) (a : Action) : List Bytes := reportsOn job (e.event a)

/-- The result callback has told of the outcome of the order. -/
def Delivered (e : FixExecutor) (job : OrderJob) (o : Outcome) : Prop :=
  ∃ r ∈ e.results, r.orderId = job.orderId ∧ o.told (r.status, r.ok) = true

lemma run_answered {t : FixExecutor} {as : List Action} (h : e.book.Sound) (hjob : job ∈ e.pendingOrders)
    (hrun : ((machine cfg utc).recorded (reportsOf job)).run (e, []) as = some (t, reports)) :
    Answered job t.book reports := by
  apply Machine.run_keeps (I := fun s => Answered job s.1.book s.2) _ _ _ hrun
  · intro s a s' hI hs
    obtain ⟨hstep, hrecord⟩ := Machine.recorded_step hs
    rw [hrecord]
    exact (step_bookMove hI.sound hstep).answered hI
  · exact ⟨h, fun _ => hjob, by simp⟩

/-- The delivered outcome is that of the first report that is classified. -/
lemma delivered_iff {o : Outcome} (h : Answered job e.book reports) :
    e.Delivered job o ↔ ∃ result ∈ reports.findSome? reportStatus, o.told result = true := by
  have hdistinct := h.sound.distinct
  rw [OrderBook.ids, List.nodup_append] at hdistinct
  constructor
  · rintro ⟨r, hr, hid, htold⟩
    cases hfirst : reports.findSome? reportStatus with
    | none =>
      exfalso
      have hjob : job ∈ e.book.unreported := List.mem_append_right _ (h.waiting hfirst)
      exact hdistinct.2.2 job.orderId (List.mem_map_of_mem hjob) r.orderId (List.mem_map_of_mem hr)
        hid.symm
    | some result =>
      obtain ⟨s, hs, hsid, hst⟩ := h.answered result hfirst
      obtain rfl := List.inj_on_of_nodup_map hdistinct.2.1 hr hs (hid.trans hsid.symm)
      exact ⟨result, rfl, hst ▸ htold⟩
  · rintro ⟨result, hresult, htold⟩
    obtain ⟨r, hr, hid, hst⟩ := h.answered result hresult
    exact ⟨r, hr, hid, hst ▸ htold⟩

/-- The final outcome of an order is delivered exactly when it is not acknowledged or filled in part
before, and not told by a Trade. -/
theorem final_outcome_delivered_iff (cfg : Config) (utc : Nat → String) {s t : FixExecutor}
    {job : OrderJob} {as : List Action} {acks : List Bytes} {final : Bytes} {o : Outcome}
    (hs : (machine cfg utc).Reachable s) (hjob : job ∈ s.pendingOrders)
    (hrun : ((machine cfg utc).recorded (reportsOf job)).run (s, []) as = some (t, acks ++ [final]))
    (hacks : ∀ f ∈ acks, finalOutcome f = none) (hfinal : finalOutcome final = some o) :
    t.Delivered job o ↔
      (∀ f ∈ acks, scanTag f 150 ≠ ascii "0" ∧ scanTag f 150 ≠ ascii "1") ∧
        isFullTrade final = false := by
  have hanswered := run_answered (reachable_book_sound hs) hjob hrun
  rw [delivered_iff hanswered, findSome_concat]
  cases hfirst : acks.findSome? reportStatus with
  | none =>
    have hnone := List.findSome?_eq_none_iff.mp hfirst
    have hquiet : ∀ f ∈ acks, scanTag f 150 ≠ ascii "0" ∧ scanTag f 150 ≠ ascii "1" := by
      intro f hf
      exact (reportStatus_progress (hacks f hf)).1.mp (hnone f hf)
    obtain ⟨htrade, htold⟩ := reportStatus_final hfinal
    rw [Option.none_or]
    constructor
    · rintro ⟨result, hresult, -⟩
      refine ⟨hquiet, ?_⟩
      rw [← Bool.not_eq_true, ← htrade]
      intro hno
      rw [hno] at hresult
      cases hresult
    · rintro ⟨-, hfill⟩
      have hsome : reportStatus final ≠ none := by
        intro hno
        rw [htrade.mp hno] at hfill
        cases hfill
      obtain ⟨result, hresult⟩ := Option.ne_none_iff_exists'.mp hsome
      exact ⟨result, hresult, htold result hresult⟩
  | some first =>
    obtain ⟨f, hf, hstatus⟩ := List.exists_of_findSome?_eq_some hfirst
    obtain ⟨hno, htold⟩ := reportStatus_progress (hacks f hf)
    constructor
    · rintro ⟨result, hresult, htrue⟩
      obtain rfl := Option.some.inj hresult
      rw [htold first hstatus o] at htrue
      cases htrue
    · rintro ⟨hquiet, -⟩
      rw [hno.mpr (hquiet f hf)] at hstatus
      cases hstatus

/-! ## Reports on the first order -/

def firstOrder : OrderJob := ⟨"XAU/USD", "buy", 1, 0, 0, 1, "LL1", 0⟩

/-- A session comes up and sends the first order. -/
def ordered : List Action :=
  [.start, .loop, .connect .up, .drain, .listen, .arm, .execute ⟨"XAU/USD", "buy", 1, 0, 0⟩, .post, .handle]

def reportFrame (execType ordStatus : String) : Bytes :=
  (buildMsg {} '8' [(11, ascii "LL1"), (150, ascii execType), (39, ascii ordStatus)] 2 "").bytes

def reading (frames : List Bytes) : List Action :=
  [Action.received frames.flatten, .handle] ++ List.replicate frames.length .parse

/-- What the callback has delivered when the reports have been handled. -/
def delivery (reports : List Bytes) : Option (List (String × Bool)) :=
  ((machine {} (fun _ => "")).run (machine {} (fun _ => "")).init ordered).bind (fun s =>
    (((machine {} (fun _ => "")).recorded (reportsOf firstOrder)).run (s, []) (reading reports)).bind
      (fun t =>
        if firstOrder ∈ s.pendingOrders ∧ t.2 = reports then
          some (t.1.results.map (fun r => (r.status, r.ok)))
        else none))

lemma of_delivery {reports : List Bytes} {results : List (String × Bool)}
    (h : delivery reports = some results) :
    ∃ s t, (machine {} (fun _ => "")).Reachable s ∧ firstOrder ∈ s.pendingOrders ∧
      ((machine {} (fun _ => "")).recorded (reportsOf firstOrder)).run (s, []) (reading reports) =
        some (t, reports) ∧ t.results.map (fun r => (r.status, r.ok)) = results := by
  obtain ⟨s, hs, h⟩ := Option.bind_eq_some_iff.mp h
  obtain ⟨t, ht, h⟩ := Option.bind_eq_some_iff.mp h
  split at h
  · rename_i hboth
    refine ⟨s, t.1, ⟨ordered, hs⟩, hboth.1, ?_, Option.some.inj h⟩
    rw [ht, ← hboth.2]
  · cases h

theorem fill_delivered : ∃ s t, (machine {} (fun _ => "")).Reachable s ∧ firstOrder ∈ s.pendingOrders ∧
    ((machine {} (fun _ => "")).recorded (reportsOf firstOrder)).run (s, [])
      (reading [reportFrame "A" "A", reportFrame "2" "2"]) =
        some (t, [reportFrame "A" "A"] ++ [reportFrame "2" "2"]) ∧
    t.Delivered firstOrder .filled := by
  have hrun : delivery [reportFrame "A" "A", reportFrame "2" "2"] = some [("FILLED", true)] := by
    decide +kernel
  obtain ⟨s, t, hs, hjob, ht, -⟩ := of_delivery hrun
  change _ = some (t, [reportFrame "A" "A"] ++ [reportFrame "2" "2"]) at ht
  have hpending : finalOutcome (reportFrame "A" "A") = none := by decide +kernel
  have hquiet : scanTag (reportFrame "A" "A") 150 ≠ ascii "0" ∧
      scanTag (reportFrame "A" "A") 150 ≠ ascii "1" := by decide +kernel
  have hfill : finalOutcome (reportFrame "2" "2") = some .filled := by decide +kernel
  have htrade : isFullTrade (reportFrame "2" "2") = false := by decide +kernel
  refine ⟨s, t, hs, hjob, ht, ?_⟩
  apply (final_outcome_delivered_iff {} (fun _ => "") hs hjob ht _ hfill).mpr
  · exact ⟨List.forall_mem_singleton.mpr hquiet, htrade⟩
  · exact List.forall_mem_singleton.mpr hpending

/-- Nothing but the acknowledgement is delivered of an order that is acknowledged and then filled, or
rejected. -/
theorem acknowledged_outcome_lost :
    (finalOutcome (reportFrame "0" "0") = none ∧
      finalOutcome (reportFrame "2" "2") = some .filled ∧
      finalOutcome (reportFrame "8" "8") = some .rejected) ∧
    (∃ s t, (machine {} (fun _ => "")).Reachable s ∧ firstOrder ∈ s.pendingOrders ∧
      ((machine {} (fun _ => "")).recorded (reportsOf firstOrder)).run (s, [])
        (reading [reportFrame "0" "0", reportFrame "2" "2"]) =
          some (t, [reportFrame "0" "0", reportFrame "2" "2"]) ∧
      ¬t.Delivered firstOrder .filled) ∧
    ∃ s t, (machine {} (fun _ => "")).Reachable s ∧ firstOrder ∈ s.pendingOrders ∧
      ((machine {} (fun _ => "")).recorded (reportsOf firstOrder)).run (s, [])
        (reading [reportFrame "0" "0", reportFrame "8" "8"]) =
          some (t, [reportFrame "0" "0", reportFrame "8" "8"]) ∧
      ¬t.Delivered firstOrder .rejected := by
  have hfilled : delivery [reportFrame "0" "0", reportFrame "2" "2"] = some [("NEW", true)] := by
    decide +kernel
  have hrejected : delivery [reportFrame "0" "0", reportFrame "8" "8"] = some [("NEW", true)] := by
    decide +kernel
  have hundelivered : ∀ (t : FixExecutor) (o : Outcome),
      t.results.map (fun r => (r.status, r.ok)) = [("NEW", true)] → ¬t.Delivered firstOrder o := by
    rintro t o hresults ⟨r, hr, -, htold⟩
    have hmem := List.mem_map_of_mem (f := fun r => (r.status, r.ok)) hr
    rw [hresults, List.mem_singleton] at hmem
    rw [hmem] at htold
    cases o <;> cases htold
  refine ⟨by decide +kernel, ?_, ?_⟩
  · obtain ⟨s, t, hs, hjob, ht, hresults⟩ := of_delivery hfilled
    exact ⟨s, t, hs, hjob, ht, hundelivered t .filled hresults⟩
  · obtain ⟨s, t, hs, hjob, ht, hresults⟩ := of_delivery hrejected
    exact ⟨s, t, hs, hjob, ht, hundelivered t .rejected hresults⟩

end FixExecutor

end LatencyArb
