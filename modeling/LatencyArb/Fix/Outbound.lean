import LatencyArb.Fix.Executor
import LatencyArb.Library.WriteQueue

/-!
# The outbound order of the FIX sessions

The frames given to `io_write` in one session are numbered from its Logon on, and the write queue keeps
their order. So a stream carries its session in order as long as it is given no frame of another
session, which the queue and the write under way, kept across a reconnect, do not ensure.
-/

namespace LatencyArb

namespace Fix

/-- The frames are of the session, numbered 1, 2, 3, and the first of them is its Logon. -/
structure InOrder (session : Nat) (frames : List Outgoing) : Prop where
  own : ∀ f ∈ frames, f.session = session
  numbers : ∀ (i : Nat) (f : Outgoing), frames[i]? = some f →
    f.message.value 34 = some (ascii (toString (i + 1)))
  logon : ∀ f : Outgoing, frames[0]? = some f → f.message.value 35 = some (ascii "A")

variable {session : Nat} {frames : List Outgoing} {f : Outgoing}

lemma inOrder_nil : InOrder session [] := by
  constructor <;> simp

lemma InOrder.initial {more : List Outgoing} (h : InOrder session more) (hp : frames <+: more) :
    InOrder session frames := by
  have hget : ∀ (i : Nat) (f : Outgoing), frames[i]? = some f → more[i]? = some f := by
    intro i f hf
    obtain ⟨rest, rfl⟩ := hp
    obtain ⟨hi, -⟩ := List.getElem?_eq_some_iff.mp hf
    rw [List.getElem?_append_left hi]
    exact hf
  constructor
  · intro f hf
    exact h.own f (hp.subset hf)
  · intro i f hf
    exact h.numbers i f (hget i f hf)
  · intro f hf
    exact h.logon f (hget 0 f hf)

lemma InOrder.concat (h : InOrder session frames) (own : f.session = session)
    (number : f.message.value 34 = some (ascii (toString (frames.length + 1))))
    (logon : frames = [] → f.message.value 35 = some (ascii "A")) : InOrder session (frames ++ [f]) := by
  constructor
  · intro g hg
    rcases List.mem_append.mp hg with hold | hnew
    · exact h.own g hold
    · rw [List.mem_singleton.mp hnew]
      exact own
  · intro i g hg
    rw [List.getElem?_append] at hg
    split at hg
    · exact h.numbers i g hg
    · obtain ⟨hlt, hval⟩ := List.getElem?_eq_some_iff.mp hg
      simp only [List.length_singleton] at hlt
      obtain rfl : i = frames.length := by omega
      simp only [Nat.sub_self, List.getElem_cons_zero] at hval
      rw [← hval]
      exact number
  · intro g hg
    cases frames with
    | nil =>
      cases hg
      exact logon rfl
    | cons first rest => exact h.logon g hg

def Handler.isWrote : Handler → Bool
  | .wrote _ => true
  | _ => false

end Fix

open LatencyArb.Fix

namespace FixExecutor

def writeQueue (e : FixExecutor) : WriteQueue Outgoing :=
  ⟨e.wqueue, e.writing, e.handed.map Handed.frame, e.queued⟩

/-- The frames given to `io_write` in a session. -/
def queuedIn (e : FixExecutor) (session : Nat) : List Outgoing :=
  e.queued.filter (fun f => decide (f.session = session))

/-- The frames handed to `async_write` on a stream. -/
def handedOn (e : FixExecutor) (stream : Nat) : List Outgoing :=
  (e.handed.filter (fun h => decide (h.stream = stream))).map Handed.frame

/-- Every stream carries the frames of its own session only, in order from its Logon on. -/
def StreamsInOrder (e : FixExecutor) : Prop := ∀ stream, InOrder stream (e.handedOn stream)

/-- The session may build frames: before the end of `io_.run()`. -/
def inSession (e : FixExecutor) : Bool :=
  match e.stage with
  | .draining | .listening | .timing | .parsing => true
  | .running => !e.ioStopped
  | _ => false

/-- The write queue, its one completion, and the frames of every session in order. -/
structure Outbox (e : FixExecutor) : Prop where
  queue : e.writeQueue.Sound
  late : e.writes + e.handlers.countP Handler.isWrote = if e.writing then 1 else 0
  order : ∀ session, InOrder session (e.queuedIn session)
  past : ∀ f ∈ e.queued, f.session ≤ e.session
  own : ∀ h ∈ e.handed, h.frame.session = h.stream

structure Ready (e : FixExecutor) : Prop where
  stream : e.stream = true
  flowing : e.writeQueue.Flowing
  seqOut : e.seqOut = (e.queuedIn e.session).length + 1

/-- A session that has queued its Logon. -/
structure Working (e : FixExecutor) : Prop extends Outbox e, Ready e where
  logon : e.queuedIn e.session ≠ []

structure OutboundInv (e : FixExecutor) : Prop where
  outbox : e.Outbox
  working : e.inSession = true → e.Working

/-- What concerns the outbound frames is the same. -/
structure SameOutbound (e e' : FixExecutor) : Prop where
  queue : e'.writeQueue = e.writeQueue
  handed : e'.handed = e.handed
  late : e'.writes + e'.handlers.countP Handler.isWrote = e.writes + e.handlers.countP Handler.isWrote
  session : e'.session = e.session
  seqOut : e'.seqOut = e.seqOut

variable {cfg : Config} {utc : Nat → String} {e e' : FixExecutor}

lemma SameOutbound.queuedIn (h : SameOutbound e e') : e'.queuedIn = e.queuedIn := by
  have hqueued : e'.queued = e.queued := congrArg WriteQueue.pushed h.queue
  funext session
  unfold FixExecutor.queuedIn
  rw [hqueued]

lemma Outbox.of_same (hI : e.Outbox) (h : SameOutbound e e') : e'.Outbox := by
  have hwriting : e'.writing = e.writing := congrArg WriteQueue.writing h.queue
  have hqueued : e'.queued = e.queued := congrArg WriteQueue.pushed h.queue
  constructor
  · rw [h.queue]
    exact hI.queue
  · rw [h.late, hwriting]
    exact hI.late
  · rw [h.queuedIn]
    exact hI.order
  · rw [hqueued, h.session]
    exact hI.past
  · rw [h.handed]
    exact hI.own

lemma Working.of_same (hW : e.Working) (h : SameOutbound e e') (hs : e'.stream = e.stream) :
    e'.Working := by
  refine { toOutbox := hW.toOutbox.of_same h, stream := ?_, flowing := ?_, seqOut := ?_, logon := ?_ }
  · rw [hs]
    exact hW.stream
  · rw [h.queue]
    exact hW.flowing
  · rw [h.seqOut, h.session, h.queuedIn]
    exact hW.seqOut
  · rw [h.session, h.queuedIn]
    exact hW.logon

/-! ## Sending -/

lemma pumpWrite_of_writing (h : e.writing = true) : e.pumpWrite = e := by
  simp [pumpWrite, h]

lemma pumpWrite_of_nil (h : e.wqueue = []) : e.pumpWrite = e := by
  unfold pumpWrite
  split
  · rfl
  · simp [h]

lemma pumpWrite_of_cons {f : Outgoing} {rest : List Outgoing} (hs : e.stream = true)
    (hw : e.writing = false) (hq : e.wqueue = f :: rest) :
    e.pumpWrite =
      { e with
        writing := true
        writes := e.writes + 1
        handed := e.handed ++ [⟨e.session, f⟩] } := by
  simp [pumpWrite, hs, hw, hq]

lemma pumpWrite_writeQueue (hs : e.stream = true) : e.pumpWrite.writeQueue = e.writeQueue.pump := by
  by_cases hw : e.writing = true
  · rw [pumpWrite_of_writing hw, WriteQueue.pump_of_writing hw]
  · rw [Bool.not_eq_true] at hw
    match hq : e.wqueue with
    | [] => rw [pumpWrite_of_nil hq, WriteQueue.pump_of_nil hq]
    | f :: rest =>
      rw [pumpWrite_of_cons hs hw hq, WriteQueue.pump_of_cons hw hq]
      simp [writeQueue]

lemma pumpWrite_keeps (e : FixExecutor) :
    e.pumpWrite.queued = e.queued ∧ e.pumpWrite.session = e.session ∧
      e.pumpWrite.seqOut = e.seqOut ∧ e.pumpWrite.stream = e.stream := by
  unfold pumpWrite
  split
  · exact ⟨rfl, rfl, rfl, rfl⟩
  · split <;> exact ⟨rfl, rfl, rfl, rfl⟩

/-- The pump hands over a frame of the session. -/
lemma Outbox.pump (hI : e.Outbox) (hs : e.stream = true)
    (hown : e.writing = false → ∀ f ∈ e.wqueue.head?, f.session = e.session) :
    e.pumpWrite.Outbox := by
  have hqueue : e.pumpWrite.writeQueue.Sound := by
    rw [pumpWrite_writeQueue hs]
    exact hI.queue.pump
  by_cases hw : e.writing = true
  · rwa [pumpWrite_of_writing hw]
  · rw [Bool.not_eq_true] at hw
    match hq : e.wqueue with
    | [] => rwa [pumpWrite_of_nil hq]
    | f :: rest =>
      rw [pumpWrite_of_cons hs hw hq] at hqueue ⊢
      have hlate := hI.late
      simp only [hw, Bool.false_eq_true, if_false] at hlate
      refine { queue := hqueue, late := ?_, order := hI.order, past := hI.past, own := ?_ }
      · simp only [if_true]
        omega
      · intro h hh
        rcases List.mem_append.mp hh with hold | hnew
        · exact hI.own h hold
        · rw [List.mem_singleton.mp hnew]
          exact hown hw f (by simp [hq])

lemma queuedIn_concat {f : Outgoing} (h : e'.queued = e.queued ++ [f]) (session : Nat) :
    e'.queuedIn session = e.queuedIn session ++ if f.session = session then [f] else [] := by
  unfold queuedIn
  rw [h, List.filter_append]
  by_cases hf : f.session = session <;> simp [hf]

/-- What `send` puts into the queue. -/
def enqueue (utc : Nat → String) (e : FixExecutor) (build : Nat → String → Message)
    (job : Option OrderJob) : FixExecutor :=
  { e with
    seqOut := e.seqOut + 1
    stamps := e.stamps + 1
    lastSendMs := e.nowMs
    wqueue := e.wqueue ++ [⟨e.session, build e.seqOut (utc e.stamps), job⟩]
    queued := e.queued ++ [⟨e.session, build e.seqOut (utc e.stamps), job⟩] }

lemma send_eq (e : FixExecutor) (build : Nat → String → Message) (job : Option OrderJob) :
    e.send utc build job = (e.enqueue utc build job).pumpWrite := rfl

variable {build : Nat → String → Message} {job : Option OrderJob}

lemma enqueue_queuedIn (session : Nat) :
    (e.enqueue utc build job).queuedIn session =
      e.queuedIn session ++
        if e.session = session then [⟨e.session, build e.seqOut (utc e.stamps), job⟩] else [] := by
  rw [queuedIn_concat (f := ⟨e.session, build e.seqOut (utc e.stamps), job⟩) rfl session]

lemma enqueue_session : (e.enqueue utc build job).session = e.session := rfl

/-- The next frame of a session is in order. -/
lemma Outbox.enqueue (hI : e.Outbox) (hseqOut : e.seqOut = (e.queuedIn e.session).length + 1)
    (hseq : ∀ seq time, (build seq time).value 34 = some (ascii (toString seq)))
    (hlogon : e.queuedIn e.session = [] → ∀ seq time, (build seq time).value 35 = some (ascii "A")) :
    (e.enqueue utc build job).Outbox := by
  refine { queue := hI.queue.push _, late := hI.late, order := ?_, past := ?_, own := hI.own }
  · intro session
    rw [enqueue_queuedIn]
    by_cases hs : e.session = session
    · subst hs
      rw [if_pos rfl]
      apply (hI.order e.session).concat rfl
      · rw [hseq, hseqOut]
      · intro hnil
        exact hlogon hnil _ _
    · rw [if_neg hs, List.append_nil]
      exact hI.order session
  · intro f hf
    rcases List.mem_append.mp hf with hold | hnew
    · exact hI.past f hold
    · rw [List.mem_singleton.mp hnew]
      exact le_rfl

/-- A session sends its next frame. -/
lemma Ready.send (hr : e.Ready) (hI : e.Outbox)
    (hseq : ∀ seq time, (build seq time).value 34 = some (ascii (toString seq)))
    (hlogon : e.queuedIn e.session = [] → ∀ seq time, (build seq time).value 35 = some (ascii "A")) :
    (e.send utc build job).Working := by
  rw [send_eq]
  have hqueued : (e.enqueue utc build job).Outbox := hI.enqueue hr.seqOut hseq hlogon
  have hstream : (e.enqueue utc build job).stream = true := hr.stream
  obtain ⟨hkept, hsession, hseqOut, hopen⟩ := (e.enqueue utc build job).pumpWrite_keeps
  have hin : ∀ session, (e.enqueue utc build job).pumpWrite.queuedIn session =
      (e.enqueue utc build job).queuedIn session := by
    intro session
    unfold queuedIn
    rw [hkept]
  have hown : (e.enqueue utc build job).writing = false →
      ∀ f ∈ (e.enqueue utc build job).wqueue.head?, f.session = (e.enqueue utc build job).session := by
    intro hw f hf
    have hnil : e.wqueue = [] := hr.flowing.resolve_left (by rw [show e.writeQueue.writing = false from hw]; simp)
    simp only [FixExecutor.enqueue, hnil, List.nil_append, List.head?_cons, Option.mem_some] at hf
    rw [← hf]
    rfl
  refine { toOutbox := hqueued.pump hstream hown, stream := ?_, flowing := ?_, seqOut := ?_, logon := ?_ }
  · rw [hopen]
    exact hstream
  · rw [pumpWrite_writeQueue hstream]
    exact WriteQueue.pump_flowing _
  · rw [hseqOut, hin, hsession, enqueue_session, enqueue_queuedIn, if_pos rfl, List.length_append]
    show e.seqOut + 1 = _
    rw [hr.seqOut]
    rfl
  · rw [hin, hsession, enqueue_session, enqueue_queuedIn, if_pos rfl]
    simp

lemma Working.send (hW : e.Working)
    (hseq : ∀ seq time, (build seq time).value 34 = some (ascii (toString seq))) :
    (e.send utc build job).Working :=
  hW.toReady.send hW.toOutbox hseq (fun hnil => absurd hnil hW.logon)

/-! ## The handlers -/

lemma sameOutbound_post {h : Handler} (hh : h.isWrote = false) : SameOutbound e (e.post h) := by
  refine ⟨rfl, rfl, ?_, rfl, rfl⟩
  simp [post, hh]

lemma cancelTimer_keeps (e : FixExecutor) :
    SameOutbound e e.cancelTimer ∧ e.cancelTimer.stream = e.stream ∧ e.cancelTimer.stage = e.stage := by
  unfold cancelTimer
  split
  · exact ⟨⟨rfl, rfl, rfl, rfl, rfl⟩, rfl, rfl⟩
  · have hsame := sameOutbound_post (e := { e with timer := none }) (h := .timer true) rfl
    exact ⟨⟨hsame.queue, hsame.handed, hsame.late, hsame.session, hsame.seqOut⟩, rfl, rfl⟩

/-- A call that does nothing to the outbound frames but send some, numbered. -/
inductive Sends (e : FixExecutor) : FixExecutor → Prop where
  | refl : Sends e e
  | quiet {d d' : FixExecutor} (calls : Sends e d) (same : SameOutbound d d')
      (stream : d'.stream = d.stream) : Sends e d'
  | sent {d : FixExecutor} (calls : Sends e d) (utc : Nat → String) (build : Nat → String → Message)
      (job : Option OrderJob)
      (numbered : ∀ seq time, (build seq time).value 34 = some (ascii (toString seq))) :
      Sends e (d.send utc build job)

lemma Sends.of_same (same : SameOutbound e e') (stream : e'.stream = e.stream) : Sends e e' :=
  Sends.refl.quiet same stream

lemma Sends.trans {d : FixExecutor} (h : Sends e d) (h' : Sends d e') : Sends e e' := by
  induction h' with
  | refl => exact h
  | quiet _ same stream ih => exact ih.quiet same stream
  | sent _ utc build job numbered ih => exact ih.sent utc build job numbered

lemma Working.sends (hW : e.Working) (h : Sends e e') : e'.Working := by
  induction h with
  | refl => exact hW
  | quiet _ same stream ih => exact ih.of_same same stream
  | sent _ utc build job numbered ih => exact ih.send numbered

lemma startRead_sends (e : FixExecutor) : Sends e e.startRead := by
  unfold FixExecutor.startRead
  split
  · exact .refl
  · exact .of_same ⟨rfl, rfl, rfl, rfl, rfl⟩ rfl

lemma startHbTimer_sends (e : FixExecutor) : Sends e (e.startHbTimer cfg) := by
  unfold FixExecutor.startHbTimer
  split
  · exact .refl
  · obtain ⟨hsame, hstream, -⟩ := e.cancelTimer_keeps
    exact (Sends.of_same hsame hstream).quiet ⟨rfl, rfl, rfl, rfl, rfl⟩ rfl

lemma onExecutionReport_sends (e : FixExecutor) (f : Bytes) : Sends e (e.onExecutionReport f) := by
  unfold FixExecutor.onExecutionReport
  split
  · exact .refl
  · split
    · exact .refl
    · split
      · exact .refl
      · exact .of_same ⟨rfl, rfl, rfl, rfl, rfl⟩ rfl

lemma sendOrder_sends (e : FixExecutor) (job : OrderJob) : Sends e (e.sendOrder cfg utc job) := by
  unfold FixExecutor.sendOrder
  apply Sends.sent
  · exact .of_same ⟨rfl, rfl, rfl, rfl, rfl⟩ rfl
  · intro seq time
    exact buildMsg_seq ..

lemma drainOrders_sends (e : FixExecutor) : Sends e (e.drainOrders cfg utc) := by
  unfold FixExecutor.drainOrders
  split
  · exact .refl
  · have hstart : Sends e { e with orders := [] } := .of_same ⟨rfl, rfl, rfl, rfl, rfl⟩ rfl
    generalize ({ e with orders := [] } : FixExecutor) = d at hstart
    induction e.orders generalizing d with
    | nil => exact hstart
    | cons job jobs ih => exact ih _ (hstart.trans (sendOrder_sends d job))

lemma dispatch_sends (e : FixExecutor) (f : Bytes) : Sends e (e.dispatch cfg utc f) := by
  unfold FixExecutor.dispatch
  split
  · exact onExecutionReport_sends e f
  · split
    · apply Sends.refl.sent
      intro seq time
      exact buildMsg_seq ..
    · split
      · exact .of_same ⟨rfl, rfl, rfl, rfl, rfl⟩ rfl
      · exact .refl

lemma noteFrame_sends (e : FixExecutor) (f : Bytes) : Sends e (e.noteFrame cfg utc f) := by
  unfold FixExecutor.noteFrame
  split
  · exact .of_same ⟨rfl, rfl, rfl, rfl, rfl⟩ rfl
  · apply Sends.sent
    · exact .of_same ⟨rfl, rfl, rfl, rfl, rfl⟩ rfl
    · intro seq time
      exact buildMsg_seq ..

lemma handleFrame_sends (e : FixExecutor) (f : Bytes) : Sends e (e.handleFrame cfg utc f) := by
  refine Sends.trans ?_ (dispatch_sends _ f)
  refine Sends.trans ?_ (noteFrame_sends _ f)
  exact .of_same ⟨rfl, rfl, rfl, rfl, rfl⟩ rfl

lemma readAgain_sends (e : FixExecutor) : Sends e e.readAgain :=
  (startRead_sends e).quiet ⟨rfl, rfl, rfl, rfl, rfl⟩ rfl

lemma parse_sends (e : FixExecutor) : Sends e (e.parse cfg utc) := by
  unfold FixExecutor.parse
  split
  · refine Sends.trans ?_ (readAgain_sends _)
    exact .of_same ⟨rfl, rfl, rfl, rfl, rfl⟩ rfl
  · exact .of_same ⟨rfl, rfl, rfl, rfl, rfl⟩ rfl
  · rename_i f rest _
    have hframe : Sends e (({ e with inbound := rest } : FixExecutor).handleFrame cfg utc f) := by
      refine Sends.trans ?_ (handleFrame_sends _ f)
      exact .of_same ⟨rfl, rfl, rfl, rfl, rfl⟩ rfl
    simp only
    split
    · exact hframe.trans (readAgain_sends _)
    · exact hframe

lemma onRead_sends (e : FixExecutor) (outcome : ReadOutcome) : Sends e (e.onRead outcome) := by
  cases outcome with
  | aborted => exact .refl
  | failed => exact .of_same ⟨rfl, rfl, rfl, rfl, rfl⟩ rfl
  | data stream bytes => exact .of_same ⟨rfl, rfl, rfl, rfl, rfl⟩ rfl

lemma onTimer_sends (e : FixExecutor) (aborted : Bool) : Sends e (e.onTimer cfg utc aborted) := by
  unfold FixExecutor.onTimer
  split
  · exact .refl
  · split
    · exact .of_same ⟨rfl, rfl, rfl, rfl, rfl⟩ rfl
    · split
      · refine Sends.trans ?_ (startHbTimer_sends _)
        apply Sends.refl.sent
        intro seq time
        exact buildMsg_seq ..
      · exact startHbTimer_sends e

variable (cfg utc) in
/-- The Logout takes a number, and no frame is built after it. -/
lemma Outbox.onLogout (hI : e.Outbox) :
    (e.onLogout cfg utc).Outbox ∧ (e.onLogout cfg utc).stage = e.stage ∧
      (e.onLogout cfg utc).ioStopped = true := by
  unfold FixExecutor.onLogout
  split
  · exact ⟨⟨hI.queue, hI.late, hI.order, hI.past, hI.own⟩, rfl, rfl⟩
  · exact ⟨⟨hI.queue, hI.late, hI.order, hI.past, hI.own⟩, rfl, rfl⟩

/-! ## The runs -/

/-- A session starts with an empty write queue or with a write under way, and a completed write is
followed by a frame of the session. -/
def writesOwn (e : FixExecutor) : Action → Bool
  | .connect .up => e.writing || e.wqueue.isEmpty
  | .handle =>
    match e.handlers with
    | .wrote true :: _ => e.wqueue.tail.head?.all (fun f => decide (f.session = e.session))
    | _ => true
  | _ => true

lemma OutboundInv.of_same (hI : e.OutboundInv) (h : SameOutbound e e') (hs : e'.stream = e.stream)
    (hin : e'.inSession = true → e.inSession = true) : e'.OutboundInv := by
  constructor
  · exact hI.outbox.of_same h
  · intro hsession
    exact (hI.working (hin hsession)).of_same h hs

lemma Working.outboundInv (hW : e.Working) (h : SameOutbound e e') (hs : e'.stream = e.stream) :
    e'.OutboundInv := by
  have hW' := hW.of_same h hs
  exact ⟨hW'.toOutbox, fun _ => hW'⟩

lemma OutboundInv.of_outbox (hI : e.Outbox) (hin : e.inSession = false) : e.OutboundInv := by
  constructor
  · exact hI
  · intro hsession
    rw [hin] at hsession
    cases hsession

lemma queuedIn_next (hI : e.Outbox) : e.queuedIn (e.session + 1) = [] := by
  unfold queuedIn
  rw [List.filter_eq_nil_iff]
  intro f hf
  have hle := hI.past f hf
  simp only [decide_eq_true_eq]
  omega

lemma startSession_inv (hI : e.Outbox) (hC : e.writing = true ∨ e.wqueue = []) :
    (e.startSession cfg utc).OutboundInv := by
  have hqueued : e.opened.queuedIn e.opened.session = [] := queuedIn_next hI
  have hopened : e.opened.Outbox := by
    refine { queue := hI.queue, late := hI.late, order := hI.order, past := ?_, own := hI.own }
    intro f hf
    exact (hI.past f hf).trans (Nat.le_succ _)
  have hready : e.opened.Ready := by
    refine { stream := rfl, flowing := hC, seqOut := ?_ }
    rw [hqueued]
    rfl
  have hsent : (e.opened.send utc (buildLogon cfg)).Working := by
    apply hready.send hopened
    · intro seq time
      exact buildMsg_seq ..
    · intro _ seq time
      exact buildMsg_type ..
  exact hsent.outboundInv ⟨rfl, rfl, rfl, rfl, rfl⟩ rfl

lemma inSession_of_stopped (hstage : e.stage = .running) (hstopped : e.ioStopped = true) :
    e.inSession = false := by
  simp [inSession, hstage, hstopped]

/-- The completion of a write is that of the only one under way. -/
lemma last_write {ok : Bool} {rest : List Handler} (hnext : e.handlers = .wrote ok :: rest)
    (hlate : e.writes + e.handlers.countP Handler.isWrote = if e.writing then 1 else 0) :
    e.writing = true ∧ e.writes + rest.countP Handler.isWrote = 0 := by
  rw [hnext, List.countP_cons_of_pos rfl] at hlate
  have hwriting : e.writing = true := by
    by_contra hw
    rw [if_neg hw] at hlate
    omega
  rw [if_pos hwriting] at hlate
  exact ⟨hwriting, by omega⟩

/-- The frame of the completed write leaves the queue. -/
lemma Outbox.popWritten {ok : Bool} (hI : e.Outbox) {rest : List Handler}
    (hnext : e.handlers = .wrote ok :: rest) : (e.dequeue rest).popWritten.Outbox := by
  obtain ⟨hwriting, hlate⟩ := last_write hnext hI.late
  exact { queue := hI.queue.complete hwriting, late := hlate, order := hI.order, past := hI.past, own := hI.own }

lemma onWrote_inv {ok : Bool} (hW : e.Working) {rest : List Handler} (hstage : e.stage = .running)
    (hnext : e.handlers = .wrote ok :: rest)
    (hC : ok = true → ∀ f ∈ e.wqueue.tail.head?, f.session = e.session) :
    ((e.dequeue rest).onWrote ok).OutboundInv := by
  have hdone := hW.toOutbox.popWritten hnext
  cases ok with
  | false =>
    apply OutboundInv.of_outbox
    · exact ⟨hdone.queue, hdone.late, hdone.order, hdone.past, hdone.own⟩
    · exact inSession_of_stopped hstage rfl
  | true =>
    have hstream : (e.dequeue rest).popWritten.stream = true := hW.stream
    have hsent : (e.dequeue rest).popWritten.pumpWrite.Outbox := hdone.pump hstream (fun _ => hC rfl)
    obtain ⟨hqueued, hsession, hseqOut, hopen⟩ := (e.dequeue rest).popWritten.pumpWrite_keeps
    have hin : (e.dequeue rest).popWritten.pumpWrite.queuedIn
        (e.dequeue rest).popWritten.pumpWrite.session = e.queuedIn e.session := by
      unfold queuedIn
      rw [hqueued, hsession]
      rfl
    have hwork : (e.dequeue rest).popWritten.pumpWrite.Working := by
      refine { toOutbox := hsent, stream := ?_, flowing := ?_, seqOut := ?_, logon := ?_ }
      · rw [hopen]
        exact hstream
      · rw [pumpWrite_writeQueue hstream]
        exact WriteQueue.pump_flowing _
      · rw [hseqOut, hin]
        exact hW.seqOut
      · rw [hin]
        exact hW.logon
    exact hwork.outboundInv ⟨rfl, rfl, rfl, rfl, rfl⟩ rfl

lemma handle_inv {h : Handler} {rest : List Handler} (hW : e.Working) (hstage : e.stage = .running)
    (hnext : e.handlers = h :: rest) (hC : e.writesOwn .handle = true) :
    ((e.dequeue rest).handle cfg utc h).OutboundInv := by
  have hquiet : h.isWrote = false → (e.dequeue rest).Working := by
    intro hh
    refine hW.of_same ⟨rfl, rfl, ?_, rfl, rfl⟩ rfl
    rw [hnext, List.countP_cons_of_neg (by simp [hh])]
    rfl
  cases h with
  | drain =>
    have hW' : ((e.dequeue rest).drainOrders cfg utc).Working := (hquiet rfl).sends (drainOrders_sends _)
    exact ⟨hW'.toOutbox, fun _ => hW'⟩
  | logout =>
    obtain ⟨hI, hkept, hstopped⟩ := (hquiet rfl).toOutbox.onLogout cfg utc
    exact OutboundInv.of_outbox hI (inSession_of_stopped (hkept.trans hstage) hstopped)
  | wrote ok =>
    apply onWrote_inv hW hstage hnext
    rintro rfl f hf
    simp only [writesOwn, hnext] at hC
    rw [Option.mem_def.mp hf, Option.all_some, decide_eq_true_eq] at hC
    exact hC
  | read outcome =>
    have hW' : ((e.dequeue rest).onRead outcome).Working :=
      (hquiet rfl).sends (onRead_sends _ outcome)
    exact ⟨hW'.toOutbox, fun _ => hW'⟩
  | timer aborted =>
    have hW' : ((e.dequeue rest).onTimer cfg utc aborted).Working := (hquiet rfl).sends (onTimer_sends _ aborted)
    exact ⟨hW'.toOutbox, fun _ => hW'⟩

/-- A write under way on a stream that is closed is aborted: its completion is still to run. -/
lemma leave_late (e : FixExecutor) : e.leave.writes + e.leave.handlers.countP Handler.isWrote =
    e.writes + e.handlers.countP Handler.isWrote := by
  have haborted : (List.replicate e.reads (Handler.read .aborted)).countP Handler.isWrote = 0 := by
    rw [List.countP_replicate]
    rfl
  have hfailed : (List.replicate e.writes (Handler.wrote false)).countP Handler.isWrote = e.writes := by
    rw [List.countP_replicate]
    rfl
  show 0 + (e.handlers ++ _ ++ _).countP Handler.isWrote = _
  rw [List.countP_append, List.countP_append, haborted, hfailed]
  omega

lemma leave_inv (hI : e.Outbox) : e.leave.OutboundInv := by
  apply OutboundInv.of_outbox
  · exact { queue := hI.queue, late := e.leave_late.trans hI.late, order := hI.order, past := hI.past,
            own := hI.own }
  · rfl

lemma join_inv (hI : e.Outbox) : e.join.OutboundInv := by
  obtain ⟨hsame, -, hstage⟩ :=
    ({ e with joining := false, stage := .unstarted } : FixExecutor).cancelTimer_keeps
  apply OutboundInv.of_outbox
  · apply Outbox.of_same _ hsame
    exact hI.of_same ⟨rfl, rfl, rfl, rfl, rfl⟩
  · unfold join inSession
    rw [hstage]

/-- Another handler than the completion of a write is ready. -/
lemma OutboundInv.post {h : Handler} (hI : e.OutboundInv) (hh : h.isWrote = false) :
    (e.post h).OutboundInv :=
  hI.of_same (sameOutbound_post hh) rfl (fun hin => hin)

lemma step_outbound {a : Action} (hI : e.OutboundInv) (hs : e.step cfg utc a = some e')
    (hC : e.writesOwn a = true) : e'.OutboundInv := by
  cases step_moves hs with
  | started => exact hI
  | start stage => exact hI.of_same ⟨rfl, rfl, rfl, rfl, rfl⟩ rfl (by simp [inSession])
  | stop =>
    unfold stop
    split
    · exact hI
    · exact hI.of_same ⟨rfl, rfl, rfl, rfl, rfl⟩ rfl (fun h => h)
  | stopPost =>
    apply OutboundInv.post _ rfl
    exact hI.of_same ⟨rfl, rfl, rfl, rfl, rfl⟩ rfl (fun h => h)
  | join stage => exact join_inv hI.outbox
  | execute call =>
    unfold execute
    split
    · exact hI
    · split <;> exact hI.of_same ⟨rfl, rfl, rfl, rfl, rfl⟩ rfl (fun h => h)
  | post =>
    apply OutboundInv.post _ rfl
    exact hI.of_same ⟨rfl, rfl, rfl, rfl, rfl⟩ rfl (fun h => h)
  | wait ms => exact hI.of_same ⟨rfl, rfl, rfl, rfl, rfl⟩ rfl (fun h => h)
  | loop stage =>
    have hin : e.loopTest.inSession = false := by
      unfold loopTest inSession
      cases e.halted <;> rfl
    exact OutboundInv.of_outbox (hI.outbox.of_same ⟨rfl, rfl, rfl, rfl, rfl⟩) hin
  | connected stage =>
    apply startSession_inv hI.outbox
    simpa [writesOwn] using hC
  | connectFailed result threw failed stage =>
    apply OutboundInv.of_outbox
    · exact hI.outbox.of_same ⟨rfl, rfl, rfl, rfl, rfl⟩
    · rfl
  | retry untilMs stage => exact hI.of_same ⟨rfl, rfl, rfl, rfl, rfl⟩ rfl (by simp [inSession])
  | drain stage =>
    have hW := hI.working (by simp [inSession, stage])
    exact (hW.sends (drainOrders_sends e)).outboundInv ⟨rfl, rfl, rfl, rfl, rfl⟩ rfl
  | listen stage =>
    have hW := hI.working (by simp [inSession, stage])
    have hclock : ({ e with lastRecvMs := e.nowMs } : FixExecutor).Working :=
      hW.of_same ⟨rfl, rfl, rfl, rfl, rfl⟩ rfl
    exact (hclock.sends (startRead_sends _)).outboundInv ⟨rfl, rfl, rfl, rfl, rfl⟩ rfl
  | arm stage =>
    have hW := hI.working (by simp [inSession, stage])
    exact (hW.sends (startHbTimer_sends e)).outboundInv ⟨rfl, rfl, rfl, rfl, rfl⟩ rfl
  | handle h rest stage going next =>
    exact handle_inv (hI.working (by simp [inSession, stage, going])) stage next hC
  | parse stage =>
    have hW : (e.parse cfg utc).Working := (hI.working (by simp [inSession, stage])).sends (parse_sends e)
    exact ⟨hW.toOutbox, fun _ => hW⟩
  | leave stage ended => exact leave_inv hI.outbox
  | wrote ok writes =>
    refine hI.of_same ⟨rfl, rfl, ?_, rfl, rfl⟩ rfl (fun h => h)
    simp only [FixExecutor.post, List.countP_append, List.countP_singleton, Handler.isWrote, if_true]
    omega
  | received bytes reads =>
    apply OutboundInv.post _ rfl
    exact hI.of_same ⟨rfl, rfl, rfl, rfl, rfl⟩ rfl (fun h => h)
  | readFailed reads =>
    apply OutboundInv.post _ rfl
    exact hI.of_same ⟨rfl, rfl, rfl, rfl, rfl⟩ rfl (fun h => h)
  | expire dueMs timer =>
    apply OutboundInv.post _ rfl
    exact hI.of_same ⟨rfl, rfl, rfl, rfl, rfl⟩ rfl (fun h => h)

/-- The frames handed over are the first of those queued. -/
lemma Outbox.streamsInOrder (hI : e.Outbox) : e.StreamsInOrder := by
  intro stream
  have hfilter : e.handedOn stream =
      (e.handed.map Handed.frame).filter (fun f => decide (f.session = stream)) := by
    unfold handedOn
    rw [List.filter_map]
    congr 1
    apply List.filter_congr
    intro h hh
    rw [Function.comp_apply, hI.own h hh]
  apply (hI.order stream).initial
  rw [hfilter]
  exact hI.queue.handed_prefix.filter _

/-- A frame of another session on a stream. -/
lemma not_streamsInOrder_of_stale {h : Handed} (hh : h ∈ e.handed) (hstale : h.frame.session ≠ h.stream) :
    ¬e.StreamsInOrder := by
  intro horder
  apply hstale
  apply (horder h.stream).own
  apply List.mem_map_of_mem
  rw [List.mem_filter]
  exact ⟨hh, by simp⟩

lemma startSession_stale (hI : e.Outbox) (hw : e.writing = false) (hq : e.wqueue ≠ []) :
    ¬(e.startSession cfg utc).StreamsInOrder := by
  obtain ⟨f, rest, hcons⟩ := List.exists_cons_of_ne_nil hq
  have hhead : (e.opened.enqueue utc (buildLogon cfg) none).wqueue =
      f :: (rest ++ [⟨e.session + 1, buildLogon cfg 1 (utc e.stamps), none⟩]) := by
    show e.wqueue ++ _ = _
    rw [hcons]
    rfl
  have hstream : (e.opened.enqueue utc (buildLogon cfg) none).stream = true := rfl
  have hidle : (e.opened.enqueue utc (buildLogon cfg) none).writing = false := hw
  have hhanded : (e.startSession cfg utc).handed = e.handed ++ [⟨e.session + 1, f⟩] := by
    show (e.opened.send utc (buildLogon cfg)).handed = _
    rw [send_eq, pumpWrite_of_cons hstream hidle hhead]
    rfl
  have hpast : f.session ≤ e.session := by
    apply hI.past
    have hfifo : e.handed.map Handed.frame ++ e.writeQueue.waiting = e.queued := hI.queue.fifo
    rw [← hfifo, List.mem_append]
    right
    simp [WriteQueue.waiting, writeQueue, hw, hcons]
  apply not_streamsInOrder_of_stale (h := ⟨e.session + 1, f⟩)
  · rw [hhanded]
    simp
  · show f.session ≠ e.session + 1
    omega

lemma onWrote_stale {rest : List Handler} {f : Outgoing} {more : List Outgoing} (hW : e.Working)
    (hq : e.wqueue.tail = f :: more) (hstale : f.session ≠ e.session) :
    ¬((e.dequeue rest).onWrote true).StreamsInOrder := by
  have hstream : (e.dequeue rest).popWritten.stream = true := hW.stream
  have hidle : (e.dequeue rest).popWritten.writing = false := rfl
  have hhead : (e.dequeue rest).popWritten.wqueue = f :: more := hq
  have hhanded : ((e.dequeue rest).onWrote true).handed = e.handed ++ [⟨e.session, f⟩] := by
    show (e.dequeue rest).popWritten.pumpWrite.handed = _
    rw [pumpWrite_of_cons hstream hidle hhead]
    rfl
  apply not_streamsInOrder_of_stale (h := ⟨e.session, f⟩)
  · rw [hhanded]
    simp
  · exact hstale

theorem step_streamsInOrder_iff {a : Action} (hI : e.OutboundInv) (hs : e.step cfg utc a = some e') :
    e'.StreamsInOrder ↔ e.writesOwn a = true := by
  constructor
  · intro horder
    by_contra hC
    cases step_moves hs with
    | connected stage =>
      simp only [writesOwn, Bool.or_eq_true, List.isEmpty_iff, not_or] at hC
      exact startSession_stale hI.outbox (Bool.not_eq_true _ ▸ hC.1) hC.2 horder
    | connectFailed result threw failed stage =>
      cases result with
      | up => exact failed rfl
      | failed => exact hC rfl
      | threw => exact hC rfl
    | handle h rest stage going next =>
      have hW := hI.working (by simp [inSession, stage, going])
      simp only [writesOwn, next] at hC
      split at hC
      · rename_i heq
        cases heq
        match hq : e.wqueue.tail with
        | [] => simp [hq] at hC
        | f :: more =>
          simp only [hq, List.head?_cons, Option.all_some, decide_eq_true_eq] at hC
          exact onWrote_stale hW hq hC horder
      · exact hC rfl
    | _ => exact hC rfl
  · intro hC
    exact (step_outbound hI hs hC).outbox.streamsInOrder

/-- In a run every stream carries the frames of its own session in order exactly when every session
starts with an empty write queue or a write under way, and every completed write is followed by a frame
of the session. -/
theorem streams_in_order_iff (cfg : Config) (utc : Nat → String) (run : List Action) :
    (machine cfg utc).Always run (fun _ _ t => t.StreamsInOrder) ↔
      (machine cfg utc).Always run (fun s a _ => s.writesOwn a = true) := by
  apply (machine cfg utc).always_iff_along (I := OutboundInv)
  · apply OutboundInv.of_outbox
    · constructor
      · exact ⟨rfl, by simp [machine, writeQueue]⟩
      · rfl
      · exact fun _ => inOrder_nil
      · simp [machine]
      · simp [machine]
    · rfl
  · intro s a t _ hI hs hC
    exact step_outbound hI hs hC
  · intro s a t _ hI hs
    exact step_streamsInOrder_iff hI hs

/-- A connection comes up and the session runs. -/
def sessionUp : List Action := [.loop, .connect .up, .drain, .listen, .arm]

/-- An order waits behind the Logon whose write fails. -/
def orderBehindLogon : List Action :=
  [Action.start] ++ sessionUp ++
    [Action.execute ⟨"XAU/USD", "buy", 1, 0, 0⟩, .post, .handle, .wrote false, .handle, .leave, .loop]

/-- The next stream starts with the order, number 2 of the session before. -/
theorem order_before_logon :
    ((machine {} (fun _ => "")).run (machine {} (fun _ => "")).init
      (orderBehindLogon ++ [Action.connect .up])).map
      (fun s => (s.handedOn 2).map (fun f => (f.session, f.message.value 35, f.message.value 34))) =
        some [(1, some (ascii "D"), some (ascii "2"))] ∧
    ¬(machine {} (fun _ => "")).Always (orderBehindLogon ++ [Action.connect .up])
      (fun _ _ t => t.StreamsInOrder) := by
  refine ⟨by decide +kernel, ?_⟩
  intro horder
  have hframes : ((machine {} (fun _ => "")).run (machine {} (fun _ => "")).init
      (orderBehindLogon ++ [Action.connect .up])).map
      (fun s => (s.handedOn 2).map Outgoing.session) = some [1] := by decide +kernel
  obtain ⟨t, ht, hstale⟩ := Option.map_eq_some_iff.mp hframes
  obtain ⟨s, hs, hlast⟩ := (machine {} (fun _ => "")).run_concat_eq_some.mp ht
  obtain ⟨f, hf, hone⟩ := List.mem_map.mp (by rw [hstale]; exact List.mem_singleton_self 1)
  have htwo := (horder _ _ s t List.prefix_rfl hs hlast 2).own f hf
  omega

end FixExecutor

end LatencyArb
