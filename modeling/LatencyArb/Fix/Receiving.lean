import LatencyArb.Fix.Executor
import LatencyArb.Fix.Residue

/-!
# The receive state of the FIX executor

What the handlers and the rounds of `process_inbound` do to the inbound buffer, to the last inbound
number and to the frames handled. All else the executor does leaves these alone.
-/

namespace LatencyArb

namespace Fix

/-- The bytes that wait in the handlers, with the numbers of their streams. -/
def readsOf (handlers : List Handler) : List (Nat × Bytes) :=
  handlers.filterMap (fun h =>
    match h with
    | .read (.data stream bytes) => some (stream, bytes)
    | _ => none)

lemma readsOf_append (handlers more : List Handler) :
    readsOf (handlers ++ more) = readsOf handlers ++ readsOf more := List.filterMap_append

/-- The last inbound number after a frame; a SequenceReset forgets it. -/
def seqAfter (seqIn : Nat) (f : Bytes) : Nat :=
  if scanTag f 35 = ascii "4" then 0 else (noteSeq seqIn f).1

/-- Where the resend requests for the frames begin. -/
def resendsFor : Nat → List Bytes → List Nat
  | _, [] => []
  | seqIn, f :: fs => (noteSeq seqIn f).2.toList ++ resendsFor (seqAfter seqIn f) fs

lemma resendsFor_concat (seqIn : Nat) (fs : List Bytes) (f : Bytes) :
    resendsFor seqIn (fs ++ [f]) =
      resendsFor seqIn fs ++ (noteSeq (fs.foldl seqAfter seqIn) f).2.toList := by
  induction fs generalizing seqIn with
  | nil => simp [resendsFor]
  | cons g fs ih =>
    rw [List.cons_append, resendsFor, ih, resendsFor, List.append_assoc]
    rfl

/-- What a session makes of the bytes it hears when it finds this buffer and this inbound number. -/
def answers (b : Bytes) (seqIn : Nat) (bytes : Bytes) : List Bytes × List Nat :=
  (frames (b ++ bytes), resendsFor seqIn (frames (b ++ bytes)))

/-- A frame of the peer. -/
def peerFrame (msgType : Char) (seq : Nat) : Bytes := (buildMsg {} msgType [] seq "").bytes

lemma frames_peerFrame : frames (peerFrame '0' 3) = [peerFrame '0' 3] := by decide +kernel

lemma frames_peerFrames :
    frames (peerFrame '0' 1 ++ peerFrame '0' 3) = [peerFrame '0' 1, peerFrame '0' 3] := by
  decide +kernel

/-- An inbound number that is found hides a gap, or makes one. -/
lemma resends_differ {seqIn : Nat} (h : seqIn ≠ 0) :
    ∃ bytes, resendsFor seqIn (frames bytes) ≠ resendsFor 0 (frames bytes) := by
  have hdigits : ∀ seq ∈ [1, 3], isDigits (scanTag (peerFrame '0' seq) 34) = true ∧
      atol (scanTag (peerFrame '0' seq) 34) = seq ∧ scanTag (peerFrame '0' seq) 35 ≠ ascii "4" := by
    decide +kernel
  obtain ⟨hone, hnumber, htype⟩ := hdigits 1 (by simp)
  obtain ⟨hthree, hgap, -⟩ := hdigits 3 (by simp)
  by_cases h1 : seqIn = 1
  · subst h1
    refine ⟨peerFrame '0' 3, ?_⟩
    simp [frames_peerFrame, resendsFor, noteSeq, hthree, hgap]
  · refine ⟨peerFrame '0' 1 ++ peerFrame '0' 3, ?_⟩
    have hbig : ¬seqIn + 1 < 3 := by omega
    have hmax : max seqIn 1 = seqIn := by omega
    simp [frames_peerFrames, resendsFor, noteSeq, seqAfter, hone, hnumber, htype, hthree, hgap, h, hmax, hbig]

/-- What was received before makes no difference exactly when the buffer is not live and there is no
last inbound number. -/
theorem answers_fresh_iff (b : Bytes) (seqIn : Nat) :
    (∀ bytes, answers b seqIn bytes = answers [] 0 bytes) ↔ live b = false ∧ seqIn = 0 := by
  constructor
  · intro hsame
    have hagree : splitter.Agree b [] := by
      intro bytes
      have hframes : (answers b seqIn bytes).1 = (answers [] 0 bytes).1 := by rw [hsame bytes]
      exact hframes
    refine ⟨agree_nil_iff.mp hagree, ?_⟩
    by_contra hseq
    obtain ⟨bytes, hdiffer⟩ := resends_differ hseq
    apply hdiffer
    have hresends := congrArg Prod.snd (hsame bytes)
    have hframes : frames (b ++ bytes) = frames bytes := hagree bytes
    simpa [answers, hframes] using hresends
  · rintro ⟨hlive, rfl⟩ bytes
    have hframes : frames (b ++ bytes) = frames ([] ++ bytes) := agree_of_not_live hlive bytes
    unfold answers
    rw [hframes]

end Fix

open LatencyArb.Fix

namespace FixExecutor

/-- In `run_read_loop`. -/
def serving (e : FixExecutor) : Bool :=
  match e.stage with
  | .draining | .listening | .timing | .running | .parsing => true
  | _ => false

def dataReads (e : FixExecutor) : List (Nat × Bytes) := readsOf e.handlers

/-- The receive state is the same. -/
structure SameReceiver (e e' : FixExecutor) : Prop where
  inbound : e'.inbound = e.inbound
  seqIn : e'.seqIn = e.seqIn
  handled : e'.handled = e.handled
  resends : e'.resends = e.resends
  heard : e'.heard = e.heard
  session : e'.session = e.session
  reads : e'.dataReads = e.dataReads
  halted : e'.halted = e.halted
  stage : e'.stage = e.stage

variable {cfg : Config} {utc : Nat → String} {e e' e'' : FixExecutor}

lemma SameReceiver.refl (e : FixExecutor) : SameReceiver e e := by
  constructor <;> rfl

lemma SameReceiver.trans (h : SameReceiver e e') (h' : SameReceiver e' e'') : SameReceiver e e'' := by
  constructor
  · rw [h'.inbound, h.inbound]
  · rw [h'.seqIn, h.seqIn]
  · rw [h'.handled, h.handled]
  · rw [h'.resends, h.resends]
  · rw [h'.heard, h.heard]
  · rw [h'.session, h.session]
  · rw [h'.reads, h.reads]
  · rw [h'.halted, h.halted]
  · rw [h'.stage, h.stage]

lemma sameReceiver_pumpWrite (e : FixExecutor) : SameReceiver e e.pumpWrite := by
  unfold pumpWrite
  split
  · exact .refl e
  · split
    · exact .refl e
    · constructor <;> rfl

lemma sameReceiver_send (e : FixExecutor) (build : Nat → String → Message) (job : Option OrderJob) :
    SameReceiver e (e.send utc build job) := by
  apply SameReceiver.trans _ (sameReceiver_pumpWrite _)
  constructor <;> rfl

lemma sameReceiver_drainOrders (e : FixExecutor) : SameReceiver e (e.drainOrders cfg utc) := by
  unfold drainOrders
  split
  · exact .refl e
  · have hstart : SameReceiver e { e with orders := [] } := by
      constructor <;> rfl
    generalize ({ e with orders := [] } : FixExecutor) = d at hstart
    induction e.orders generalizing d with
    | nil => exact hstart
    | cons job jobs ih =>
      apply ih
      apply hstart.trans
      apply SameReceiver.trans _ (sameReceiver_send _ _ _)
      constructor <;> rfl

lemma sameReceiver_startRead (e : FixExecutor) : SameReceiver e e.startRead := by
  unfold startRead
  split
  · exact .refl e
  · constructor <;> rfl

lemma dataReads_post {h : Handler} (hh : readsOf [h] = []) : (e.post h).dataReads = e.dataReads := by
  show readsOf (e.handlers ++ [h]) = _
  rw [readsOf_append, hh, List.append_nil]
  rfl

lemma sameReceiver_cancelTimer (e : FixExecutor) : SameReceiver e e.cancelTimer := by
  unfold cancelTimer
  split
  · exact .refl e
  · refine ⟨rfl, rfl, rfl, rfl, rfl, rfl, ?_, rfl, rfl⟩
    exact dataReads_post rfl

lemma sameReceiver_startHbTimer (e : FixExecutor) : SameReceiver e (e.startHbTimer cfg) := by
  unfold startHbTimer
  split
  · exact .refl e
  · apply (sameReceiver_cancelTimer e).trans
    constructor <;> rfl

lemma sameReceiver_onTimer (e : FixExecutor) (aborted : Bool) :
    SameReceiver e (e.onTimer cfg utc aborted) := by
  unfold onTimer
  split
  · exact .refl e
  · split
    · constructor <;> rfl
    · split
      · exact (sameReceiver_send _ _ _).trans (sameReceiver_startHbTimer _)
      · exact sameReceiver_startHbTimer e

lemma sameReceiver_onWrote (e : FixExecutor) (ok : Bool) : SameReceiver e (e.onWrote ok) := by
  have hpop : SameReceiver e e.popWritten := by
    constructor <;> rfl
  unfold onWrote
  split
  · exact hpop.trans (sameReceiver_pumpWrite _)
  · apply hpop.trans
    constructor <;> rfl

lemma sameReceiver_onLogout (e : FixExecutor) : SameReceiver e (e.onLogout cfg utc) := by
  unfold onLogout
  split <;> constructor <;> rfl

lemma sameReceiver_onExecutionReport (e : FixExecutor) (f : Bytes) :
    SameReceiver e (e.onExecutionReport f) := by
  unfold onExecutionReport
  split
  · exact .refl e
  · split
    · exact .refl e
    · split
      · exact .refl e
      · constructor <;> rfl

/-! ## A frame -/

variable (cfg utc) in
lemma noteFrame_eq (e : FixExecutor) (f : Bytes) :
    SameReceiver
      { e with
        seqIn := (noteSeq e.seqIn f).1
        resends := e.resends ++ (noteSeq e.seqIn f).2.toList } (e.noteFrame cfg utc f) := by
  unfold noteFrame
  split
  · rename_i seqIn hseq
    simp only [hseq, Option.toList_none, List.append_nil]
    constructor <;> rfl
  · rename_i seqIn beginSeq hseq
    simp only [hseq, Option.toList_some]
    exact sameReceiver_send _ _ _

variable (cfg utc) in
lemma dispatch_eq (e : FixExecutor) (f : Bytes) :
    SameReceiver { e with seqIn := if scanTag f 35 = ascii "4" then 0 else e.seqIn }
      (e.dispatch cfg utc f) := by
  by_cases hreset : scanTag f 35 = ascii "4"
  · have heq : e.dispatch cfg utc f = { e with seqIn := 0 } := by
      unfold dispatch
      rw [if_neg (by rw [hreset]; decide), if_neg (by rw [hreset]; decide), if_pos hreset]
    rw [if_pos hreset, heq]
    exact .refl _
  · rw [if_neg hreset]
    show SameReceiver e (e.dispatch cfg utc f)
    unfold dispatch
    split
    · exact sameReceiver_onExecutionReport e f
    · split
      · exact sameReceiver_send _ _ _
      · exact .refl e

variable (cfg utc) in
/-- What `handle_frame` does to the receive state. -/
lemma handleFrame_eq (e : FixExecutor) (f : Bytes) :
    SameReceiver
      { e with
        handled := e.handled ++ [f]
        seqIn := seqAfter e.seqIn f
        resends := e.resends ++ (noteSeq e.seqIn f).2.toList } (e.handleFrame cfg utc f) := by
  have hnote := ({ e with lastRecvMs := e.nowMs, handled := e.handled ++ [f] } :
    FixExecutor).noteFrame_eq cfg utc f
  have hdispatch := (({ e with lastRecvMs := e.nowMs, handled := e.handled ++ [f] } :
    FixExecutor).noteFrame cfg utc f).dispatch_eq cfg utc f
  refine ⟨hdispatch.inbound.trans hnote.inbound, ?_, hdispatch.handled.trans hnote.handled,
    hdispatch.resends.trans hnote.resends, hdispatch.heard.trans hnote.heard,
    hdispatch.session.trans hnote.session, hdispatch.reads.trans hnote.reads,
    hdispatch.halted.trans hnote.halted, hdispatch.stage.trans hnote.stage⟩
  rw [show (e.handleFrame cfg utc f).seqIn = _ from hdispatch.seqIn]
  show (if _ then _ else _) = if _ then _ else _
  rw [hnote.seqIn]

/-! ## A step -/

/-- The step leaves the receive state alone, starts no session and wakes none that is stopped. -/
structure Quiet (e e' : FixExecutor) : Prop where
  inbound : e'.inbound = e.inbound
  seqIn : e'.seqIn = e.seqIn
  handled : e'.handled = e.handled
  resends : e'.resends = e.resends
  heard : e'.heard = e.heard
  session : e'.session = e.session
  reads : e'.dataReads = e.dataReads
  parsing : e'.stage = .parsing ↔ e.stage = .parsing
  going : e'.serving = true → e'.halted = false → e.serving = true ∧ e.halted = false

inductive ReceiveStep (cfg : Config) (utc : Nat → String) (e : FixExecutor) : FixExecutor → Prop where
  | quiet {e' : FixExecutor} (same : Quiet e e') : ReceiveStep cfg utc e e'
  | opened : ReceiveStep cfg utc e (e.startSession cfg utc)
  | received (bytes : Bytes) :
      ReceiveStep cfg utc e
        (({ e with reads := e.reads - 1 } : FixExecutor).post (.read (.data e.session bytes)))
  | read (stream : Nat) (bytes : Bytes) (rest : List Handler) (stage : e.stage = .running)
      (next : e.handlers = .read (.data stream bytes) :: rest) :
      ReceiveStep cfg utc e ((e.dequeue rest).onRead (.data stream bytes))
  | parse (stage : e.stage = .parsing) : ReceiveStep cfg utc e (e.parse cfg utc)

lemma serving_congr (h : e'.stage = e.stage) : e'.serving = e.serving := by
  unfold serving
  rw [h]

lemma SameReceiver.quiet (h : SameReceiver e e') : Quiet e e' := by
  refine ⟨h.inbound, h.seqIn, h.handled, h.resends, h.heard, h.session, h.reads, by rw [h.stage], ?_⟩
  intro hserving hgoing
  rw [← serving_congr h.stage, ← h.halted]
  exact ⟨hserving, hgoing⟩

/-- A move between two stages other than the rounds of `process_inbound`. -/
lemma SameReceiver.quiet_stage (h : SameReceiver e e') {stage : Stage} (hstage : stage ≠ .parsing)
    (hwas : e.stage ≠ .parsing)
    (hgoing : ({ e' with stage := stage } : FixExecutor).serving = true → e.serving = true) :
    Quiet e { e' with stage := stage } := by
  refine ⟨h.inbound, h.seqIn, h.handled, h.resends, h.heard, h.session, h.reads, ?_, ?_⟩
  · exact ⟨fun h => absurd h hstage, fun h => absurd h hwas⟩
  · intro hserving hgo
    exact ⟨hgoing hserving, h.halted.symm.trans hgo⟩

lemma sameReceiver_post {h : Handler} (hh : readsOf [h] = []) : SameReceiver e (e.post h) :=
  ⟨rfl, rfl, rfl, rfl, rfl, rfl, dataReads_post hh, rfl, rfl⟩

lemma dataReads_dequeue {h : Handler} {rest : List Handler} (hnext : e.handlers = h :: rest) :
    e.dataReads = readsOf [h] ++ (e.dequeue rest).dataReads := by
  unfold dataReads
  rw [hnext, ← List.singleton_append, readsOf_append]
  rfl

lemma sameReceiver_dequeue {h : Handler} {rest : List Handler} (hnext : e.handlers = h :: rest)
    (hh : readsOf [h] = []) : SameReceiver e (e.dequeue rest) := by
  refine ⟨rfl, rfl, rfl, rfl, rfl, rfl, ?_, rfl, rfl⟩
  rw [dataReads_dequeue hnext, hh, List.nil_append]

lemma handle_receiveStep {h : Handler} {rest : List Handler} (hstage : e.stage = .running)
    (hnext : e.handlers = h :: rest) : ReceiveStep cfg utc e ((e.dequeue rest).handle cfg utc h) := by
  cases h with
  | drain =>
    exact .quiet ((sameReceiver_dequeue hnext rfl).trans (sameReceiver_drainOrders _)).quiet
  | logout =>
    exact .quiet ((sameReceiver_dequeue hnext rfl).trans (sameReceiver_onLogout _)).quiet
  | wrote ok =>
    exact .quiet ((sameReceiver_dequeue hnext rfl).trans (sameReceiver_onWrote _ ok)).quiet
  | timer aborted =>
    exact .quiet ((sameReceiver_dequeue hnext rfl).trans (sameReceiver_onTimer _ aborted)).quiet
  | read outcome =>
    cases outcome with
    | data stream bytes => exact .read stream bytes rest hstage hnext
    | aborted => exact .quiet (sameReceiver_dequeue hnext rfl).quiet
    | failed =>
      apply ReceiveStep.quiet
      apply SameReceiver.quiet
      apply (sameReceiver_dequeue hnext rfl).trans
      constructor <;> rfl

lemma leave_quiet (hstage : e.stage = .running) : Quiet e e.leave := by
  refine ⟨rfl, rfl, rfl, rfl, rfl, rfl, ?_, ?_, ?_⟩
  · have haborted : readsOf (List.replicate e.reads (.read .aborted)) = [] := by
      simp [readsOf]
    have hfailed : readsOf (List.replicate e.writes (.wrote false)) = [] := by
      simp [readsOf]
    show readsOf (e.handlers ++ _ ++ _) = readsOf e.handlers
    rw [readsOf_append, readsOf_append, haborted, hfailed, List.append_nil, List.append_nil]
  · simp [leave, hstage]
  · simp [leave, serving]

/-- Something else is done and a handler posted that brings no bytes. -/
lemma receiveStep_post {d : FixExecutor} {h : Handler} (hsame : SameReceiver e d) (hh : readsOf [h] = []) :
    ReceiveStep cfg utc e (d.post h) :=
  .quiet (hsame.trans (sameReceiver_post hh)).quiet

theorem step_receiveStep {a : Action} (hs : e.step cfg utc a = some e') : ReceiveStep cfg utc e e' := by
  cases step_moves hs with
  | started => exact .quiet (SameReceiver.refl e).quiet
  | start stage =>
    apply ReceiveStep.quiet
    exact ⟨rfl, rfl, rfl, rfl, rfl, rfl, rfl, by simp [stage], by simp [serving]⟩
  | stop =>
    apply ReceiveStep.quiet
    unfold stop
    split
    · exact (SameReceiver.refl e).quiet
    · refine ⟨rfl, rfl, rfl, rfl, rfl, rfl, rfl, Iff.rfl, ?_⟩
      intro _ hgoing
      cases hgoing
  | stopPost => exact receiveStep_post (by constructor <;> rfl) rfl
  | join stage =>
    apply ReceiveStep.quiet
    have hsame := sameReceiver_cancelTimer { e with joining := false, stage := .unstarted }
    refine ⟨hsame.inbound, hsame.seqIn, hsame.handled, hsame.resends, hsame.heard, hsame.session,
      hsame.reads, ?_, ?_⟩
    · rw [show e.join.stage = .unstarted from hsame.stage]
      rcases stage with h | h <;> simp [h]
    · rw [show e.join.serving = _ from serving_congr hsame.stage]
      simp [serving]
  | execute call =>
    apply ReceiveStep.quiet
    apply SameReceiver.quiet
    unfold execute
    split
    · exact .refl e
    · split <;> constructor <;> rfl
  | post => exact receiveStep_post (by constructor <;> rfl) rfl
  | wait ms =>
    apply ReceiveStep.quiet
    apply SameReceiver.quiet
    constructor <;> rfl
  | loop stage =>
    apply ReceiveStep.quiet
    unfold loopTest
    cases e.halted with
    | false => exact (SameReceiver.refl e).quiet_stage (by simp) (by simp [stage]) (by simp [serving])
    | true => exact (SameReceiver.refl e).quiet_stage (by simp) (by simp [stage]) (by simp [serving])
  | connected stage => exact .opened
  | connectFailed result threw failed stage =>
    apply ReceiveStep.quiet
    have hsame : SameReceiver e { e with stream := !threw } := by
      constructor <;> rfl
    exact hsame.quiet_stage (by simp) (by simp [stage]) (by simp [serving])
  | retry untilMs stage =>
    apply ReceiveStep.quiet
    have hsame : SameReceiver e { e with wake := false } := by
      constructor <;> rfl
    exact hsame.quiet_stage (by simp) (by simp [stage]) (by simp [serving])
  | drain stage =>
    apply ReceiveStep.quiet
    exact (sameReceiver_drainOrders e).quiet_stage (by simp) (by simp [stage]) (by simp [serving, stage])
  | listen stage =>
    apply ReceiveStep.quiet
    have hclock : SameReceiver e { e with lastRecvMs := e.nowMs } := by
      constructor <;> rfl
    exact (hclock.trans (sameReceiver_startRead _)).quiet_stage (by simp) (by simp [stage])
      (by simp [serving, stage])
  | arm stage =>
    apply ReceiveStep.quiet
    exact (sameReceiver_startHbTimer e).quiet_stage (by simp) (by simp [stage]) (by simp [serving, stage])
  | handle h rest stage going next => exact handle_receiveStep stage next
  | parse stage => exact .parse stage
  | leave stage ended => exact .quiet (leave_quiet stage)
  | wrote ok writes => exact receiveStep_post (by constructor <;> rfl) rfl
  | received bytes reads => exact .received bytes
  | readFailed reads => exact receiveStep_post (by constructor <;> rfl) rfl
  | expire dueMs timer => exact receiveStep_post (by constructor <;> rfl) rfl

end FixExecutor

end LatencyArb
