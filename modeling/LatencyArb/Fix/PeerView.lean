import LatencyArb.Fix.RoundTrip
import LatencyArb.Fix.WriteOrder
import LatencyArb.Library.GeneralFormat

/-!
# What the peer reads

The bytes of a stream are the frames handed to `async_write`, one behind the other, and the network delivers a
front of them in pieces. A receiver that frames its input as `process_inbound` does has handled, at any time,
the frames that have arrived whole.
-/

namespace LatencyArb

namespace Fix

/-- No value of the configuration and no time stamp has a SOH. -/
structure CleanInputs (cfg : Config) (utc : Nat → String) : Prop where
  sender : soh ∉ ascii cfg.fixSenderCompId
  target : soh ∉ ascii cfg.fixTargetCompId
  account : soh ∉ ascii cfg.fixAccountId
  password : soh ∉ ascii cfg.fixPassword
  time : ∀ n, soh ∉ ascii (utc n)

/-- The same of an order. -/
def OrderJob.Clean (job : OrderJob) : Prop := soh ∉ ascii job.instrument ∧ soh ∉ ascii job.clOrdId

/-- The same of the arguments of `execute`. -/
def Action.Clean : Action → Prop
  | .execute call => soh ∉ ascii call.instrument
  | _ => True

/-- A frame that `build_msg` makes of values without a SOH. -/
def Message.Built (m : Message) : Prop :=
  ∃ (msgType : UInt8) (sender target : Bytes) (body : Message) (seq : Nat) (time : Bytes),
    m = buildMsgOf [msgType] sender target body seq time ∧ m.Plain

/-! ## The values of the fields -/

lemma soh_notMem_fixedPoint {places : Nat} (hplaces : 0 < places) (x : ℚ) : soh ∉ ascii (fixedPoint places x) := by
  have htext : ascii (fixedPoint places x) = (Numeral.fixedDecimal places hplaces x).text :=
    (Numeral.fixedDecimal_text hplaces x).symm
  rw [htext]
  exact Numeral.Decimal.notMem_text _ (by decide) (by decide)

lemma ascii_append (s t : String) : ascii (s ++ t) = ascii s ++ ascii t := Numeral.bytesOf_append s t

lemma soh_notMem_trimZeros {text : String} (h : soh ∉ ascii text) : soh ∉ ascii (trimZeros text) := by
  obtain ⟨rest, hrest⟩ := Numeral.trimZeros_prefix text
  intro hmem
  apply h
  rw [← hrest, ascii_append]
  exact List.mem_append_left _ hmem

lemma soh_notMem_append {s t : String} (hs : soh ∉ ascii s) (ht : soh ∉ ascii t) : soh ∉ ascii (s ++ t) := by
  rw [ascii_append]
  exact List.not_mem_append hs ht

lemma soh_notMem_padLeft (width n : Nat) : soh ∉ ascii (padLeft width (toString n)) := by
  intro hmem
  rw [Numeral.padLeft_toString] at hmem
  have hdigit := (Numeral.bytesOf_digits (Numeral.isDigit_padded width n)).1 soh hmem
  cases hdigit

lemma soh_notMem_fmtQty (q : ℚ) : soh ∉ fmtQty q := by
  have hbody : ∀ (exponent : ℤ) (d d' : ℚ), soh ∉ ascii (if exponent < -4 ∨ 5 < exponent then
      trimZeros (fixedPoint 5 d) ++ (if exponent < 0 then "e-" else "e+") ++ padLeft 2 (toString exponent.natAbs)
        else trimZeros (fixedPoint 9 d')) := by
    intro exponent d d'
    split
    · refine soh_notMem_append (soh_notMem_append ?_ ?_) (soh_notMem_padLeft _ _)
      · exact soh_notMem_trimZeros (soh_notMem_fixedPoint (by decide) _)
      · split <;> decide +kernel
    · exact soh_notMem_trimZeros (soh_notMem_fixedPoint (by decide) _)
  unfold fmtQty generalFormat
  split
  · decide +kernel
  · dsimp only
    split
    · exact soh_notMem_append (by decide +kernel) (hbody _ _ _)
    · exact hbody _ _ _

/-! ## The messages -/

lemma plain_append {m m' : Message} (h : m.Plain) (h' : m'.Plain) : Message.Plain (m ++ m') := by
  intro field hfield
  obtain hfield | hfield := List.mem_append.mp hfield
  · exact h field hfield
  · exact h' field hfield

lemma plain_nil : Message.Plain [] := by
  intro field hfield
  cases hfield

lemma plain_cons {tag : Nat} {v : Bytes} {m : Message} (htag : tag < 2 ^ 31) (hv : soh ∉ v) (h : m.Plain) :
    Message.Plain ((tag, v) :: m) :=
  List.forall_mem_cons.mpr ⟨⟨htag, hv⟩, h⟩

lemma plain_singleton {tag : Nat} {v : Bytes} (htag : tag < 2 ^ 31) (hv : soh ∉ v) :
    Message.Plain [(tag, v)] := plain_cons htag hv plain_nil

/-- `build_msg` adds no SOH to those that end its fields. -/
lemma buildMsgOf_plain {msgType : UInt8} {sender target time : Bytes} {body : Message} (seq : Nat)
    (htype : msgType ≠ soh) (hsender : soh ∉ sender) (htarget : soh ∉ target) (hbody : body.Plain)
    (htime : soh ∉ time) : (buildMsgOf [msgType] sender target body seq time).Plain := by
  have hnumber : ∀ n : Nat, soh ∉ ascii (toString n) := not_mem_toString (by decide)
  have hmsgType : soh ∉ [msgType] := fun hmem => htype (List.mem_singleton.mp hmem).symm
  have hfront : ∀ n : Nat, Message.Plain [(8, ascii "FIX.4.4"), (9, ascii (toString n))] := by
    intro n
    exact plain_cons (by norm_num) (by decide +kernel) (plain_singleton (by norm_num) (hnumber n))
  have hhdr : Message.Plain [(35, [msgType]), (49, sender), (56, target), (34, ascii (toString seq)), (52, time)] :=
    plain_cons (by norm_num) hmsgType <| plain_cons (by norm_num) hsender <|
      plain_cons (by norm_num) htarget <| plain_cons (by norm_num) (hnumber seq) <|
        plain_singleton (by norm_num) htime
  unfold buildMsgOf
  exact plain_append (plain_append (plain_append (hfront _) hhdr) hbody)
    (plain_singleton (by norm_num) (soh_notMem_padLeft _ _))

lemma built_of_body {cfg : Config} {utc : Nat → String} (h : CleanInputs cfg utc) (c : Char) (b : UInt8)
    (htype : ascii (String.singleton c) = [b]) (hb : b ≠ soh) {body : Message} (hbody : body.Plain) (seq n : Nat) :
    (buildMsg cfg c body seq (utc n)).Built := by
  refine ⟨b, ascii cfg.fixSenderCompId, ascii cfg.fixTargetCompId, body, seq, ascii (utc n), ?_, ?_⟩
  · rw [buildMsg_eq, htype]
  · rw [buildMsg_eq, htype]
    exact buildMsgOf_plain seq hb h.sender h.target hbody (h.time n)

variable {cfg : Config} {utc : Nat → String}

lemma soh_notMem_toString (n : ℤ) : soh ∉ ascii (toString n) := by
  have htext : ascii (toString n) = (Numeral.IntNumeral.ofInt n).text := (Numeral.IntNumeral.ofInt_text n).symm
  rw [htext]
  exact Numeral.IntNumeral.notMem_text _ (by decide) (by decide)

lemma buildLogon_built (h : CleanInputs cfg utc) (seq n : Nat) : (buildLogon cfg seq (utc n)).Built := by
  have hbeat := soh_notMem_toString (if 0 < cfg.fixHeartbeatS then cfg.fixHeartbeatS else 30)
  refine built_of_body h 'A' 65 (by decide +kernel) (by decide) ?_ seq n
  exact plain_cons (by norm_num) (by decide +kernel) <| plain_cons (by norm_num) hbeat <|
    plain_cons (by norm_num) (by decide +kernel) <| plain_cons (by norm_num) h.account <|
      plain_singleton (by norm_num) h.password

lemma buildHeartbeat_built (h : CleanInputs cfg utc) {testReqId : Bytes} (hid : soh ∉ testReqId) (seq n : Nat) :
    (buildHeartbeat cfg testReqId seq (utc n)).Built := by
  refine built_of_body h '0' 48 (by decide +kernel) (by decide) ?_ seq n
  split
  · exact plain_nil
  · exact plain_singleton (by norm_num) hid

lemma buildResendRequest_built (h : CleanInputs cfg utc) (beginSeq seq n : Nat) :
    (buildResendRequest cfg beginSeq seq (utc n)).Built := by
  refine built_of_body h '3' 51 (by decide +kernel) (by decide) ?_ seq n
  exact plain_cons (by norm_num) (not_mem_toString (by decide) _) <|
    plain_singleton (by norm_num) (by decide +kernel)

lemma buildOrder_built (h : CleanInputs cfg utc) {job : OrderJob} (hjob : job.Clean) (m seq n : Nat) :
    (buildOrder cfg job (utc m) seq (utc n)).Built := by
  have hprice : ∀ (tag : Nat) (price : ℚ), tag < 2 ^ 31 →
      Message.Plain (if 0 < price then [(tag, ascii (fixedPoint 5 price))] else []) := by
    intro tag price htag
    split
    · exact plain_singleton htag (soh_notMem_fixedPoint (by decide) price)
    · exact plain_nil
  have hside : soh ∉ ascii (if job.side = "buy" then "1" else "2") := by split <;> decide +kernel
  refine built_of_body h 'D' 68 (by decide +kernel) (by decide) ?_ seq n
  refine plain_append (plain_append ?_ (hprice 99 _ (by norm_num))) (hprice 100 _ (by norm_num))
  exact plain_cons (by norm_num) hjob.2 <| plain_cons (by norm_num) h.account <|
    plain_cons (by norm_num) hjob.1 <| plain_cons (by norm_num) hside <|
      plain_cons (by norm_num) (soh_notMem_fmtQty _) <| plain_cons (by norm_num) (by decide +kernel) <|
        plain_cons (by norm_num) (by decide +kernel) <| plain_singleton (by norm_num) (h.time m)

/-- What the scanner reads ends before a SOH. -/
lemma soh_notMem_scanTag (f : Bytes) (tag : Nat) : soh ∉ scanTag f tag := by
  have hfuel : ∀ (fuel : Nat) (text : Bytes), soh ∉ scanTagFuel fuel text tag := by
    intro fuel
    induction fuel with
    | zero => exact fun _ => List.not_mem_nil
    | succ fuel ih =>
      intro text
      simp only [scanTagFuel]
      split
      · exact List.not_mem_nil
      · split
        · rename_i hnone
          split
          · intro hmem
            obtain ⟨i, hi⟩ := findSub_singleton_some hmem
            rw [hnone] at hi
            cases hi
          · exact List.not_mem_nil
        · rename_i hsome
          split
          · exact notMem_take_of_findSub hsome
          · exact ih _
  exact hfuel f.length f

/-! ## What the splitter makes of them -/

/-- A message that is built is cut as it is, up to the length that the receiver accepts. -/
lemma Message.Built.delimited {m : Message} (h : m.Built) (hshort : m.bytes.length ≤ kMaxMsgLen) :
    splitter.Delimited m.bytes := by
  obtain ⟨msgType, sender, target, body, seq, time, rfl, hplain⟩ := h
  have hbody : body.Plain := by
    intro field hfield
    apply hplain
    exact List.mem_append_left _ (List.mem_append_right _ hfield)
  have hcontent : (Message.bytes ([(35, [msgType]), (49, sender), (56, target), (34, ascii (toString seq)),
      (52, time)] ++ body)).length ≤ kMaxMsgLen := by
    refine le_trans ?_ hshort
    unfold buildMsgOf
    dsimp only
    rw [List.append_assoc _ _ body, Message.bytes_append _ [(10, _)], Message.bytes_append _ (_ ++ body),
      List.length_append, List.length_append]
    omega
  exact (⟨msgType, sender, target, body, seq, time, hbody, hcontent⟩ : MsgCall).scan_bytes

lemma Message.Built.scanTag_eq {m : Message} (h : m.Built) (tag : Nat) :
    scanTag m.bytes tag = (m.value tag).getD [] := by
  obtain ⟨-, -, -, -, -, -, -, hplain⟩ := h
  exact scanTag_plain hplain tag

/-- Of the messages, sent one behind the other, `k` have arrived whole with the first `n` bytes. -/
def ArrivedWhole (messages : List Bytes) (n k : Nat) : Prop :=
  (messages.take k).flatten.length ≤ n ∧
    (k < messages.length → n < (messages.take (k + 1)).flatten.length)

end Fix

open LatencyArb.Fix

namespace FixExecutor

/-- The bytes of the frames handed to `async_write` on a stream. -/
def framesOn (e : FixExecutor) (stream : Nat) : List Bytes := (e.handedOn stream).map (fun f => f.message.bytes)

/-! ## The frames of a run -/

/-- The orders that wait have clean values, and every frame given to `io_write` is built of such. -/
structure CleanInv (e : FixExecutor) : Prop where
  orders : ∀ job ∈ e.orders, job.Clean
  queued : ∀ f ∈ e.queued, f.message.Built

variable {cfg : Config} {utc : Nat → String} {e e' : FixExecutor}

lemma CleanInv.of_same (h : e.CleanInv) (horders : e'.orders = e.orders) (hqueued : e'.queued = e.queued) :
    e'.CleanInv := by
  constructor
  · rw [horders]
    exact h.orders
  · rw [hqueued]
    exact h.queued

lemma CleanInv.pumpWrite (h : e.CleanInv) : e.pumpWrite.CleanInv := by
  unfold FixExecutor.pumpWrite
  split
  · exact h
  · split
    · exact h
    · exact h.of_same rfl rfl

lemma CleanInv.ioWrite (h : e.CleanInv) {f : Outgoing} (hf : f.message.Built) : (e.ioWrite f).CleanInv := by
  apply CleanInv.pumpWrite
  refine ⟨h.orders, ?_⟩
  intro g hg
  obtain hold | hnew := List.mem_append.mp hg
  · exact h.queued g hold
  · rw [List.mem_singleton.mp hnew]
    exact hf

lemma CleanInv.send (h : e.CleanInv) {build : Nat → String → Message} (job : Option OrderJob)
    (hbuild : ∀ seq n, (build seq (utc n)).Built) : (e.send utc build job).CleanInv := by
  apply CleanInv.ioWrite
  · exact h.of_same rfl rfl
  · exact hbuild _ _

lemma CleanInv.sendOrder (hinputs : CleanInputs cfg utc) (h : e.CleanInv) {job : OrderJob} (hjob : job.Clean) :
    (e.sendOrder cfg utc job).CleanInv := by
  apply CleanInv.send
  · exact h.of_same rfl rfl
  · exact fun seq n => buildOrder_built hinputs hjob _ seq n

lemma CleanInv.drainOrders (hinputs : CleanInputs cfg utc) (h : e.CleanInv) :
    (e.drainOrders cfg utc).CleanInv := by
  unfold FixExecutor.drainOrders
  split
  · exact h
  · have hstart : ({ e with orders := [] } : FixExecutor).CleanInv := ⟨by simp, h.queued⟩
    have hjobs := h.orders
    generalize ({ e with orders := [] } : FixExecutor) = d at hstart
    generalize e.orders = jobs at hjobs
    induction jobs generalizing d with
    | nil => exact hstart
    | cons job jobs ih =>
      apply ih _ (hstart.sendOrder hinputs (hjobs job List.mem_cons_self))
      intro j hj
      exact hjobs j (List.mem_cons_of_mem job hj)

lemma newJob_clean {call : OrderCall} (hcall : soh ∉ ascii call.instrument) : (e.newJob call).Clean :=
  ⟨hcall, soh_notMem_append (by decide +kernel) (not_mem_toString (by decide) _)⟩

lemma CleanInv.execute (h : e.CleanInv) {call : OrderCall} (hcall : soh ∉ ascii call.instrument) :
    (e.execute call).CleanInv := by
  unfold FixExecutor.execute
  split
  · exact h
  · split
    · exact h.of_same rfl rfl
    · refine ⟨?_, h.queued⟩
      intro job hjob
      obtain hold | hnew := List.mem_append.mp hjob
      · exact h.orders job hold
      · rw [List.mem_singleton.mp hnew]
        exact newJob_clean hcall

lemma CleanInv.cancelTimer (h : e.CleanInv) : e.cancelTimer.CleanInv := by
  unfold FixExecutor.cancelTimer
  split <;> exact h.of_same rfl rfl

lemma CleanInv.startHbTimer (h : e.CleanInv) : (e.startHbTimer cfg).CleanInv := by
  unfold FixExecutor.startHbTimer
  split
  · exact h
  · exact h.cancelTimer.of_same rfl rfl

lemma CleanInv.startRead (h : e.CleanInv) : e.startRead.CleanInv := by
  unfold FixExecutor.startRead
  split <;> exact h.of_same rfl rfl

lemma CleanInv.readAgain (h : e.CleanInv) : e.readAgain.CleanInv := h.startRead.of_same rfl rfl

lemma CleanInv.onExecutionReport (h : e.CleanInv) (f : Bytes) : (e.onExecutionReport f).CleanInv := by
  unfold FixExecutor.onExecutionReport
  split
  · exact h
  · split
    · exact h
    · split <;> exact h.of_same rfl rfl

/-- A Heartbeat answers with what the scanner has read of the frame. -/
lemma CleanInv.handleFrame (hinputs : CleanInputs cfg utc) (h : e.CleanInv) (f : Bytes) :
    (e.handleFrame cfg utc f).CleanInv := by
  have hnoted : (({ e with lastRecvMs := e.nowMs, handled := e.handled ++ [f] } :
      FixExecutor).noteFrame cfg utc f).CleanInv := by
    unfold noteFrame
    split
    · exact h.of_same rfl rfl
    · apply CleanInv.send
      · exact h.of_same rfl rfl
      · exact fun seq n => buildResendRequest_built hinputs _ seq n
  unfold FixExecutor.handleFrame dispatch
  split
  · exact hnoted.onExecutionReport f
  · split
    · exact hnoted.send _ fun seq n => buildHeartbeat_built hinputs (soh_notMem_scanTag f 112) seq n
    · split
      · exact hnoted.of_same rfl rfl
      · exact hnoted

lemma CleanInv.parse (hinputs : CleanInputs cfg utc) (h : e.CleanInv) : (e.parse cfg utc).CleanInv := by
  have hcut : ∀ rest : Bytes, ({ e with inbound := rest } : FixExecutor).CleanInv :=
    fun rest => h.of_same rfl rfl
  unfold FixExecutor.parse
  split
  · exact (hcut _).readAgain
  · exact hcut _
  · rename_i f rest _
    simp only
    split
    · exact ((hcut rest).handleFrame hinputs f).readAgain
    · exact (hcut rest).handleFrame hinputs f

lemma CleanInv.onTimer (hinputs : CleanInputs cfg utc) (h : e.CleanInv) (aborted : Bool) :
    (e.onTimer cfg utc aborted).CleanInv := by
  have hbeat : (e.send utc (buildHeartbeat cfg [])).CleanInv :=
    h.send _ fun seq n => buildHeartbeat_built hinputs List.not_mem_nil seq n
  unfold FixExecutor.onTimer
  split
  · exact h
  · split
    · exact h.of_same rfl rfl
    · split
      · exact hbeat.startHbTimer
      · exact h.startHbTimer

lemma CleanInv.onWrote (h : e.CleanInv) (ok : Bool) : (e.onWrote ok).CleanInv := by
  have hpop : e.popWritten.CleanInv := h.of_same rfl rfl
  unfold FixExecutor.onWrote
  split
  · exact hpop.pumpWrite
  · exact hpop.of_same rfl rfl

lemma CleanInv.handle (hinputs : CleanInputs cfg utc) (h : e.CleanInv) (handler : Handler) :
    (e.handle cfg utc handler).CleanInv := by
  cases handler with
  | drain => exact h.drainOrders hinputs
  | logout =>
    show (e.onLogout cfg utc).CleanInv
    unfold onLogout
    split <;> exact h.of_same rfl rfl
  | wrote ok => exact h.onWrote ok
  | read outcome => cases outcome <;> exact h.of_same rfl rfl
  | timer aborted => exact h.onTimer hinputs aborted

lemma CleanInv.step (hinputs : CleanInputs cfg utc) {a : Action} (ha : a.Clean) (h : e.CleanInv)
    (hs : e.step cfg utc a = some e') : e'.CleanInv := by
  cases step_moves hs with
  | stop =>
    unfold stop
    split <;> exact h.of_same rfl rfl
  | join stage =>
    apply CleanInv.cancelTimer
    exact h.of_same rfl rfl
  | execute call => exact h.execute ha
  | connected stage =>
    have hopened : e.opened.CleanInv := h.of_same rfl rfl
    exact (hopened.send none (buildLogon_built hinputs)).of_same rfl rfl
  | drain stage => exact (h.drainOrders hinputs).of_same rfl rfl
  | listen stage =>
    have hclock : ({ e with lastRecvMs := e.nowMs } : FixExecutor).CleanInv := h.of_same rfl rfl
    exact hclock.startRead.of_same rfl rfl
  | arm stage => exact h.startHbTimer.of_same rfl rfl
  | handle handler rest stage going next =>
    apply CleanInv.handle hinputs
    exact h.of_same rfl rfl
  | parse stage => exact h.parse hinputs
  | _ => exact h.of_same rfl rfl

/-- In a run with clean arguments every frame handed to `async_write` is built of clean values. -/
lemma handed_built (hinputs : CleanInputs cfg utc) {run : List Action} (hclean : ∀ a ∈ run, a.Clean)
    (hrun : (machine cfg utc).run (machine cfg utc).init run = some e) (stream : Nat) :
    ∀ f ∈ e.handedOn stream, f.message.Built := by
  have hinv : e.CleanInv := by
    apply (machine cfg utc).invariant_of_always (C := fun _ a _ => a.Clean) _ _ _ hrun
    · exact ⟨by simp [machine], by simp [machine]⟩
    · intro s a t _ hs hstep ha
      exact hs.step hinputs ha hstep
    · intro pre a s t hpre _ _
      exact hclean a (hpre.subset (List.mem_append_right _ (List.mem_singleton_self a)))
  have hwrites : e.WritesInv :=
    (machine cfg utc).invariant init_writesInv (fun _ _ _ _ hI hs => hI.step hs) ⟨run, hrun⟩
  intro f hf
  obtain ⟨handed, hhanded, rfl⟩ := List.mem_map.mp hf
  apply hinv.queued
  exact hwrites.queue.handed_prefix.subset (List.mem_map_of_mem (List.mem_of_mem_filter hhanded))

lemma init_outboundInv : (machine cfg utc).init.OutboundInv := by
  apply OutboundInv.of_outbox
  · exact ⟨⟨rfl, by simp [machine, writeQueue]⟩, rfl, fun _ => inOrder_nil, by simp [machine], by simp [machine]⟩
  · rfl

/-- A receiver that starts with an empty buffer has handled what the splitter cuts of all that has arrived. -/
lemma onReads_split (peerCfg : Config) (peerUtc : Nat → String) {peer : FixExecutor}
    (hrunning : peer.halted = false) (hempty : peer.inbound = []) (reads : List Bytes) :
    ∃ t, peer.onReads peerCfg peerUtc reads = some t ∧
      t.handled = peer.handled ++ (splitter.split reads.flatten).1 := by
  obtain ⟨t, ht, -, hfed⟩ := onReads_feed peerCfg peerUtc hrunning reads
  have hsettled : splitter.split [] = ([], []) := split_messages []
  rw [hempty, splitter.foldl_feed hsettled, List.nil_append] at hfed
  exact ⟨t, ht, (Prod.mk.inj hfed).1⟩

/-- The bytes of the frames handed to `async_write` on a stream, of which a front has arrived in any pieces: in
every run with clean values, where no frame is longer than a receiver accepts, one that frames its input as the
executor does has handled the frames that have arrived whole, unaltered and in order, and reads each field of
each of them as it was written. Where the steps of the run write the frames of their own session only, these
are the Logon and the messages that follow it, numbered without a gap. -/
theorem peer_reads_frames (hinputs : CleanInputs cfg utc) {run : List Action} (hclean : ∀ a ∈ run, a.Clean)
    (hrun : (machine cfg utc).run (machine cfg utc).init run = some e) (stream : Nat)
    (hshort : ∀ f ∈ e.handedOn stream, f.message.bytes.length ≤ kMaxMsgLen)
    (peerCfg : Config) (peerUtc : Nat → String) (peer : FixExecutor) (hrunning : peer.halted = false)
    (hempty : peer.inbound = []) {reads : List Bytes}
    (harrived : reads.flatten <+: (e.framesOn stream).flatten) :
    ∃ t k, peer.onReads peerCfg peerUtc reads = some t ∧
      ArrivedWhole (e.framesOn stream) reads.flatten.length k ∧
      t.handled = peer.handled ++ (e.framesOn stream).take k ∧
      (∀ f ∈ e.handedOn stream, ∀ tag, scanTag f.message.bytes tag = (f.message.value tag).getD []) ∧
      ((machine cfg utc).Always run (fun s a _ => s.writesOwn a = true) →
        InOrder stream ((e.handedOn stream).take k)) := by
  have hbuilt := handed_built hinputs hclean hrun stream
  have hdelimited : ∀ m ∈ e.framesOn stream, splitter.Delimited m := by
    intro m hm
    obtain ⟨f, hf, rfl⟩ := List.mem_map.mp hm
    exact (hbuilt f hf).delimited (hshort f hf)
  obtain ⟨k, -, hitems, hlow, hhigh⟩ := Splitter.split_arrived hdelimited harrived
  obtain ⟨t, ht, hhandled⟩ := onReads_split peerCfg peerUtc hrunning hempty reads
  refine ⟨t, k, ht, ⟨hlow, hhigh⟩, ?_, fun f hf tag => (hbuilt f hf).scanTag_eq tag, ?_⟩
  · rw [hhandled, hitems]
  · intro hown
    have hinv : e.OutboundInv := (machine cfg utc).invariant_of_always init_outboundInv
      (fun s a t' _ hI hs hC => step_outbound hI hs hC) hown hrun
    exact (hinv.outbox.streamsInOrder stream).initial (List.take_prefix k _)

/-- The Logon is written and an order behind it. -/
def logonAndOrder : List Action :=
  [Action.start] ++ sessionUp ++
    [Action.wrote true, .handle, .execute ⟨"XAU/USD", "buy", 1, 0, 0⟩, .post, .handle]

/-- The first hundred and forty bytes of the stream, in two reads. -/
def firstReads (e : FixExecutor) (stream : Nat) : List Bytes :=
  let sent := (e.framesOn stream).flatten
  [sent.take 40, (sent.drop 40).take 100]

lemma firstReads_arrived (e : FixExecutor) (stream : Nat) :
    (e.firstReads stream).flatten <+: (e.framesOn stream).flatten := by
  unfold firstReads
  dsimp only
  generalize (e.framesOn stream).flatten = sent
  have hwhole := (List.prefix_append_right_inj (sent.take 40)).mpr (List.take_prefix 100 (sent.drop 40))
  rw [List.take_append_drop] at hwhole
  simpa using hwhole

theorem peer_reads_frames_orderCut :
    ∃ e t k, (machine {} (fun _ => "")).run (machine {} (fun _ => "")).init logonAndOrder = some e ∧
      (e.handedOn 1).length = 2 ∧
      onReads {} (fun _ => "") { running := true } (e.firstReads 1) = some t ∧
      ArrivedWhole (e.framesOn 1) (e.firstReads 1).flatten.length k ∧
      t.handled = (e.framesOn 1).take k ∧
      (∀ f ∈ e.handedOn 1, ∀ tag, scanTag f.message.bytes tag = (f.message.value tag).getD []) ∧
      InOrder 1 ((e.handedOn 1).take k) := by
  have hframes : ((machine {} (fun _ => "")).run (machine {} (fun _ => "")).init logonAndOrder).map
      (fun e => decide ((e.handedOn 1).length = 2 ∧
        ∀ f ∈ e.handedOn 1, f.message.bytes.length ≤ kMaxMsgLen)) = some true := by decide +kernel
  have hown : (machine {} (fun _ => "")).checks (fun s a => s.writesOwn a) (machine {} (fun _ => "")).init
      logonAndOrder = true := by decide +kernel
  have hinputs : CleanInputs {} (fun _ => "") := by
    constructor
    case time => exact fun _ => List.not_mem_nil
    all_goals decide +kernel
  have hgold : soh ∉ ascii "XAU/USD" := by decide +kernel
  have hclean : ∀ a ∈ logonAndOrder, a.Clean := by
    simpa [logonAndOrder, sessionUp, Action.Clean] using hgold
  obtain ⟨e, hrun, he⟩ := Option.map_eq_some_iff.mp hframes
  obtain ⟨htwo, hshort⟩ := of_decide_eq_true he
  obtain ⟨t, k, ht, harrived, hhandled, hread, horder⟩ :=
    peer_reads_frames hinputs hclean hrun 1 hshort {} (fun _ => "") { running := true } rfl rfl
      (e.firstReads_arrived 1)
  exact ⟨e, t, k, hrun, htwo, ht, harrived, hhandled, hread, horder ((machine _ _).always_of_checks hown)⟩

end FixExecutor

end LatencyArb
