import LatencyArb.Fix.PeerView
import LatencyArb.FixNumbers

/-!
# What the peer of the FIX client reads

The client hands a frame to `send` and closes the socket when `send` takes less than the whole of it. So a
receiver that frames its input as `process_inbound` does has handled, once all that was taken has arrived, the
frames that were taken whole.
-/

namespace LatencyArb

open LatencyArb.Fix

lemma toList_loop (bytes : ByteArray) (i : Nat) (read : List UInt8) :
    ByteArray.toList.loop bytes i read = read.reverse ++ bytes.data.toList.drop i := by
  fun_induction ByteArray.toList.loop bytes i read with
  | case1 i read hlt ih =>
    have hsize : i < bytes.data.toList.length := by simpa using hlt
    have hget : bytes.get! i = bytes.data.toList[i] := by
      show bytes.data[i]! = _
      rw [Array.getElem_toList, getElem!_pos]
    rw [ih, List.reverse_cons, List.append_assoc, List.singleton_append, hget, List.drop_eq_getElem_cons hsize]
  | case2 i read hge =>
    have hsize : bytes.data.toList.length ≤ i := by simpa using hge
    rw [List.drop_eq_nil_of_le hsize, List.append_nil]

lemma toList_toUTF8 (s : String) : s.toUTF8.toList = ascii s := by
  show ByteArray.toList.loop s.toUTF8 0 [] = _
  rw [toList_loop]
  rfl

namespace FixFrame

/-- The fields as bytes. -/
def encoded (frame : FixFrame) : Message := frame.map (fun f => (f.1, ascii f.2))

lemma encoded_append (frame more : FixFrame) : encoded (frame ++ more) = encoded frame ++ encoded more :=
  List.map_append

/-- The text of a frame is that of its fields as bytes. -/
lemma ascii_fixText (frame : FixFrame) : ascii (fixText frame) = (encoded frame).bytes := by
  induction frame with
  | nil => decide +kernel
  | cons field frame ih =>
    have hsoh : ascii "\x01" = [soh] := by decide +kernel
    have hbytes : (encoded (field :: frame)).bytes = fixField field.1 (ascii field.2) ++ (encoded frame).bytes := rfl
    have htext : fixText (field :: frame) = toString field.1 ++ "=" ++ field.2 ++ "\x01" ++ fixText frame := by
      unfold fixText
      rw [List.map_cons, String.join_cons]
    rw [htext, hbytes, ascii_append, ascii_append, ascii_append, ascii_append, ih, hsoh]
    rfl

end FixFrame

/-- `build_fix` of the client is `build_msg` of the executor. -/
lemma encoded_buildFix (c : Char) (body : FixFrame) (sender target : String) (seq : Nat) (time : String) :
    FixFrame.encoded (buildFix c body sender target seq time) =
      buildMsgOf (ascii (String.singleton c)) (ascii sender) (ascii target) (FixFrame.encoded body) seq
        (ascii time) := by
  have hlength : ∀ frame : FixFrame, (fixText frame).utf8ByteSize = (FixFrame.encoded frame).bytes.length := by
    intro frame
    rw [← FixFrame.ascii_fixText]
    rfl
  have hsum : ∀ frame : FixFrame, LatencyArb.checksum (fixText frame) =
      ((FixFrame.encoded frame).bytes.map UInt8.toNat).sum % 256 := by
    intro frame
    rw [checksum, toList_toUTF8, FixFrame.ascii_fixText]
  unfold buildFix buildMsgOf
  dsimp only
  rw [hlength, hsum]
  simp only [FixFrame.encoded_append]
  rfl

/-! ## The frames of the client -/

/-- No value of the configuration that the client writes has a SOH. -/
structure CleanConfig (cfg : Config) : Prop where
  sender : soh ∉ ascii cfg.fixSenderCompId
  target : soh ∉ ascii cfg.fixTargetCompId
  account : soh ∉ ascii cfg.dryRunSymbol

/-- The same of a signal. -/
def Signal.NoSoh (s : Signal) : Prop := soh ∉ ascii s.reason ∧ soh ∉ ascii s.symbol

/-- The same of a call of `send_order` and of the time stamps. -/
def SessionAction.NoSoh : SessionAction → Prop
  | .order s => s.NoSoh
  | .event (.connect _ time) => soh ∉ ascii time
  | .event (.send _ time) => soh ∉ ascii time
  | .event (.beat _ time) => soh ∉ ascii time
  | _ => True

section Frames

variable {cfg : Config} {seq : Int} {time : String}

lemma buildFix_built (h : CleanConfig cfg) (c : Char) (b : UInt8) (htype : ascii (String.singleton c) = [b])
    (hb : b ≠ soh) {body : FixFrame} (hbody : (FixFrame.encoded body).Plain) (hseq : 0 ≤ seq)
    (htime : soh ∉ ascii time) :
    (FixFrame.encoded (buildFix c body cfg.fixSenderCompId cfg.fixTargetCompId seq time)).Built := by
  obtain ⟨n, rfl⟩ := Int.eq_ofNat_of_zero_le hseq
  refine ⟨b, ascii cfg.fixSenderCompId, ascii cfg.fixTargetCompId, FixFrame.encoded body, n, ascii time, ?_, ?_⟩
  · rw [encoded_buildFix, htype]
  · rw [encoded_buildFix, htype]
    exact buildMsgOf_plain n hb h.sender h.target hbody htime

lemma logon_built (h : CleanConfig cfg) (hseq : 0 ≤ seq) (htime : soh ∉ ascii time) :
    (FixFrame.encoded (logon cfg seq time)).Built := by
  refine buildFix_built h 'A' 65 (by decide +kernel) (by decide) ?_ hseq htime
  exact plain_cons (by norm_num) (by decide +kernel) <| plain_cons (by norm_num) (soh_notMem_toString _) <|
    plain_singleton (by norm_num) (by decide +kernel)

lemma heartbeat_built (h : CleanConfig cfg) (hseq : 0 ≤ seq) (htime : soh ∉ ascii time) :
    (FixFrame.encoded (heartbeat cfg seq time)).Built :=
  buildFix_built h '0' 48 (by decide +kernel) (by decide) plain_nil hseq htime

lemma newOrderSingle_built (h : CleanConfig cfg) {s : Signal} (hs : s.NoSoh) (hseq : 0 ≤ seq)
    (htime : soh ∉ ascii time) : (FixFrame.encoded (newOrderSingle cfg s seq time)).Built := by
  have hid : soh ∉ ascii (if s.reason = "" then "LEADLAG" else s.reason) := by
    split
    · decide +kernel
    · exact hs.1
  have hside : soh ∉ ascii (if s.side = .buy then "1" else "2") := by split <;> decide +kernel
  refine buildFix_built h 'D' 68 (by decide +kernel) (by decide) ?_ hseq htime
  exact plain_cons (by norm_num) hid <| plain_cons (by norm_num) hs.2 <| plain_cons (by norm_num) hside <|
    plain_cons (by norm_num) (soh_notMem_toString _) <| plain_cons (by norm_num) (by decide +kernel) <|
      plain_cons (by norm_num) (by decide +kernel) <| plain_cons (by norm_num) h.account <|
        plain_singleton (by norm_num) (soh_notMem_fixedPoint (by decide) _)

end Frames

namespace FixClient

/-- Every frame is built of clean values, and behind one that was taken in part the session has no other. -/
structure StreamInv (c : FixClient) : Prop where
  orders : ∀ s ∈ c.orders ++ c.batch, s.NoSoh
  seq : 0 ≤ c.seqOut
  built : ∀ w ∈ c.written, (FixFrame.encoded w.frame).Built
  past : ∀ w ∈ c.written, w.session ≤ c.session
  whole : c.fdOpen = true → ∀ w ∈ c.written, w.session = c.session → w.complete = true
  cut : c.written.Pairwise (fun w w' => w.session = w'.session → w.complete = true)

variable {cfg : Config} {nowMs : Int} {c c' : FixClient}

lemma StreamInv.keep (h : c.StreamInv) (hwritten : c'.written = c.written) (hsession : c'.session = c.session)
    (hfd : c'.fdOpen = true → c.fdOpen = true) (hseq : c.seqOut ≤ c'.seqOut)
    (horders : ∀ s ∈ c'.orders ++ c'.batch, s.NoSoh) : c'.StreamInv where
  orders := horders
  seq := h.seq.trans hseq
  built := by
    rw [hwritten]
    exact h.built
  past := by
    rw [hwritten, hsession]
    exact h.past
  whole hopen := by
    rw [hwritten, hsession]
    exact h.whole (hfd hopen)
  cut := by
    rw [hwritten]
    exact h.cut

/-- A frame is added on the socket that is open or on a new one. -/
lemma StreamInv.write (h : c.StreamInv) {w : WrittenFrame} (hwritten : c'.written = c.written ++ [w])
    (hsession : w.session = c'.session)
    (hlater : c'.session = c.session ∧ c.fdOpen = true ∨ c'.session = c.session + 1)
    (hbuilt : (FixFrame.encoded w.frame).Built) (hopen : c'.fdOpen = true → w.complete = true)
    (hseq : c.seqOut ≤ c'.seqOut) (horders : ∀ s ∈ c'.orders ++ c'.batch, s.NoSoh) : c'.StreamInv := by
  have hbefore : ∀ x ∈ c.written, x.session = c'.session → x.complete = true := by
    intro x hx hsame
    obtain ⟨hs, hfd⟩ | hs := hlater
    · exact h.whole hfd x hx (hsame.trans hs)
    · have hle := h.past x hx
      omega
  have hcases : ∀ x ∈ c'.written, x ∈ c.written ∨ x = w := by
    intro x hx
    rw [hwritten] at hx
    obtain hold | hnew := List.mem_append.mp hx
    · exact .inl hold
    · exact .inr (List.mem_singleton.mp hnew)
  refine ⟨horders, h.seq.trans hseq, ?_, ?_, ?_, ?_⟩
  · intro x hx
    obtain hold | rfl := hcases x hx
    · exact h.built x hold
    · exact hbuilt
  · intro x hx
    obtain hold | rfl := hcases x hx
    · have hle := h.past x hold
      omega
    · exact hsession.le
  · intro hfd x hx hsame
    obtain hold | rfl := hcases x hx
    · exact hbefore x hold hsame
    · exact hopen hfd
  · rw [hwritten, List.pairwise_append]
    refine ⟨h.cut, List.pairwise_singleton _ _, ?_⟩
    intro x hx y hy hsame
    rw [List.mem_singleton.mp hy] at hsame
    exact hbefore x hx (hsame.trans hsession)

/-- The batch is over. -/
lemma StreamInv.left (h : c.StreamInv) (horders : c'.orders = c.orders) (hbatch : c'.batch = []) :
    ∀ s ∈ c'.orders ++ c'.batch, s.NoSoh := by
  rw [horders, hbatch, List.append_nil]
  exact fun s hs => h.orders s (List.mem_append_left _ hs)

lemma StreamInv.close (h : c.StreamInv) : c.close.StreamInv :=
  h.keep rfl rfl (fun hopen => by cases hopen) le_rfl (h.left rfl rfl)

lemma StreamInv.timeoutCheck (h : c.StreamInv) : (c.timeoutCheck nowMs).StreamInv := by
  unfold FixClient.timeoutCheck
  split
  · exact h.close
  · exact h.keep rfl rfl id le_rfl (h.left rfl rfl)

lemma StreamInv.startSession (h : c.StreamInv) (hcfg : CleanConfig cfg) (sent : Bool) {time : String}
    (htime : soh ∉ ascii time) : (c.startSession cfg nowMs sent time).StreamInv := by
  have hbuilt := logon_built hcfg h.seq htime
  cases sent with
  | true =>
    rw [startSession_sent]
    exact h.write rfl rfl (.inr rfl) hbuilt (fun _ => rfl) le_rfl (h.left rfl rfl)
  | false =>
    rw [startSession_failed]
    exact h.write rfl rfl (.inr rfl) hbuilt (fun hopen => by cases hopen) le_rfl (h.left rfl rfl)

/-- The socket is closed behind a frame that it has not taken whole. -/
lemma StreamInv.sendNext (h : c.StreamInv) (hcfg : CleanConfig cfg) {s : Signal} {rest : List Signal}
    (hphase : c.phase = .sending (s :: rest)) (sent : Bool) {time : String} (htime : soh ∉ ascii time) :
    (c.sendNext cfg s rest sent time).StreamInv := by
  have hbatch : c.batch = s :: rest := by rw [batch, hphase]
  have hs : s.NoSoh := h.orders s (by rw [hbatch]; exact List.mem_append_right _ List.mem_cons_self)
  have hbuilt := newOrderSingle_built hcfg hs h.seq htime
  have hseq : c.seqOut ≤ c.seqOut + 1 := by omega
  by_cases hfd : c.fdOpen = true
  · cases sent with
    | true =>
      rw [sendNext_sent hfd]
      refine h.write rfl rfl (.inl ⟨rfl, hfd⟩) hbuilt (fun _ => rfl) hseq ?_
      intro x hx
      apply h.orders
      rw [hbatch]
      obtain hx | hx := List.mem_append.mp hx
      · exact List.mem_append_left _ hx
      · exact List.mem_append_right _ (List.mem_cons_of_mem s hx)
    | false =>
      rw [sendNext_failed hfd]
      exact h.write rfl rfl (.inl ⟨rfl, hfd⟩) hbuilt (fun hopen => by cases hopen) hseq (h.left rfl rfl)
  · rw [sendNext_closed (Bool.not_eq_true _ ▸ hfd)]
    exact h.keep rfl rfl (fun hopen => by cases hopen) hseq (h.left rfl rfl)

lemma StreamInv.sendHeartbeat (h : c.StreamInv) (hcfg : CleanConfig cfg) (hphase : c.phase = .beat) (sent : Bool)
    {time : String} (htime : soh ∉ ascii time) : (c.sendHeartbeat cfg nowMs sent time).StreamInv := by
  have hbatch : c.batch = [] := by rw [batch, hphase]
  have hbuilt := heartbeat_built hcfg h.seq htime
  have hseq : c.seqOut ≤ c.seqOut + 1 := by omega
  by_cases hdue : c.beatDue nowMs
  · by_cases hfd : c.fdOpen = true
    · cases sent with
      | true =>
        rw [sendHeartbeat_sent hdue hfd]
        apply StreamInv.timeoutCheck
        exact h.write rfl rfl (.inl ⟨rfl, hfd⟩) hbuilt (fun _ => rfl) hseq (h.left rfl hbatch)
      | false =>
        rw [sendHeartbeat_failed hdue hfd]
        exact h.write rfl rfl (.inl ⟨rfl, hfd⟩) hbuilt (fun hopen => by cases hopen) hseq (h.left rfl rfl)
    · rw [sendHeartbeat_closed hdue (Bool.not_eq_true _ ▸ hfd)]
      exact h.keep rfl rfl (fun hopen => by cases hopen) hseq (h.left rfl rfl)
  · rw [sendHeartbeat_idle hdue]
    exact h.timeoutCheck

lemma StreamInv.moves (h : c.StreamInv) (hcfg : CleanConfig cfg) {event : FixEvent}
    (hclean : (SessionAction.event event).NoSoh) (hm : Moves cfg nowMs c event c') : c'.StreamInv := by
  cases hm with
  | attempt phase => exact h.keep rfl rfl id le_rfl (h.left rfl rfl)
  | connectFailed phase => exact h.close
  | connect sent time phase => exact h.startSession hcfg sent hclean
  | swap phase =>
    refine h.keep rfl rfl id le_rfl ?_
    intro s hs
    exact h.orders s (List.mem_append_left _ hs)
  | leave phase => exact h.close
  | drained sent time phase => exact h.keep rfl rfl id le_rfl (h.left rfl rfl)
  | send s rest sent time phase => exact h.sendNext hcfg phase sent hclean
  | beat sent time phase => exact h.sendHeartbeat hcfg phase sent hclean

lemma StreamInv.sendOrder (h : c.StreamInv) {s : Signal} (hs : s.NoSoh) : (c.sendOrder s).StreamInv := by
  refine h.keep rfl rfl id le_rfl ?_
  intro x hx
  obtain hx | hx := List.mem_append.mp hx
  · obtain hx | hx := List.mem_append.mp hx
    · exact h.orders x (List.mem_append_left _ hx)
    · rw [List.mem_singleton.mp hx]
      exact hs
  · exact h.orders x (List.mem_append_right _ hx)

lemma StreamInv.step {s t : FixSession} {a : SessionAction} (h : s.client.StreamInv) (hcfg : CleanConfig cfg)
    (ha : a.NoSoh) (hs : s.step cfg a = some t) : t.client.StreamInv := by
  cases FixSession.step_moves hs with
  | started => exact h
  | start phase => exact h.keep rfl rfl id le_rfl h.orders
  | order order => exact h.sendOrder ha
  | wait ms => exact h
  | data fd => exact h
  | event event client step => exact h.moves hcfg ha step
  | stop => exact h.keep rfl rfl (fun hopen => by cases hopen) le_rfl h.orders

lemma reachable_streamInv (hcfg : CleanConfig cfg) {run : List SessionAction} (hclean : ∀ a ∈ run, a.NoSoh)
    {s : FixSession} (hrun : (FixSession.machine cfg).run (FixSession.machine cfg).init run = some s) :
    s.client.StreamInv := by
  apply (FixSession.machine cfg).invariant_of_always (I := fun s => s.client.StreamInv) (C := fun _ a _ => a.NoSoh)
    _ _ _ hrun
  · constructor <;> simp [FixSession.machine, batch]
  · intro s a t _ h hstep ha
    exact h.step hcfg ha hstep
  · intro pre a s t hpre _ _
    exact hclean a (hpre.subset (List.mem_append_right _ (List.mem_singleton_self a)))

/-! ## What the sockets have taken -/

/-- The frames handed to the socket of a session. -/
def writtenIn (c : FixClient) (session : Nat) : List WrittenFrame :=
  c.written.filter (fun w => decide (w.session = session))

end FixClient

namespace WrittenFrame

/-- The bytes of the frame. -/
def text (w : WrittenFrame) : Bytes := ascii (fixText w.frame)

/-- What `send` has taken of the frame: the whole, or less. -/
def Takes (w : WrittenFrame) (chunk : Bytes) : Prop :=
  if w.complete then chunk = w.text else chunk <+: w.text ∧ chunk ≠ w.text

/-- The texts of the frames taken whole. -/
def wholeTexts (frames : List WrittenFrame) : List Bytes := (frames.filter WrittenFrame.complete).map text

/-- The stream of a session: the frames taken whole, and at most a part of one more behind them. -/
lemma chunks_cases {frames : List WrittenFrame} {chunks : List Bytes} (h : List.Forall₂ Takes frames chunks)
    (hcut : frames.Pairwise (fun w _ => w.complete = true)) :
    (frames.map text = wholeTexts frames ∧ chunks.flatten = (wholeTexts frames).flatten) ∨
      ∃ last part, part <+: last ∧ part ≠ last ∧ frames.map text = wholeTexts frames ++ [last] ∧
        chunks.flatten = (wholeTexts frames).flatten ++ part := by
  induction h with
  | nil => exact .inl ⟨rfl, rfl⟩
  | @cons w chunk frames chunks hchunk hrest ih =>
    obtain ⟨hfirst, hlater⟩ := List.pairwise_cons.mp hcut
    by_cases hw : w.complete = true
    · have hwhole : wholeTexts (w :: frames) = w.text :: wholeTexts frames := by
        unfold wholeTexts
        rw [List.filter_cons_of_pos hw, List.map_cons]
      have htext : chunk = w.text := by
        unfold Takes at hchunk
        rwa [if_pos hw] at hchunk
      rw [hwhole, List.map_cons, List.flatten_cons, List.flatten_cons, htext]
      obtain ⟨htexts, hflat⟩ | ⟨last, part, hpart, hless, htexts, hflat⟩ := ih hlater
      · exact .inl ⟨by rw [htexts], by rw [hflat]⟩
      · refine .inr ⟨last, part, hpart, hless, ?_, ?_⟩
        · rw [htexts, List.cons_append]
        · rw [hflat, List.append_assoc]
    · obtain rfl : frames = [] := by
        cases frames with
        | nil => rfl
        | cons x frames => exact absurd (hfirst x List.mem_cons_self) hw
      cases hrest
      have hwhole : wholeTexts [w] = [] := by
        unfold wholeTexts
        rw [List.filter_cons_of_neg hw]
        rfl
      unfold Takes at hchunk
      rw [if_neg hw] at hchunk
      refine .inr ⟨w.text, chunk, hchunk.1, hchunk.2, ?_, ?_⟩
      · rw [hwhole]
        rfl
      · rw [hwhole]
        simp

end WrittenFrame

namespace FixFrame

lemma encoded_value (frame : FixFrame) (tag : Nat) :
    (encoded frame).value tag = (frame.value tag).map ascii := by
  unfold Message.value FixFrame.value
  induction frame with
  | nil => rfl
  | cons field frame ih =>
    show List.lookup tag ((field.1, ascii field.2) :: encoded frame) = _
    rw [List.lookup_cons, List.lookup_cons, ih]
    split <;> rfl

end FixFrame

namespace FixClient

/-- In every run with clean values, where no frame of a session is longer than a receiver accepts: whatever
part of its last frame the socket has taken, and however a front of what it has taken is cut into reads, a
receiver that frames its input as the executor does has handled the frames taken whole that have arrived,
unaltered and in order, and reads each field of a frame as it was written. -/
theorem peer_reads_taken_frames {cfg : Config} (hcfg : CleanConfig cfg) {run : List SessionAction}
    (hclean : ∀ a ∈ run, a.NoSoh) {s : FixSession}
    (hrun : (FixSession.machine cfg).run (FixSession.machine cfg).init run = some s) (session : Nat)
    (hshort : ∀ w ∈ s.client.writtenIn session, w.text.length ≤ kMaxMsgLen) {chunks : List Bytes}
    (htaken : List.Forall₂ WrittenFrame.Takes (s.client.writtenIn session) chunks)
    (peerCfg : Config) (peerUtc : Nat → String) (peer : FixExecutor) (hrunning : peer.halted = false)
    (hempty : peer.inbound = []) {reads : List Bytes} (harrived : reads.flatten <+: chunks.flatten) :
    ∃ t k, peer.onReads peerCfg peerUtc reads = some t ∧
      ArrivedWhole (WrittenFrame.wholeTexts (s.client.writtenIn session)) reads.flatten.length k ∧
      t.handled = peer.handled ++ (WrittenFrame.wholeTexts (s.client.writtenIn session)).take k ∧
      ∀ w ∈ s.client.writtenIn session, ∀ tag, scanTag w.text tag = ((w.frame.value tag).map ascii).getD [] := by
  have hinv := reachable_streamInv hcfg hclean hrun
  have hbuilt : ∀ w ∈ s.client.writtenIn session, (FixFrame.encoded w.frame).Built :=
    fun w hw => hinv.built w (List.mem_of_mem_filter hw)
  have htext : ∀ w : WrittenFrame, w.text = (FixFrame.encoded w.frame).bytes :=
    fun w => FixFrame.ascii_fixText w.frame
  have hcut : (s.client.writtenIn session).Pairwise (fun w _ => w.complete = true) := by
    refine (hinv.cut.filter _).imp_of_mem ?_
    intro w x hw hx hfirst
    have hsession := of_decide_eq_true (List.mem_filter.mp hw).2
    exact hfirst (hsession.trans (of_decide_eq_true (List.mem_filter.mp hx).2).symm)
  have hdelimited : ∀ m ∈ (s.client.writtenIn session).map WrittenFrame.text, splitter.Delimited m := by
    intro m hm
    obtain ⟨w, hw, rfl⟩ := List.mem_map.mp hm
    have hlength := hshort w hw
    rw [htext] at hlength ⊢
    exact (hbuilt w hw).delimited hlength
  have hread : ∀ w ∈ s.client.writtenIn session, ∀ tag,
      scanTag w.text tag = ((w.frame.value tag).map ascii).getD [] := by
    intro w hw tag
    rw [htext, (hbuilt w hw).scanTag_eq, FixFrame.encoded_value]
  obtain ⟨t, ht, hhandled⟩ := FixExecutor.onReads_split peerCfg peerUtc hrunning hempty reads
  obtain ⟨htexts, hflat⟩ | ⟨last, part, hpart, hless, htexts, hflat⟩ := WrittenFrame.chunks_cases htaken hcut
  · rw [htexts] at hdelimited
    rw [hflat] at harrived
    obtain ⟨k, -, hitems, hlow, hhigh⟩ := Splitter.split_arrived hdelimited harrived
    exact ⟨t, k, ht, ⟨hlow, hhigh⟩, by rw [hhandled, hitems], hread⟩
  · rw [htexts] at hdelimited
    rw [hflat] at harrived
    obtain ⟨k, hitems, hlow, hhigh⟩ := Splitter.split_cut hdelimited hpart hless harrived
    exact ⟨t, k, ht, ⟨hlow, hhigh⟩, by rw [hhandled, hitems], hread⟩

/-- Of the second order the socket takes a part only. -/
def orderTakenInPart : List SessionAction :=
  FixSession.twoInBatch ++ [.event (.send true ""), .event (.send false "")]

/-- Ten bytes of the frame that is taken in part. -/
def tenBytes (w : WrittenFrame) : Bytes := if w.complete then w.text else w.text.take 10

lemma tenBytes_takes {w : WrittenFrame} (h : 10 < w.text.length) : w.Takes (tenBytes w) := by
  unfold WrittenFrame.Takes tenBytes
  split
  · rfl
  · refine ⟨List.take_prefix 10 w.text, ?_⟩
    intro hsame
    have hlength := congrArg List.length hsame
    rw [List.length_take] at hlength
    omega

lemma sampleSignal_noSoh (side : Side) : (FixSession.sampleSignal side).NoSoh := by
  cases side <;> exact ⟨by decide +kernel, by decide +kernel⟩

theorem peer_reads_taken_frames_orderCut :
    ∃ s t k, (FixSession.machine {}).run (FixSession.machine {}).init orderTakenInPart = some s ∧
      (s.client.writtenIn 1).map WrittenFrame.complete = [true, true, false] ∧
      FixExecutor.onReads {} (fun _ => "") { running := true } ((s.client.writtenIn 1).map tenBytes) = some t ∧
      ArrivedWhole (WrittenFrame.wholeTexts (s.client.writtenIn 1))
        ((s.client.writtenIn 1).map tenBytes).flatten.length k ∧
      t.handled = (WrittenFrame.wholeTexts (s.client.writtenIn 1)).take k ∧
      ∀ w ∈ s.client.writtenIn 1, ∀ tag, scanTag w.text tag = ((w.frame.value tag).map ascii).getD [] := by
  have hframes : ((FixSession.machine {}).run (FixSession.machine {}).init orderTakenInPart).map
      (fun s => decide ((s.client.writtenIn 1).map WrittenFrame.complete = [true, true, false] ∧
        ∀ w ∈ s.client.writtenIn 1, 10 < w.text.length ∧ w.text.length ≤ kMaxMsgLen)) = some true := by
    decide +kernel
  have hcfg : CleanConfig {} := by constructor <;> decide +kernel
  have hempty : soh ∉ ascii "" := List.not_mem_nil
  have hclean : ∀ a ∈ orderTakenInPart, a.NoSoh := by
    simpa [orderTakenInPart, FixSession.twoInBatch, SessionAction.NoSoh, sampleSignal_noSoh] using hempty
  obtain ⟨s, hrun, hs⟩ := Option.map_eq_some_iff.mp hframes
  obtain ⟨hthree, hlengths⟩ := of_decide_eq_true hs
  have htaken : List.Forall₂ WrittenFrame.Takes (s.client.writtenIn 1) ((s.client.writtenIn 1).map tenBytes) :=
    List.forall₂_map_right_iff.mpr (List.forall₂_same.mpr fun w hw => tenBytes_takes (hlengths w hw).1)
  obtain ⟨t, k, ht, harrived, hhandled, hread⟩ :=
    peer_reads_taken_frames hcfg hclean hrun 1 (fun w hw => (hlengths w hw).2) htaken {} (fun _ => "")
      { running := true } rfl rfl List.prefix_rfl
  exact ⟨s, t, k, hrun, hthree, ht, harrived, hhandled, hread⟩

end FixClient

end LatencyArb
