import LatencyArb.Fix.Framing
import LatencyArb.Library.Numeral

/-!
# Messages that are built, framed and scanned

What `build_msg` writes is what the splitter cuts, whatever stands in the header; `scan_tag` reads the
fields back as long as no value breaks them.
-/

namespace LatencyArb

namespace Fix

/-- `build_msg` with the header values it is given. -/
def buildMsgOf (msgType sender target : Bytes) (body : Message) (seq : Nat) (sendingTime : Bytes) :
    Message :=
  let hdr : Message := [(35, msgType), (49, sender), (56, target), (34, ascii (toString seq)),
    (52, sendingTime)]
  let blen := (Message.bytes (hdr ++ body)).length
  let msg : Message := [(8, ascii "FIX.4.4"), (9, ascii (toString blen))] ++ hdr ++ body
  let sum := (msg.bytes.map UInt8.toNat).sum
  msg ++ [(10, ascii (padLeft 3 (toString (sum % 256))))]

/-- The messages of the executor are among these. -/
theorem buildMsg_eq (cfg : Config) (msgType : Char) (body : Message) (seq : Nat) (sendingTime : String) :
    buildMsg cfg msgType body seq sendingTime =
      buildMsgOf (ascii (String.singleton msgType)) (ascii cfg.fixSenderCompId)
        (ascii cfg.fixTargetCompId) body seq (ascii sendingTime) := rfl

/-- The tags are those of an `int` and no value has a SOH. -/
def Message.Plain (m : Message) : Prop := ∀ field ∈ m, field.1 < 2 ^ 31 ∧ soh ∉ field.2

/-- A call of `build_msg`. -/
structure MsgCall where
  msgType : UInt8
  sender : Bytes
  target : Bytes
  body : Message
  seq : Nat
  sendingTime : Bytes
  plain : body.Plain
  short : (Message.bytes ([(35, [msgType]), (49, sender), (56, target), (34, ascii (toString seq)),
    (52, sendingTime)] ++ body)).length ≤ kMaxMsgLen

namespace MsgCall

def hdr (c : MsgCall) : Message :=
  [(35, [c.msgType]), (49, c.sender), (56, c.target), (34, ascii (toString c.seq)), (52, c.sendingTime)]

def message (c : MsgCall) : Message :=
  buildMsgOf [c.msgType] c.sender c.target c.body c.seq c.sendingTime

end MsgCall

/-! ## Numbers as the scanner reads them -/

lemma toString_isDigits (n : Nat) : isDigits (ascii (toString n)) = true ∧
    digitsValue (ascii (toString n)) = n := Numeral.toString_digits n

lemma atol_toString {n : Nat} (h : n < 2 ^ 63) : atol (ascii (toString n)) = n := by
  unfold atol
  rw [(toString_isDigits n).2]
  omega

lemma atoi_toString {n : Nat} (h : n < 2 ^ 31) : atoi (ascii (toString n)) = n := by
  unfold atoi
  rw [atol_toString (by omega), Int.bmod_eq_of_le (by omega) (by omega)]

lemma not_mem_toString {c : UInt8} (hc : Numeral.isDigit c = false) (n : Nat) :
    c ∉ ascii (toString n) := by
  intro hmem
  have hdigit := (Numeral.isDigits_iff.mp (toString_isDigits n).1).2 c hmem
  rw [hc] at hdigit
  cases hdigit

/-! ## The scanner on built fields -/

/-- One field is read, up to the first SOH after its `=`. -/
lemma scanTagFuel_step {field tag : Nat} {v rest : Bytes} (hfield : field < 2 ^ 31) (hv : soh ∉ v)
    (fuel : Nat) :
    scanTagFuel (fuel + 1) (ascii (toString field) ++ (61 :: (v ++ soh :: rest))) tag =
      if field = tag then v else scanTagFuel fuel rest tag := by
  have heq : findSub (ascii "=") (ascii (toString field) ++ (61 :: (v ++ soh :: rest))) =
      some (ascii (toString field)).length :=
    findSub_singleton_append (not_mem_toString rfl field) _
  have hsoh : findSub [soh] (v ++ soh :: rest) = some v.length := findSub_singleton_append hv rest
  have htake : (ascii (toString field) ++ (61 :: (v ++ soh :: rest))).take
      (ascii (toString field)).length = ascii (toString field) := List.take_left
  have hdrop : (ascii (toString field) ++ (61 :: (v ++ soh :: rest))).drop
      ((ascii (toString field)).length + 1) = v ++ soh :: rest := by
    rw [← List.drop_drop, List.drop_left]
    rfl
  simp only [scanTagFuel, heq, htake, hdrop, hsoh, List.take_left, (toString_isDigits field).1,
    atoi_toString hfield, Bool.true_and, decide_eq_true_eq, Int.natCast_inj]
  rw [← List.drop_drop, List.drop_left]
  rfl

lemma fixField_append (field : Nat) (v rest : Bytes) :
    fixField field v ++ rest = ascii (toString field) ++ (61 :: (v ++ soh :: rest)) := by
  unfold fixField
  rw [List.append_assoc, List.append_assoc, List.append_assoc]
  rfl

lemma Message.bytes_append (m m' : Message) : Message.bytes (m ++ m') = m.bytes ++ m'.bytes :=
  List.flatMap_append

lemma Message.length_le_bytes (m : Message) : m.length ≤ m.bytes.length := by
  induction m with
  | nil => exact Nat.zero_le _
  | cons field m ih =>
    have hfield : 1 ≤ (fixField field.1 field.2).length := by
      unfold fixField
      rw [List.length_append, List.length_singleton]
      omega
    show _ ≤ (fixField field.1 field.2 ++ Message.bytes m).length
    rw [List.length_cons, List.length_append]
    omega

/-- The scanner passes over fields that are not broken. -/
lemma scanTagFuel_plain {m : Message} (hm : m.Plain) (fuel tag : Nat) (rest : Bytes) :
    scanTagFuel (fuel + m.length) (m.bytes ++ rest) tag =
      (m.value tag).getD (scanTagFuel fuel rest tag) := by
  induction m with
  | nil => rfl
  | cons field m ih =>
    obtain ⟨htag, hvalue⟩ := hm field List.mem_cons_self
    have hrest : Message.Plain m := fun f hf => hm f (List.mem_cons_of_mem field hf)
    have hbytes : Message.bytes (field :: m) ++ rest =
        ascii (toString field.1) ++ (61 :: (field.2 ++ soh :: (Message.bytes m ++ rest))) := by
      rw [← fixField_append, ← List.append_assoc]
      rfl
    rw [hbytes, List.length_cons, ← Nat.add_assoc, scanTagFuel_step htag hvalue, ih hrest]
    unfold Message.value
    rw [List.lookup_cons]
    by_cases hsame : field.1 = tag
    · simp [hsame]
    · have hne : (tag == field.1) = false := by simpa using fun h => hsame h.symm
      rw [if_neg hsame, hne]

lemma scanTag_plain {m : Message} (hm : m.Plain) (tag : Nat) :
    scanTag m.bytes tag = (m.value tag).getD [] := by
  obtain ⟨fuel, hfuel⟩ := Nat.exists_eq_add_of_le m.length_le_bytes
  have hscan := scanTagFuel_plain hm fuel tag []
  have hnil : scanTagFuel fuel [] tag = [] := by
    cases fuel with
    | zero => rfl
    | succ fuel => rfl
  rw [List.append_nil, hnil, Nat.add_comm, ← hfuel] at hscan
  exact hscan

lemma value_append_of_not_mem {pre rest : Message} {tag : Nat} (h : tag ∉ pre.map Prod.fst) :
    Message.value (pre ++ rest) tag = rest.value tag := by
  have hnone : List.lookup tag pre = none := by
    rw [List.lookup_eq_none_iff]
    intro field hfield
    have hne : field.1 ≠ tag := fun heq => h (List.mem_map.mpr ⟨field, hfield, heq⟩)
    simpa using hne.symm
  unfold Message.value
  rw [List.lookup_append, hnone, Option.none_or]

/-- Of the first field of a tag only what stands before its first SOH is read. -/
lemma scanTag_broken {pre rest : Message} {tag : Nat} {w more : Bytes} (hpre : pre.Plain)
    (hnew : tag ∉ pre.map Prod.fst) (htag : tag < 2 ^ 31) (hw : soh ∉ w) :
    scanTag (Message.bytes (pre ++ (tag, w ++ soh :: more) :: rest)) tag = w := by
  have hbytes : Message.bytes (pre ++ (tag, w ++ soh :: more) :: rest) =
      pre.bytes ++ (ascii (toString tag) ++ (61 :: (w ++ soh :: (more ++ soh :: Message.bytes rest)))) := by
    rw [Message.bytes_append]
    show _ ++ (fixField tag (w ++ soh :: more) ++ Message.bytes rest) = _
    rw [fixField_append, List.append_assoc, List.cons_append]
  have hlength : pre.length + 1 ≤ (Message.bytes (pre ++ (tag, w ++ soh :: more) :: rest)).length := by
    have hpre := pre.length_le_bytes
    rw [hbytes, List.length_append, List.length_append, List.length_cons]
    omega
  obtain ⟨fuel, hfuel⟩ := Nat.exists_eq_add_of_le hlength
  have hnone : pre.value tag = none := by
    have happend : Message.value (pre ++ []) tag = _ := value_append_of_not_mem hnew
    rwa [List.append_nil] at happend
  unfold scanTag
  rw [hfuel, hbytes, Nat.add_comm _ fuel, Nat.add_comm pre.length, ← Nat.add_assoc,
    scanTagFuel_plain hpre, hnone, Option.getD_none, scanTagFuel_step htag hw, if_pos rfl]

/-- A message is scanned right only if the fields with new tags are not broken. -/
lemma plain_of_scanTag {m pre mid rest : Message} (hm : m = pre ++ mid ++ rest) (hpre : pre.Plain)
    (hnew : ((pre ++ mid).map Prod.fst).Nodup) (htags : ∀ field ∈ mid, field.1 < 2 ^ 31)
    (hscan : ∀ tag, scanTag m.bytes tag = (m.value tag).getD []) : mid.Plain := by
  induction mid generalizing pre with
  | nil =>
    intro field hfield
    cases hfield
  | cons field mid ih =>
    obtain ⟨tag, v⟩ := field
    have htag : tag < 2 ^ 31 := htags (tag, v) List.mem_cons_self
    have hfirst : tag ∉ pre.map Prod.fst := by
      rw [List.map_append, List.nodup_append] at hnew
      intro hmem
      exact hnew.2.2 tag hmem tag (by simp) rfl
    have hvalue : m.value tag = some v := by
      rw [hm, List.append_assoc, value_append_of_not_mem hfirst]
      simp [Message.value]
    have hv : soh ∉ v := by
      intro hmem
      obtain ⟨w, more, rfl, hw⟩ := List.eq_append_cons_of_mem hmem
      have hread := hscan tag
      rw [hvalue, hm, List.append_assoc, List.cons_append, scanTag_broken hpre hfirst htag hw] at hread
      have hlength := congrArg List.length hread
      simp at hlength
    have hpre' : Message.Plain (pre ++ [(tag, v)]) := by
      intro field hfield
      rcases List.mem_append.mp hfield with hold | hlast
      · exact hpre field hold
      · rw [List.mem_singleton.mp hlast]
        exact ⟨htag, hv⟩
    have hrest : Message.Plain mid := by
      apply ih _ hpre'
      · simpa using hnew
      · exact fun field hfield => htags field (List.mem_cons_of_mem _ hfield)
      · simpa using hm
    intro field hfield
    rcases List.mem_cons.mp hfield with rfl | hfield
    · exact ⟨htag, hv⟩
    · exact hrest field hfield

/-! ## The splitter on built messages -/

namespace MsgCall

/-- What BodyLength counts. -/
def content (c : MsgCall) : Bytes := Message.bytes (c.hdr ++ c.body)

def lengthText (c : MsgCall) : Bytes := ascii (toString c.content.length)

def checksum (c : MsgCall) : Nat :=
  ((Message.bytes ([(8, ascii "FIX.4.4"), (9, c.lengthText)] ++ c.hdr ++ c.body)).map UInt8.toNat).sum % 256

def trailer (c : MsgCall) : Message := [(10, ascii (padLeft 3 (toString c.checksum)))]

variable (c : MsgCall)

lemma message_eq :
    c.message = [(8, ascii "FIX.4.4"), (9, c.lengthText)] ++ c.hdr ++ c.body ++ c.trailer := rfl

lemma checksum_digits :
    isDigits (ascii (padLeft 3 (toString c.checksum))) = true ∧
      (ascii (padLeft 3 (toString c.checksum))).length = 3 := by
  have hlt : c.checksum < 10 ^ 3 := (Nat.mod_lt _ (by omega)).trans (by omega)
  obtain ⟨hdigits, -, hlength⟩ := Numeral.padLeft_digits (by omega : 0 < 3) hlt
  exact ⟨hdigits, hlength⟩

lemma trailer_length : c.trailer.bytes.length = 7 := by
  have htag : (ascii (toString 10) ++ ascii "=").length = 3 := by decide +kernel
  show (fixField 10 _ ++ []).length = 7
  unfold fixField
  rw [List.append_nil, List.length_append, List.length_append, htag, c.checksum_digits.2]
  rfl

/-- The text of a message: the header, the BodyLength, what it counts, and the trailer. -/
lemma bytes_eq :
    c.message.bytes = (header ++ lengthTag) ++ (c.lengthText ++ soh :: (c.content ++ c.trailer.bytes)) := by
  have hbegin : fixField 8 (ascii "FIX.4.4") = header := by decide +kernel
  have htag : ascii (toString 9) ++ ascii "=" = lengthTag := by decide +kernel
  have hlength : fixField 9 c.lengthText = lengthTag ++ (c.lengthText ++ [soh]) := by
    unfold fixField
    rw [htag, List.append_assoc]
  rw [message_eq, List.append_assoc, List.append_assoc, ← List.append_assoc c.hdr, Message.bytes_append,
    Message.bytes_append]
  show (fixField 8 _ ++ (fixField 9 _ ++ [])) ++ _ = _
  rw [hbegin, hlength, List.append_nil]
  simp [content]

lemma lengthText_valid : validLength c.lengthText = true ∧ atol c.lengthText = c.content.length := by
  have hshort : c.content.length ≤ kMaxMsgLen := c.short
  have hmax : kMaxMsgLen < 2 ^ 63 := by decide
  have hatol : atol c.lengthText = c.content.length := atol_toString (by omega)
  refine ⟨?_, hatol⟩
  unfold validLength
  rw [hatol, Bool.and_eq_true]
  exact ⟨(toString_isDigits _).1, decide_eq_true hshort⟩

/-- The scan of a buffer that starts with a message gives the message. -/
lemma scan_bytes (rest : Bytes) : scan (c.message.bytes ++ rest) = .item c.message.bytes rest := by
  have hbytes : c.message.bytes ++ rest =
      (header ++ lengthTag) ++ (c.lengthText ++ soh :: (c.content ++ c.trailer.bytes ++ rest)) := by
    rw [c.bytes_eq]
    simp
  have hheader : header <+: c.message.bytes ++ rest := by
    rw [hbytes, List.append_assoc]
    exact List.prefix_append _ _
  have hlengthTag : findSub lengthTag (c.message.bytes ++ rest) = some 10 := by
    have hfirst : findSub lengthTag (header ++ lengthTag) = some 10 := by decide +kernel
    rw [hbytes]
    exact findSub_append hfirst _
  have hdrop : (c.message.bytes ++ rest).drop (10 + 2) =
      c.lengthText ++ soh :: (c.content ++ c.trailer.bytes ++ rest) := by
    rw [hbytes]
    exact List.drop_left' (by decide +kernel)
  have hsoh : findSub [soh] (c.lengthText ++ soh :: (c.content ++ c.trailer.bytes ++ rest)) =
      some c.lengthText.length := by
    apply findSub_singleton_append
    exact not_mem_toString rfl _
  obtain ⟨hvalid, hatol⟩ := c.lengthText_valid
  have htotal : c.message.bytes.length = 10 + 2 + c.lengthText.length + 1 + c.content.length + 7 := by
    have hfront : (header ++ lengthTag).length = 12 := by decide +kernel
    rw [c.bytes_eq, List.length_append, hfront, List.length_append, List.length_cons, List.length_append,
      c.trailer_length]
    omega
  rw [scan_of_header hheader]
  simp only [scanFrame, hlengthTag, hdrop, hsoh, List.take_left, hvalid, hatol, ← htotal,
    Bool.not_true, Bool.false_eq_true, if_false, List.drop_left]
  rw [if_neg]
  rw [List.length_append]
  omega

lemma hdr_tags : ∀ field ∈ c.hdr, field.1 < 2 ^ 31 := by
  intro field hfield
  simp only [hdr, List.mem_cons, List.not_mem_nil, or_false] at hfield
  rcases hfield with rfl | rfl | rfl | rfl | rfl <;> norm_num

lemma front_plain : Message.Plain [(8, ascii "FIX.4.4"), (9, c.lengthText)] := by
  intro field hfield
  simp only [List.mem_cons, List.not_mem_nil, or_false] at hfield
  rcases hfield with rfl | rfl
  · exact ⟨by norm_num, by decide +kernel⟩
  · exact ⟨by norm_num, not_mem_toString rfl _⟩

lemma trailer_plain : c.trailer.Plain := by
  intro field hfield
  rw [List.mem_singleton.mp hfield]
  refine ⟨by norm_num, ?_⟩
  intro hmem
  have hdigit := (Numeral.isDigits_iff.mp c.checksum_digits.1).2 soh hmem
  cases hdigit

/-- The scanner reads every field of the message right exactly when no header value has a SOH. -/
lemma scanTag_iff :
    (∀ tag, scanTag c.message.bytes tag = (c.message.value tag).getD []) ↔
      ∀ field ∈ c.hdr, soh ∉ field.2 := by
  constructor
  · intro hscan field hfield
    have hparts : c.message =
        [(8, ascii "FIX.4.4"), (9, c.lengthText)] ++ c.hdr ++ (c.body ++ c.trailer) := by
      rw [message_eq, List.append_assoc _ c.body]
    have hplain := plain_of_scanTag hparts c.front_plain (by simp [hdr]) c.hdr_tags hscan
    exact (hplain field hfield).2
  · intro hheader
    have hplain : c.message.Plain := by
      intro field hfield
      rw [message_eq] at hfield
      rcases List.mem_append.mp hfield with hfield | hfield
      · rcases List.mem_append.mp hfield with hfield | hfield
        · rcases List.mem_append.mp hfield with hfield | hfield
          · exact c.front_plain field hfield
          · exact ⟨c.hdr_tags field hfield, hheader field hfield⟩
        · exact c.plain field hfield
      · exact c.trailer_plain field hfield
    exact scanTag_plain hplain

end MsgCall

/-- The items of a concatenation of messages are the messages. -/
lemma split_messages (calls : List MsgCall) :
    splitter.split (calls.map (fun c => c.message.bytes)).flatten =
      (calls.map (fun c => c.message.bytes), []) := by
  induction calls with
  | nil => exact Splitter.split_wait (S := splitter) rfl
  | cons c calls ih =>
    have hitem : splitter.scan (c.message.bytes ++ (calls.map (fun c => c.message.bytes)).flatten) = _ :=
      c.scan_bytes _
    rw [List.map_cons, List.flatten_cons, Splitter.split_item hitem, ih]

end Fix

open LatencyArb.Fix

namespace FixExecutor

/-- However a concatenation of messages is cut into reads, the messages are handled, whole, once each and
in order; each is scanned right exactly when no header value has a SOH. -/
theorem framing_round_trip (cfg : Config) (utc : Nat → String) {e : FixExecutor}
    (hrunning : e.halted = false) (hempty : e.inbound = []) (calls : List MsgCall) {reads : List Bytes}
    (hreads : reads.flatten = (calls.map (fun c => c.message.bytes)).flatten) :
    ∃ t, e.onReads cfg utc reads = some t ∧ t.inbound = [] ∧
      t.handled = e.handled ++ calls.map (fun c => c.message.bytes) ∧
      ∀ c ∈ calls,
        ((∀ tag, scanTag c.message.bytes tag = (c.message.value tag).getD []) ↔
          ∀ field ∈ c.hdr, soh ∉ field.2) := by
  obtain ⟨t, ht, -, hfed⟩ := onReads_feed cfg utc hrunning reads
  have hsettled : splitter.split [] = ([], []) := split_messages []
  rw [hempty, splitter.foldl_feed hsettled, List.nil_append, hreads, split_messages] at hfed
  obtain ⟨hhandled, hinbound⟩ := Prod.mk.inj hfed
  exact ⟨t, ht, hinbound, hhandled, fun c _ => c.scanTag_iff⟩

/-- A message with a text and the sender it is given. -/
def textCall (sender : Bytes) (h : (Message.bytes ([(35, [53]), (49, sender), (56, ascii "cServer"),
    (34, ascii (toString 1)), (52, [])] ++ [(58, ascii "bye")])).length ≤ kMaxMsgLen) : MsgCall where
  msgType := 53
  sender := sender
  target := ascii "cServer"
  body := [(58, ascii "bye")]
  seq := 1
  sendingTime := []
  plain := by
    unfold Message.Plain
    decide +kernel
  short := h

def logoutCall : MsgCall := textCall (ascii "demo") (by decide +kernel)

/-- The sender has a SOH. -/
def brokenCall : MsgCall := textCall (ascii "de" ++ [soh] ++ ascii "mo") (by decide +kernel)

theorem two_logouts_handled :
    ∃ t, onReads {} (fun _ => "") { running := true }
        [logoutCall.message.bytes.take 30, logoutCall.message.bytes.drop 30 ++ logoutCall.message.bytes] =
          some t ∧ t.inbound = [] ∧
      t.handled = [] ++ [logoutCall, logoutCall].map (fun c => c.message.bytes) ∧
      ∀ c ∈ [logoutCall, logoutCall],
        ((∀ tag, scanTag c.message.bytes tag = (c.message.value tag).getD []) ↔
          ∀ field ∈ c.hdr, soh ∉ field.2) := by
  have hreads : [logoutCall.message.bytes.take 30,
      logoutCall.message.bytes.drop 30 ++ logoutCall.message.bytes].flatten =
        ([logoutCall, logoutCall].map (fun c => c.message.bytes)).flatten := by
    simp [← List.append_assoc]
  exact framing_round_trip {} (fun _ => "") rfl rfl [logoutCall, logoutCall] hreads

/-- Of a sender with a SOH only the part before it is read, and the target is not found. -/
theorem sender_with_soh_misread :
    brokenCall.message.value 49 = some (ascii "de" ++ [soh] ++ ascii "mo") ∧
    scanTag brokenCall.message.bytes 49 = ascii "de" ∧
    brokenCall.message.value 56 = some (ascii "cServer") ∧
    scanTag brokenCall.message.bytes 56 = [] ∧
    ¬∀ (c : MsgCall) (tag : Nat), scanTag c.message.bytes tag = (c.message.value tag).getD [] := by
  have hread : scanTag brokenCall.message.bytes 49 ≠ (brokenCall.message.value 49).getD [] := by
    decide +kernel
  refine ⟨by decide +kernel, by decide +kernel, by decide +kernel, by decide +kernel, ?_⟩
  intro hscan
  exact hread (hscan brokenCall 49)

end FixExecutor

end LatencyArb
