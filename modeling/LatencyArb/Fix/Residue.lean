import LatencyArb.Fix.Inbound

/-!
# What a buffer makes of later bytes

A buffer is live where one of its tails is a frame or may still become one. A buffer that is not live
makes no difference, whatever follows; a live one has a continuation that it turns into a frame.
-/

namespace LatencyArb

namespace Fix

/-- What has been read of a BodyLength may still become a valid one. -/
def openLength (text : Bytes) : Bool := text.isEmpty || validLength text

/-- The buffer starts with a frame, or may still do so. -/
def viable (b : Bytes) : Bool :=
  if header.isPrefixOf b then
    match findSub lengthTag b with
    | none => true
    | some p9 =>
      match findSub [soh] (b.drop (p9 + 2)) with
      | none => openLength (b.drop (p9 + 2))
      | some n => validLength ((b.drop (p9 + 2)).take n)
  else !b.isEmpty && b.isPrefixOf header

def live (b : Bytes) : Bool := b.tails.any viable

/-- The frames `process_inbound` cuts from the buffer. -/
def frames (b : Bytes) : List Bytes := (splitter.split b).1

variable {b later : Bytes} {x : UInt8}

lemma live_cons : live (x :: b) = (viable (x :: b) || live b) := by
  simp [live]

lemma frames_of_wait {keep : Bytes} (h : scan b = .wait keep) : frames b = [] := by
  unfold frames
  rw [Splitter.split_wait (S := splitter) h]

lemma frames_of_not_header (h : findSub header b = none) : frames b = [] := by
  have hwait : scan b = .wait (b.drop (b.length - 16)) := by
    simp [scan, h]
  exact frames_of_wait hwait

lemma frames_of_not_mem {c : UInt8} (hc : c ∈ header) (h : c ∉ b) : frames b = [] := by
  apply frames_of_not_header
  match hh : findSub header b with
  | none => rfl
  | some i =>
    have hmem : c ∈ b.drop i := (findSub_spec hh).1.subset hc
    exact absurd (List.mem_of_mem_drop hmem) h

lemma frames_nil : frames [] = [] := frames_of_not_mem soh_mem_header (by simp)

/-- A byte at which no header starts is passed over. -/
lemma frames_cons (h : ¬header <+: x :: b) : frames (x :: b) = frames b := by
  have hfind := findSub_cons h
  match hb : findSub header b with
  | none =>
    rw [hb] at hfind
    rw [frames_of_not_header hb, frames_of_not_header hfind]
  | some i =>
    rw [hb] at hfind
    have hscan : splitter.scan (x :: b) = splitter.scan b := by
      show scan (x :: b) = scan b
      simp [scan, hb, hfind]
    unfold frames
    rw [Splitter.split_congr hscan]

/-- So is a header whose BodyLength is not valid. -/
lemma frames_cons_of_skip (h : header <+: x :: b) (hskip : scanFrame (x :: b) = .skip b) :
    frames (x :: b) = frames b := by
  have hscan : splitter.scan (x :: b) = .skip b := by
    show scan (x :: b) = .skip b
    rw [scan_of_header h, hskip]
  unfold frames
  rw [Splitter.split_skip hscan]

/-! ## What a round of the loop leaves -/

lemma frames_wait_append {keep : Bytes} (h : scan b = .wait keep) (later : Bytes) :
    frames (b ++ later) = frames (keep ++ later) := by
  unfold frames
  rw [Splitter.split_congr (S := splitter) (scan_wait_append h later)]

lemma frames_kept {keep : Bytes} (h : scan b = .wait keep) : frames keep = [] := by
  have hscan := scan_wait_append h []
  rw [List.append_nil, List.append_nil, h] at hscan
  exact frames_of_wait hscan.symm

lemma frames_skip_append {rest : Bytes} (h : scan b = .skip rest) (later : Bytes) :
    frames (b ++ later) = frames (rest ++ later) := by
  unfold frames
  rw [Splitter.split_skip (splitter.skip_append h later)]

lemma frames_item_append {f rest : Bytes} (h : scan b = .item f rest) (later : Bytes) :
    frames (b ++ later) = f :: frames (rest ++ later) := by
  unfold frames
  rw [Splitter.split_item (splitter.item_append h later)]

lemma frames_prefix (b later : Bytes) : frames b <+: frames (b ++ later) := by
  unfold frames
  rw [Splitter.split_append]
  exact List.prefix_append _ _

lemma digitsValue_append (text more : Bytes) : digitsValue text ≤ digitsValue (text ++ more) := by
  unfold digitsValue
  rw [List.foldl_append]
  generalize List.foldl (fun n c => 10 * n + (c.toNat - 48)) 0 text = value
  induction more generalizing value with
  | nil => exact le_rfl
  | cons c more ih =>
    rw [List.foldl_cons]
    exact (by omega : value ≤ 10 * value + (c.toNat - 48)).trans (ih _)

/-- Nothing that follows makes a BodyLength valid again. -/
lemma validLength_of_append {text more : Bytes} (hne : text ≠ [])
    (h : validLength (text ++ more) = true) : validLength text = true := by
  simp only [validLength, isDigits, Bool.and_eq_true, decide_eq_true_eq, List.all_append] at h ⊢
  refine ⟨⟨by simpa using hne, h.1.2.1⟩, ?_⟩
  have hvalue := digitsValue_append text more
  have hle := h.2
  unfold atol at hle ⊢
  omega

/-! ## Buffers that make no difference -/

/-- A BodyLength that is not ended and can no longer be valid: a SOH later on ends it, and without one
nothing more is cut. -/
lemma frames_dead_length (hlater : header <+: x :: (b ++ later)) {p9 : Nat}
    (hp : findSub lengthTag (x :: b) = some p9) (hn : findSub [soh] ((x :: b).drop (p9 + 2)) = none)
    (hdead : openLength ((x :: b).drop (p9 + 2)) = false) :
    (soh ∈ later → frames (x :: b ++ later) = frames (b ++ later)) ∧
      (soh ∉ later → frames (x :: b ++ later) = []) := by
  have hp' : findSub lengthTag (x :: (b ++ later)) = some p9 := findSub_append hp later
  have hdrop : (x :: b ++ later).drop (p9 + 2) = (x :: b).drop (p9 + 2) ++ later :=
    List.drop_append_of_le_length (lengthTag_fits hp)
  rw [List.cons_append] at hdrop
  generalize htext : (x :: b).drop (p9 + 2) = text at hn hdead hdrop
  simp only [openLength, Bool.or_eq_false_iff, List.isEmpty_eq_false_iff] at hdead
  constructor
  · intro hsoh
    obtain ⟨n, hn'⟩ := findSub_singleton_some (List.mem_append_right text hsoh)
    have hlong : text.length ≤ n := Nat.lt_succ_iff.mp (length_lt_of_findSub_append hn hn')
    have hbad : validLength ((text ++ later).take n) = false := by
      rw [List.take_append, List.take_of_length_le hlong, Bool.eq_false_iff]
      intro hvalid
      rw [validLength_of_append hdead.1 hvalid] at hdead
      cases hdead.2
    apply frames_cons_of_skip hlater
    simp only [scanFrame, hp', hdrop, hn', hbad, Bool.not_false, if_true]
    rfl
  · intro hsoh
    have hn' : findSub [soh] (text ++ later) = none := by
      apply findSub_singleton_none
      intro hmem
      rcases List.mem_append.mp hmem with hin | hin
      · obtain ⟨i, hi⟩ := findSub_singleton_some hin
        rw [hn] at hi
        cases hi
      · exact hsoh hin
    have hwait : scan (x :: (b ++ later)) = .wait (x :: (b ++ later)) := by
      rw [scan_of_header hlater]
      simp only [scanFrame, hp', hdrop, hn']
    exact frames_of_wait hwait

/-- A start that cannot become a header does not become one. -/
lemma not_header_append (hdead : viable (x :: b) = false) (hh : ¬header <+: x :: b) (later : Bytes) :
    ¬header <+: x :: (b ++ later) := by
  intro hlater
  rcases List.prefix_or_prefix_of_prefix hlater (List.prefix_append (x :: b) later) with h | h
  · exact hh h
  · have hfalse : header.isPrefixOf (x :: b) = false := by
      rw [Bool.eq_false_iff]
      intro h'
      exact hh (List.isPrefixOf_iff_prefix.mp h')
    simp [viable, hfalse, List.isPrefixOf_iff_prefix.mpr h] at hdead

variable (later) in
/-- A first byte at which no frame can start is passed over, at the latest when a SOH arrives. -/
lemma frames_dead_head (hdead : viable (x :: b) = false) :
    (soh ∈ later → frames (x :: b ++ later) = frames (b ++ later)) ∧
      (soh ∉ later → frames (x :: b ++ later) = [] ∨ frames (x :: b ++ later) = frames (b ++ later)) := by
  by_cases hh : header <+: x :: b
  · have hlater : header <+: x :: (b ++ later) := hh.trans (List.prefix_append (x :: b) later)
    simp only [viable, List.isPrefixOf_iff_prefix.mpr hh, if_true] at hdead
    split at hdead
    · cases hdead
    · rename_i p9 hp
      split at hdead
      · rename_i hn
        obtain ⟨hskip, hnil⟩ := frames_dead_length hlater hp hn hdead
        exact ⟨hskip, fun hsoh => .inl (hnil hsoh)⟩
      · rename_i n hn
        have hskip : frames (x :: (b ++ later)) = frames (b ++ later) := by
          have hp' : findSub lengthTag (x :: (b ++ later)) = some p9 := findSub_append hp later
          obtain ⟨-, hn', htext⟩ := scanFrame_append later hp hn
          apply frames_cons_of_skip hlater
          rw [List.cons_append] at hn' htext
          simp only [scanFrame, hp', hn', htext, hdead, Bool.not_false, if_true]
          rfl
        exact ⟨fun _ => hskip, fun _ => .inr hskip⟩
  · have hpass := frames_cons (not_header_append hdead hh later)
    exact ⟨fun _ => hpass, fun _ => .inr hpass⟩

theorem agree_of_not_live (h : live b = false) : splitter.Agree b [] := by
  induction b with
  | nil => exact Splitter.Agree.refl []
  | cons x b ih =>
    rw [live_cons, Bool.or_eq_false_iff] at h
    have hrest := ih h.2
    intro later
    show frames (x :: b ++ later) = frames later
    have htail : frames (b ++ later) = frames later := hrest later
    obtain ⟨hsoh, hnot⟩ := frames_dead_head later h.1
    by_cases hmem : soh ∈ later
    · exact (hsoh hmem).trans htail
    · rcases hnot hmem with hnil | hpass
      · rw [hnil, frames_of_not_mem soh_mem_header hmem]
      · exact hpass.trans htail

/-! ## Buffers that make one -/

/-- Bytes without a header, and a SOH. -/
def padding (n : Nat) : Bytes := List.replicate n 120 ++ [soh]

lemma soh_mem_padding (n : Nat) : soh ∈ padding n := by simp [padding]

lemma padding_length (n : Nat) : (padding n).length = n + 1 := by simp [padding]

lemma not_mem_padding (n : Nat) : (56 : UInt8) ∉ padding n := by
  simp only [padding, List.mem_append, List.mem_replicate, List.mem_singleton, not_or, not_and]
  exact ⟨fun _ => by decide, by decide⟩

lemma frames_of_complete {p9 n : Nat} (hh : header <+: b) (hp : findSub lengthTag b = some p9)
    (hn : findSub [soh] (b.drop (p9 + 2)) = some n)
    (hvalid : validLength ((b.drop (p9 + 2)).take n) = true)
    (hlen : p9 + 2 + n + 1 + kMaxMsgLen + 7 ≤ b.length) : frames b ≠ [] := by
  have hle : atol ((b.drop (p9 + 2)).take n) ≤ kMaxMsgLen := by
    simp only [validLength, Bool.and_eq_true, decide_eq_true_eq] at hvalid
    exact hvalid.2
  have hscan : splitter.scan b =
      .item (b.take (p9 + 2 + n + 1 + atol ((b.drop (p9 + 2)).take n) + 7))
        (b.drop (p9 + 2 + n + 1 + atol ((b.drop (p9 + 2)).take n) + 7)) := by
    show scan b = _
    rw [scan_of_header hh]
    simp only [scanFrame, hp, hn, hvalid, Bool.not_true, Bool.false_eq_true, if_false]
    exact if_neg (by omega)
  unfold frames
  rw [Splitter.split_item hscan]
  exact List.cons_ne_nil _ _

/-- A header with a BodyLength that may still become valid becomes a frame. -/
lemma open_completes {p9 : Nat} (hh : header <+: b) (hp : findSub lengthTag b = some p9)
    (hn : soh ∉ b.drop (p9 + 2)) (hopen : openLength (b.drop (p9 + 2)) = true) :
    ∃ y, soh ∈ y ∧ (56 : UInt8) ∉ y ∧ frames (b ++ y) ≠ [] := by
  have hfits := lengthTag_fits hp
  generalize htext : b.drop (p9 + 2) = text at hn hopen
  have hlen : b.length = p9 + 2 + text.length := by
    rw [← htext, List.length_drop]
    omega
  obtain ⟨fill, hfill, height, hvalid⟩ : ∃ fill : Bytes,
      soh ∉ fill ∧ (56 : UInt8) ∉ fill ∧ validLength (text ++ fill) = true := by
    by_cases hnil : text = []
    · refine ⟨[48], by decide, by decide, ?_⟩
      rw [hnil]
      decide +kernel
    · refine ⟨[], by simp, by simp, ?_⟩
      simpa [openLength, hnil] using hopen
  obtain ⟨enough, henough⟩ : ∃ n, n = kMaxMsgLen + 7 := ⟨_, rfl⟩
  refine ⟨fill ++ soh :: padding enough, by simp, ?_, ?_⟩
  · simp only [List.mem_append, List.mem_cons, not_or]
    exact ⟨height, by decide, not_mem_padding _⟩
  · have hdrop : (b ++ (fill ++ soh :: padding enough)).drop (p9 + 2) =
        text ++ fill ++ soh :: padding enough := by
      rw [List.drop_append_of_le_length hfits, htext, List.append_assoc]
    have hclean : soh ∉ text ++ fill := by
      rw [List.mem_append]
      exact fun h => h.elim hn hfill
    apply frames_of_complete (hh.trans (List.prefix_append _ _)) (findSub_append hp _)
    · rw [hdrop]
      exact findSub_singleton_append hclean _
    · rw [hdrop, List.take_left]
      exact hvalid
    · simp only [List.length_append, List.length_cons, padding_length]
      omega

/-- A header, whatever precedes its length field, becomes a frame. -/
lemma header_completes (hh : header <+: b) (hp : findSub lengthTag b = none) :
    ∃ y, soh ∈ y ∧ (56 : UInt8) ∉ y ∧ frames (b ++ y) ≠ [] := by
  -- the SOH keeps the last byte apart from the length field
  have hfound : findSub lengthTag (b ++ soh :: lengthTag) = some (b.length + 1) := by
    apply findSub_eq_some
    · rw [show b ++ soh :: lengthTag = (b ++ [soh]) ++ lengthTag by simp, List.drop_left' (by simp)]
    · simp
    · intro j hj hat
      by_cases hin : j + lengthTag.length ≤ b.length
      · exact not_prefix_of_findSub_none hp j (prefix_of_append hat hin)
      · have hmem : soh ∈ lengthTag :=
          mem_of_prefix_drop (i := b.length) hat (by simp) (by omega) (by omega)
        revert hmem
        decide
  have hdrop : (b ++ soh :: lengthTag).drop (b.length + 1 + 2) = [] := by
    have htwo : lengthTag.length = 2 := by decide
    rw [List.drop_eq_nil_iff, List.length_append, List.length_cons, htwo]
  obtain ⟨y, hsoh, height, hframes⟩ := open_completes (b := b ++ soh :: lengthTag)
    (hh.trans (List.prefix_append _ _)) hfound (by simp [hdrop]) (by simp [hdrop, openLength])
  refine ⟨soh :: lengthTag ++ y, by simp, ?_, ?_⟩
  · rw [List.mem_append]
    rintro (h | h)
    · revert h
      decide
    · exact height h
  · rwa [← List.append_assoc]

/-- A buffer that may become a frame does become one. -/
lemma viable_completes (h : viable b = true) :
    ∃ y, soh ∈ y ∧ (56 : UInt8) ∉ y ∧ frames (b ++ y) ≠ [] := by
  unfold viable at h
  split at h
  · rename_i hprefix
    have hh := List.isPrefixOf_iff_prefix.mp hprefix
    split at h
    · exact header_completes hh ‹_›
    · rename_i p9 hp
      split at h
      · rename_i hn
        apply open_completes hh hp _ h
        intro hmem
        obtain ⟨i, hi⟩ := findSub_singleton_some hmem
        rw [hn] at hi
        cases hi
      · rename_i n hn
        have hfits := lengthTag_fits hp
        obtain ⟨enough, henough⟩ : ∃ n, n = kMaxMsgLen + 7 := ⟨_, rfl⟩
        obtain ⟨hp', hn', htext⟩ := scanFrame_append (padding enough) hp hn
        refine ⟨padding enough, soh_mem_padding _, not_mem_padding _, ?_⟩
        apply frames_of_complete (hh.trans (List.prefix_append _ _)) hp' hn'
        · rw [htext]
          exact h
        · have hle := (findSub_spec hn).2.1
          simp only [List.length_drop, List.length_singleton] at hle
          rw [List.length_append, padding_length]
          omega
  · simp only [Bool.and_eq_true, Bool.not_eq_true', List.isEmpty_eq_false_iff] at h
    obtain ⟨more, hmore⟩ := List.isPrefixOf_iff_prefix.mp h.2
    obtain ⟨y, hsoh, height, hframes⟩ := header_completes (List.prefix_refl header) (by decide)
    refine ⟨more ++ y, List.mem_append_right more hsoh, ?_, ?_⟩
    · rw [List.mem_append]
      rintro (hin | hin)
      · have hcount : header.count 56 = 1 := by decide
        have hfirst : b.head? = some 56 := by
          cases b with
          | nil => exact absurd rfl h.1
          | cons x b =>
            rw [List.cons_append] at hmore
            have hhead : (x :: (b ++ more)).head? = header.head? := by rw [hmore]
            exact hhead
        have hb : 0 < b.count 56 := List.count_pos_iff.mpr (List.mem_of_mem_head? hfirst)
        have hm : 0 < more.count 56 := List.count_pos_iff.mpr hin
        rw [← hmore, List.count_append] at hcount
        omega
      · exact height hin
    · rwa [← List.append_assoc, hmore]

lemma live_completes (h : live b = true) :
    ∃ y, soh ∈ y ∧ (56 : UInt8) ∉ y ∧ frames (b ++ y) ≠ [] := by
  induction b with
  | nil => exact absurd h (by decide)
  | cons x b ih =>
    by_cases hv : viable (x :: b) = true
    · exact viable_completes hv
    · rw [live_cons, Bool.or_eq_true] at h
      obtain ⟨y, hsoh, height, hframes⟩ := ih (h.resolve_left hv)
      refine ⟨y, hsoh, height, ?_⟩
      rw [(frames_dead_head y (Bool.not_eq_true _ ▸ hv)).1 hsoh]
      exact hframes

/-- The buffers that make no difference to what follows are the ones that are not live. -/
theorem agree_nil_iff : splitter.Agree b [] ↔ live b = false := by
  constructor
  · intro hagree
    by_contra hlive
    obtain ⟨y, -, height, hframes⟩ := live_completes (Bool.not_eq_false _ ▸ hlive)
    have hy : frames (b ++ y) = frames y := hagree y
    rw [frames_of_not_mem (by decide) height] at hy
    exact hframes hy
  · exact agree_of_not_live

end Fix

end LatencyArb
