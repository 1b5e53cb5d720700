import LatencyArb.Wire.Scanner

/-!
# The signal decoder on memory and on texts

`decode_signal` does with a frame in memory what it does with the text of the frame, whatever stands behind
the frame and in the arrays on the stack.
-/

namespace LatencyArb

open Numeral

namespace Wire

/-! ## Texts in buffers -/

lemma cString_cases (s : List UInt8) : cString s = s ∨ ∃ rest, s = cString s ++ 0 :: rest := by
  induction s with
  | nil => exact .inl rfl
  | cons c s ih =>
    by_cases hc : c = 0
    · exact .inr ⟨s, by simp [cString, hc]⟩
    · have hcons : cString (c :: s) = c :: cString s := List.takeWhile_cons_of_pos (decide_eq_true hc)
      rw [hcons]
      obtain ih | ⟨rest, ih⟩ := ih
      · exact .inl (by rw [ih])
      · exact .inr ⟨rest, congrArg (c :: ·) ih⟩

lemma strtod_cString (s : List UInt8) : strtod (cString s) = strtod s := by
  obtain h | ⟨rest, h⟩ := cString_cases s
  · rw [h]
  · rw [← strtod_nul (cString s) rest, ← h]

lemma atoll_cString (s : List UInt8) : atoll (cString s) = atoll s := by
  obtain h | ⟨rest, h⟩ := cString_cases s
  · rw [h]
  · rw [← atoll_nul (cString s) rest, ← h]

section Ended

variable {size : Nat} {field : List UInt8}

/-- The string in a buffer that has been ended behind a field. -/
lemma cString_ended (h : field.length < size) (buf : Vector UInt8 size) :
    cString ((blit field buf).setIfInBounds field.length 0).toList = cString field := by
  obtain ⟨rest, hrest⟩ := toList_terminated h buf
  rw [hrest]
  exact takeWhile_nul field rest (by decide)

/-- A buffer of zeros has an end behind every field. -/
lemma blit_zeros_ended (h : field.length < size) :
    (blit field (Vector.replicate size 0)).setIfInBounds field.length 0 =
      blit field (Vector.replicate size 0) := by
  have hboth : (field ++ [0]).length ≤ size := by
    rw [List.length_append, List.length_singleton]
    exact h
  obtain ⟨k, hk⟩ : ∃ k, size - field.length = k + 1 := ⟨size - field.length - 1, by omega⟩
  rw [blit_concat h, ← Vector.toList_inj, toList_blit hboth, toList_blit h.le, Vector.toList_replicate,
    List.drop_replicate, List.drop_replicate, List.length_append, List.length_singleton, ← Nat.sub_sub, hk,
    List.replicate_succ, List.append_assoc, List.singleton_append, Nat.add_sub_cancel]

end Ended

/-- The signal as it lies in memory. -/
def ExecSignal.pod (out : ExecSignal) : SignalPod where
  tsMs := out.tsMs
  lead := out.lead
  brokerBid := out.brokerBid
  brokerAsk := out.brokerAsk
  threshold := out.threshold
  edge := out.edge
  side := out.side
  valid := out.valid
  reason := blit out.reason (Vector.replicate 24 0)
  symbol := blit out.symbol (Vector.replicate 16 0)

def ExecSignal.setPrice (out : ExecSignal) (f : PriceField) (v : Double) : ExecSignal :=
  match f with
  | .lead => { out with lead := v }
  | .brokerBid => { out with brokerBid := v }
  | .brokerAsk => { out with brokerAsk := v }
  | .threshold => { out with threshold := v }
  | .edge => { out with edge := v }

namespace FrameScan

/-- The scan has filled in `out`, and `p` is left of the frame. -/
structure At (frame : Nat → UInt8) (len : Nat) (s : FrameScan) (out : ExecSignal) (p : List UInt8) : Prop where
  out_eq : s.out = out.pod
  rest : window frame len s.p = p
  le : s.p ≤ len

variable {frame : Nat → UInt8} {len : Nat} {s : FrameScan} {out : ExecSignal} {p : List UInt8}

lemma At.length (h : At frame len s out p) : p.length = len - s.p := by
  rw [← h.rest, length_window]

lemma At.note (h : At frame len s out p) (a : Access) : At frame len (s.note a) out p :=
  ⟨h.out_eq, h.rest, h.le⟩

lemma At.skip (h : At frame len s out p) {n : Nat} (hn : n ≤ p.length) :
    At frame len (s.skip n) out (p.drop n) where
  out_eq := h.out_eq
  rest := by
    show window frame len (s.p + n) = p.drop n
    rw [← h.rest, drop_window]
  le := by
    have hlength := h.length
    have hle := h.le
    show s.p + n ≤ len
    omega

/-! ## The passages -/

lemma remaining_eq (hlen : len < 2 ^ 64) {n : Nat} (hn : n ≤ len) : remaining len n = len - n := by
  unfold remaining
  omega

lemma At.startsWith (h : At frame len s out p) (lit : List UInt8) :
    At frame len (s.startsWith frame len lit).2 out p := by
  unfold FrameScan.startsWith
  split
  · exact ⟨h.out_eq, h.rest, h.le⟩
  · exact h

lemma startsWith_eq (hlen : len < 2 ^ 64) (h : At frame len s out p) (lit : List UInt8) :
    (s.startsWith frame len lit).1 = lit.isPrefixOf p := by
  have hlength := h.length
  unfold FrameScan.startsWith
  rw [remaining_eq hlen h.le, Bool.eq_iff_iff, List.isPrefixOf_iff_prefix]
  by_cases hfits : lit.length ≤ len - s.p
  · have htake : p.take lit.length = (List.range' s.p lit.length).map frame := by
      rw [← h.rest]
      unfold window
      rw [← List.map_take, List.take_range'_of_length_ge hfits]
    rw [if_pos hfits, List.prefix_iff_eq_take, htake, decide_eq_true_iff, eq_comm]
  · rw [if_neg hfits]
    refine iff_of_false Bool.false_ne_true ?_
    intro hprefix
    have hle := hprefix.length_le
    omega

lemma skipBar_at (h : At frame len s out p) :
    At frame len (s.skipBar frame len) out (if p.head? = some 124 then p.tail else p) := by
  unfold skipBar
  by_cases hp : s.p < len
  · have hcons : p = frame s.p :: window frame len (s.p + 1) := by
      rw [← h.rest, window_cons hp]
    have hskip := (h.note (.read s.p)).skip (n := 1) (by rw [h.length]; omega)
    rw [if_pos hp]
    by_cases hbar : frame s.p = 124
    · have hhead : p.head? = some 124 := by rw [hcons, List.head?_cons, hbar]
      rw [if_pos hbar, if_pos hhead, ← List.drop_one]
      exact hskip
    · have hhead : p.head? ≠ some 124 := by simpa [hcons] using hbar
      rw [if_neg hbar, if_neg hhead]
      exact h.note _
  · have hnil : p = [] := by rw [← h.rest, window_end (not_lt.mp hp)]
    rw [if_neg hp, if_neg (by simp [hnil])]
    exact h

lemma skipTopic_at (hlen : len < 2 ^ 64) (h : At frame len s out p) :
    At frame len (s.skipTopic frame len) out (Wire.skipTopic p) := by
  have hsignal : (bytesOf "signal").length = 6 := by decide +kernel
  unfold skipTopic Wire.skipTopic
  apply skipBar_at
  rw [startsWith_eq hlen h]
  split
  · rename_i hprefix
    have hle := (List.isPrefixOf_iff_prefix.mp hprefix).length_le
    exact (h.startsWith _).skip (by omega)
  · exact h.startsWith _

/-- A passage returns where nothing is read of the text, and else goes on with what is. -/
def Reads {α : Type} (frame : Nat → UInt8) (len : Nat) (r : Bool × FrameScan) (out : ExecSignal) (x : Option α)
    (filled : α → ExecSignal) (left : α → List UInt8) : Prop :=
  (x = none → r.1 = false ∧ r.2.out = out.pod) ∧
    ∀ a, x = some a → r.1 = true ∧ At frame len r.2 (filled a) (left a)

lemma reads_none {α : Type} {r : Bool × FrameScan} {filled : α → ExecSignal} {left : α → List UInt8}
    (hstop : r.1 = false) (hout : r.2.out = out.pod) : Reads frame len r out none filled left :=
  ⟨fun _ => ⟨hstop, hout⟩, nofun⟩

lemma reads_some {α : Type} {r : Bool × FrameScan} {filled : α → ExecSignal} {left : α → List UInt8}
    {a : α} (hgoes : r.1 = true) (hat : At frame len r.2 (filled a) (left a)) :
    Reads frame len r out (some a) filled left := by
  refine ⟨nofun, ?_⟩
  rintro _ ⟨⟩
  exact ⟨hgoes, hat⟩

/-- The scan shows a signal. -/
def Shows (s : FrameScan) (out : ExecSignal) : Prop := s.out = out.pod

lemma Reads.andThen {α : Type} {f g : Passage FrameScan} {x : Option α} {filled : α → ExecSignal}
    {left : α → List UInt8} {k : α → Except ExecSignal ExecSignal}
    (h : Reads frame len (f s) out x filled left)
    (hk : ∀ a t, At frame len t (filled a) (left a) → Passage.Follows Shows (g t) (k a)) :
    Passage.Follows Shows (f.andThen g s) (orReject out x >>= k) := by
  apply Passage.Follows.andThen
  · intro e he
    cases x with
    | none =>
      obtain rfl := Except.error.inj he
      exact h.1 rfl
    | some a => cases he
  · intro a ha
    cases x with
    | none => cases ha
    | some b =>
      obtain rfl := Except.ok.inj ha
      obtain ⟨hgoes, hat⟩ := h.2 _ rfl
      exact ⟨hgoes, hk _ _ hat⟩

lemma At.setSide (h : At frame len s out p) (side : Nat) :
    At frame len (s.setSide side) { out with side := side } p where
  out_eq := by
    show ({ s.out with side := side } : SignalPod) = _
    rw [h.out_eq]
    rfl
  rest := h.rest
  le := h.le

lemma readSide_reads (hlen : len < 2 ^ 64) (h : At frame len s out p) :
    Reads frame len (readSide frame len s) out (Wire.readSide p)
      (fun r => { out with side := r.1 }) Prod.snd := by
  have hbuyLength : (bytesOf "BUY").length = 3 := by decide +kernel
  have hsellLength : (bytesOf "SELL").length = 4 := by decide +kernel
  have hbuy := h.startsWith (bytesOf "BUY")
  unfold readSide Wire.readSide
  dsimp only
  rw [startsWith_eq hlen h, startsWith_eq hlen hbuy]
  by_cases hisBuy : (bytesOf "BUY").isPrefixOf p = true
  · have hle := (List.isPrefixOf_iff_prefix.mp hisBuy).length_le
    rw [if_pos hisBuy, if_pos hisBuy]
    exact reads_some rfl ((hbuy.setSide 1).skip (by omega))
  · rw [if_neg hisBuy, if_neg hisBuy]
    by_cases hisSell : (bytesOf "SELL").isPrefixOf p = true
    · have hle := (List.isPrefixOf_iff_prefix.mp hisSell).length_le
      rw [if_pos hisSell, if_pos hisSell]
      exact reads_some rfl (((hbuy.startsWith _).setSide 2).skip (by omega))
    · rw [if_neg hisSell, if_neg hisSell]
      exact reads_none rfl (hbuy.startsWith _).out_eq

lemma pastComma_reads (h : At frame len s out p) :
    Reads frame len (pastComma frame len s) out (Wire.pastComma p) (fun _ => out) id := by
  unfold pastComma Wire.pastComma
  by_cases hp : len ≤ s.p
  · have hnil : p = [] := by rw [← h.rest, window_end hp]
    rw [if_pos hp, if_neg (by simp [hnil])]
    exact reads_none rfl h.out_eq
  · have hcons : p = frame s.p :: window frame len (s.p + 1) := by
      rw [← h.rest, window_cons (not_le.mp hp)]
    have hskip := (h.note (.read s.p)).skip (n := 1) (by rw [h.length]; omega)
    rw [if_neg hp]
    by_cases hcomma : frame s.p = comma
    · have hhead : p.head? = some comma := by rw [hcons, List.head?_cons, hcomma]
      rw [if_neg (not_not.mpr hcomma), if_pos hhead, ← List.drop_one]
      exact reads_some rfl hskip
    · have hhead : p.head? ≠ some comma := by simpa [hcons] using hcomma
      rw [if_pos hcomma, if_neg hhead]
      exact reads_none rfl h.out_eq

/-- A passage followed by one that does not return. -/
lemma Reads.always {α : Type} {f : Passage FrameScan} {g : FrameScan → FrameScan} {x : Option α}
    {filled filled' : α → ExecSignal} {left : α → List UInt8}
    (h : Reads frame len (f s) out x filled left)
    (hg : ∀ a t, At frame len t (filled a) (left a) → At frame len (g t) (filled' a) (left a)) :
    Reads frame len (f.andThen (.always g) s) out x filled' left := by
  unfold Passage.andThen
  constructor
  · intro hnone
    obtain ⟨hstop, hout⟩ := h.1 hnone
    rw [hstop]
    exact ⟨hstop, hout⟩
  · intro a ha
    obtain ⟨hgoes, hat⟩ := h.2 a ha
    rw [hgoes]
    exact ⟨rfl, hg a _ hat⟩

lemma Reads.map {α β : Type} {r : Bool × FrameScan} {x : Option α} {φ : α → β} {filled : β → ExecSignal}
    {left : β → List UInt8} (h : Reads frame len r out x (filled ∘ φ) (left ∘ φ)) :
    Reads frame len r out (x.map φ) filled left := by
  cases x with
  | none =>
    obtain ⟨hstop, hout⟩ := h.1 rfl
    exact reads_none hstop hout
  | some a =>
    obtain ⟨hgoes, hat⟩ := h.2 a rfl
    exact reads_some hgoes hat

section Fields

variable {size : Nat}

/-- The loop copies the field that is read of the text, and goes on behind it. -/
lemma copyField_eq (h : At frame len s out p) (buf : Vector UInt8 size) :
    (s.copyField frame len buf).p = s.p + (readField size p).1.length ∧
      (s.copyField frame len buf).n = (readField size p).1.length ∧
      (s.copyField frame len buf).buf = blit (readField size p).1 buf := by
  have hfield : Copying.field size comma (window frame len s.p) = (readField size p).1 := by
    rw [h.rest]
    rfl
  rw [← hfield]
  exact Copying.run_copies rfl

lemma readField_length (hsize : 0 < size) (p : List UInt8) :
    (readField size p).1.length < size ∧ (readField size p).1.length ≤ p.length := by
  constructor
  · have hle : (readField size p).1.length ≤ size - 1 := List.length_take_le _ _
    omega
  · exact (List.length_take_le' _ _).trans (List.takeWhile_prefix _).length_le

lemma At.copied (h : At frame len s out p) (hsize : 0 < size) (place : Place) (buf : Vector UInt8 size) :
    At frame len (s.copied place (s.copyField frame len buf)) out (readField size p).2 := by
  have hskip := h.skip (readField_length hsize p).2
  refine ⟨h.out_eq, ?_, ?_⟩
  · show window frame len (s.copyField frame len buf).p = p.drop (readField size p).1.length
    rw [(copyField_eq h buf).1]
    exact hskip.rest
  · show (s.copyField frame len buf).p ≤ len
    rw [(copyField_eq h buf).1]
    exact hskip.le

end Fields

lemma At.setReason (h : At frame len s out p) {buf : Vector UInt8 24} {reason : List UInt8}
    (hbuf : buf = blit reason (Vector.replicate 24 0)) :
    At frame len (s.setReason buf) { out with reason := reason } p where
  out_eq := by
    show ({ s.out with reason := buf } : SignalPod) = _
    rw [h.out_eq, hbuf]
    rfl
  rest := h.rest
  le := h.le

/-- The reason is ended where the zeros begin. -/
lemma At.endReason (h : At frame len s out p) (hfits : out.reason.length < 24) :
    At frame len (s.endReason out.reason.length) out p := by
  have hended : s.out.reason.setIfInBounds out.reason.length 0 = blit out.reason (Vector.replicate 24 0) := by
    rw [h.out_eq]
    exact blit_zeros_ended hfits
  exact (h.setReason hended).note _

lemma readReason_reads (h : At frame len s out p) (hempty : out.reason = []) :
    Reads frame len (readReason frame len s) { out with reason := (readField 24 p).1 }
      (Wire.pastComma (readField 24 p).2) (fun _ => { out with reason := (readField 24 p).1 }) id := by
  have hzeros : s.out.reason = Vector.replicate 24 0 := by
    rw [h.out_eq]
    show blit out.reason _ = _
    rw [hempty, blit_nil]
  obtain ⟨-, hn, hbuf⟩ := copyField_eq h s.out.reason
  have hreason : (s.copyField frame len s.out.reason).buf =
      blit (readField 24 p).1 (Vector.replicate 24 0) := by rw [hbuf, hzeros]
  have hcopied := (h.copied (by decide) .reason s.out.reason).setReason hreason
  unfold readReason
  dsimp only
  rw [hn]
  exact (pastComma_reads hcopied).always (fun _ t ht => ht.endReason (readField_length (by decide) p).1)

/-- The string in the digits is read as the field is. -/
lemma At.setPrice (h : At frame len s out p) (f : PriceField) {field : List UInt8} (hfits : field.length < 48)
    (buf : Vector UInt8 48) :
    At frame len (s.setPrice f field.length (blit field buf)) (out.setPrice f (strtod field)) p where
  out_eq := by
    have hpod : (out.setPrice f (strtod field)).pod = out.pod.setPrice f (strtod field) := by
      cases f <;> rfl
    show s.out.setPrice f (strtod (cString ((blit field buf).setIfInBounds field.length 0).toList)) = _
    rw [cString_ended hfits, strtod_cString, h.out_eq, hpod]
  rest := h.rest
  le := h.le

lemma nextNum_reads (h : At frame len s out p) (stack : Stack) (f : PriceField) :
    Reads frame len (nextNum frame len stack f s) out (Wire.nextNum p) (fun r => out.setPrice f r.1)
      Prod.snd := by
  obtain ⟨-, hn, hbuf⟩ := copyField_eq h (stack.num f)
  unfold nextNum Wire.nextNum
  dsimp only
  rw [hn, hbuf]
  apply Reads.map
  exact (pastComma_reads (h.copied (by decide) .num (stack.num f))).always
    (fun _ t ht => ht.setPrice f (readField_length (by decide) p).1 _)

lemma At.readTs (h : At frame len s out p) (stack : Stack) : At frame len (s.readTs frame len stack)
    { out with tsMs := atoll (readField 32 p).1 } (readField 32 p).2 := by
  have hcopied := h.copied (by decide) .tsNum stack.tsNum
  obtain ⟨-, hn, hbuf⟩ := copyField_eq h stack.tsNum
  have htext : atoll (cString ((s.copyField frame len stack.tsNum).buf.setIfInBounds
      (s.copyField frame len stack.tsNum).n 0).toList) = atoll (readField 32 p).1 := by
    rw [hn, hbuf, cString_ended (readField_length (by decide) p).1, atoll_cString]
  refine ⟨?_, hcopied.rest, hcopied.le⟩
  show ({ s.out with tsMs := _ } : SignalPod) = _
  rw [htext, h.out_eq]
  rfl

lemma finish_out (h : s.out = out.pod) (hempty : out.symbol = []) :
    s.finish.out = ({ out with symbol := bytesOf "BTC/USD", valid := 1 } : ExecSignal).pod := by
  have hlength : (bytesOf "BTC/USD").length = 7 := by decide +kernel
  have hfits : (bytesOf "BTC/USD").length < 16 := by omega
  have hsymbol : blit (bytesOf "BTC/USD" ++ [0]) s.out.symbol =
      blit (bytesOf "BTC/USD") (Vector.replicate 16 0) := by
    rw [h]
    show blit _ (blit out.symbol _) = _
    rw [hempty, blit_nil, ← blit_concat hfits, blit_zeros_ended hfits]
  show ({ s.out with symbol := blit (bytesOf "BTC/USD" ++ [0]) s.out.symbol, valid := 1 } : SignalPod) = _
  rw [hsymbol, h]
  rfl

/-! ## The function -/

lemma start_at : At frame len start {} (window frame len 0) where
  out_eq := by
    show ({} : SignalPod) = ExecSignal.pod {}
    unfold ExecSignal.pod
    rw [blit_nil, blit_nil]
  rest := rfl
  le := Nat.zero_le len

/-- The passages fill in what is read of the text, up to where it is rejected. -/
lemma passages_follow (hlen : len < 2 ^ 64) (stack : Stack) :
    Passage.Follows Shows (Passage.all (passages frame len stack) start) (readSignal (window frame len 0)) := by
  have htopic : At frame len (start.skipTopic frame len) {} (Wire.skipTopic (window frame len 0)) :=
    skipTopic_at hlen start_at
  unfold readSignal
  show Passage.Follows Shows (Passage.andThen (readSide frame len) _ (start.skipTopic frame len)) _
  apply (readSide_reads hlen htopic).andThen
  rintro ⟨side, p⟩ s1 h1
  apply (pastComma_reads h1).andThen
  intro p s2 h2
  apply (readReason_reads h2 rfl).andThen
  intro p s3 h3
  apply (nextNum_reads h3 stack .lead).andThen
  rintro ⟨lead, p⟩ s4 h4
  apply (nextNum_reads h4 stack .brokerBid).andThen
  rintro ⟨brokerBid, p⟩ s5 h5
  apply (nextNum_reads h5 stack .brokerAsk).andThen
  rintro ⟨brokerAsk, p⟩ s6 h6
  apply (nextNum_reads h6 stack .threshold).andThen
  rintro ⟨threshold, p⟩ s7 h7
  apply (nextNum_reads h7 stack .edge).andThen
  rintro ⟨edge, p⟩ s8 h8
  exact ⟨rfl, finish_out (h8.readTs stack).out_eq rfl⟩

/-- On memory the frame is decoded as its text is. -/
theorem decodeSignal_eq (frame : Nat → UInt8) {len : Nat} (hlen : len < 2 ^ 64) (stack : Stack) :
    (decodeSignal (some frame) len stack).1 = (Wire.decodeSignal (window frame len 0)).1 ∧
      (decodeSignal (some frame) len stack).2.out = (Wire.decodeSignal (window frame len 0)).2.pod := by
  have hfollows : Passage.Follows Shows (Passage.all (passages frame len stack) start)
      (readSignal (window frame len 0)) := passages_follow hlen stack
  unfold decodeSignal Wire.decodeSignal
  cases hread : readSignal (window frame len 0) with
  | error out =>
    rw [hread] at hfollows
    obtain ⟨hstop, hout⟩ := hfollows
    dsimp only
    rw [hstop]
    exact ⟨rfl, hout⟩
  | ok out =>
    rw [hread] at hfollows
    obtain ⟨hgoes, hout⟩ := hfollows
    have hshown : (Passage.all (passages frame len stack) start).2.out = out.pod := hout
    dsimp only
    rw [hgoes, hshown]
    exact ⟨rfl, rfl⟩

end FrameScan

end Wire

end LatencyArb
