import LatencyArb.Wire.Codec

/-!
# The grammar of the frames

A frame of the grammar is a text that can be cut into fields which are numerals. `decode_signal` cuts the
text, and takes the fields as they are.
-/

namespace LatencyArb

open Numeral

namespace Wire

namespace Frame

/-- The numbers are decimal numerals, the lead positive, and the last field is an integer that an `int64_t`
can hold. -/
structure WellFormed (f : Frame) : Prop where
  numbers : ∀ field ∈ f.numbers, ∃ d : Decimal, d.text = field
  lead : ∃ d : Decimal, d.text = f.lead ∧ 0 < d.value
  tail : ∃ i : IntNumeral, i.text = f.tail ∧ -2 ^ 63 ≤ i.value ∧ i.value < 2 ^ 63

end Frame

def InGrammar (frame : List UInt8) : Prop := ∃ f : Frame, f.text = frame ∧ f.WellFormed

/-! ## A text is cut in one way -/

lemma field_inj {size : Nat} {a b s t : List UInt8} (ha : Fits size a) (hb : Fits size b)
    (h : a ++ comma :: s = b ++ comma :: t) : a = b ∧ s = t := by
  have hread := congrArg (readField size) h
  rw [readField_fits ha, readField_fits hb] at hread
  obtain ⟨hfield, hrest⟩ := Prod.mk.inj hread
  exact ⟨hfield, (List.cons.inj hrest).2⟩

lemma side_inj {buy buy' : Bool} {s t : List UInt8} (h : sideText buy ++ s = sideText buy' ++ t) :
    buy = buy' ∧ s = t := by
  rw [sideText_bytes, sideText_bytes] at h
  cases buy <;> cases buy' <;> simp_all

lemma topic_inj {topic bar topic' bar' : Bool} {s : List UInt8}
    (h : (if topic then bytesOf "signal" else []) ++ (if bar then [124] else []) ++ s =
      (if topic' then bytesOf "signal" else []) ++ (if bar' then [124] else []) ++ s) :
    topic = topic' ∧ bar = bar' := by
  have hfront := List.append_cancel_right h
  rw [signal_bytes] at hfront
  cases topic <;> cases bar <;> cases topic' <;> cases bar' <;> simp_all

theorem Frame.text_injective : Function.Injective Frame.text := by
  intro f g h
  have hf := f.numbers_fit
  have hg := g.numbers_fit
  simp only [List.forall_mem_cons] at hf hg
  rw [f.text_eq, g.text_eq] at h
  have hskip := congrArg skipTopic h
  rw [skipTopic_side, skipTopic_side] at hskip
  obtain ⟨hbuy, hrest⟩ := side_inj hskip
  rw [hbuy, hrest, List.append_assoc, List.append_assoc _ (sideText g.buy)] at h
  obtain ⟨htopic, hbar⟩ := topic_inj h
  obtain ⟨hreason, hrest⟩ := field_inj f.reason_fits g.reason_fits (List.cons.inj hrest).2
  obtain ⟨hlead, hrest⟩ := field_inj hf.1 hg.1 hrest
  obtain ⟨hbid, hrest⟩ := field_inj hf.2.1 hg.2.1 hrest
  obtain ⟨hask, hrest⟩ := field_inj hf.2.2.1 hg.2.2.1 hrest
  obtain ⟨hthreshold, hrest⟩ := field_inj hf.2.2.2.1 hg.2.2.2.1 hrest
  obtain ⟨hedge, htail⟩ := field_inj hf.2.2.2.2.1 hg.2.2.2.2.1 hrest
  cases f
  cases g
  simp_all

/-! ## What is accepted -/

lemma ofRat_isPos {v : ℚ} (h : 1 / 10 ^ 64 ≤ v) : (Double.ofRat v).isPos = true := by
  have hv : 0 < v := lt_of_lt_of_le (by positivity) h
  have htiny : (1 : ℚ) / 2 ^ 1075 < 1 / 10 ^ 64 := by decide +kernel
  unfold Double.ofRat
  rw [abs_of_pos hv]
  split_ifs with hbig hsmall
  · simp [Double.isPos, hv.le]
  · exact absurd hsmall (not_le.mpr (htiny.trans_le h))
  · exact decide_eq_true hv

/-- A positive numeral is at least one unit of its last place. -/
lemma unit_le_value {d : Decimal} (h : 0 < d.value) : 1 / 10 ^ d.fractionDigits.length ≤ d.value := by
  have hpow : (0 : ℚ) < 10 ^ d.fractionDigits.length := by positivity
  have hmagnitude : 0 ≤ d.magnitude := div_nonneg (Nat.cast_nonneg _) hpow.le
  have hvalue : d.value = d.magnitude := by
    unfold Decimal.value at h ⊢
    cases hsign : d.sign with
    | none => simp [Sign.factor]
    | plus => simp [Sign.factor]
    | minus =>
      rw [hsign] at h
      simp only [Sign.factor] at h
      push_cast at h
      linarith
  rw [hvalue] at h ⊢
  unfold Decimal.magnitude at h ⊢
  have hdigits : (0 : ℚ) < digitsValue (d.whole ++ d.fractionDigits) := by
    by_contra hzero
    have hle := div_nonpos_of_nonpos_of_nonneg (not_lt.mp hzero) hpow.le
    linarith
  apply div_le_div_of_nonneg_right _ hpow.le
  exact_mod_cast hdigits

lemma fractionDigits_length_le (d : Decimal) : d.fractionDigits.length ≤ d.text.length := by
  unfold Decimal.fractionDigits Decimal.text Decimal.fractionText
  cases d.fraction with
  | none => simp
  | some f => simp; omega

lemma Frame.WellFormed.lead_isPos {f : Frame} (h : f.WellFormed) : (strtod f.lead).isPos = true := by
  obtain ⟨d, hd, hpos⟩ := h.lead
  have hfits := f.numbers_fit f.lead List.mem_cons_self
  have hlength := fractionDigits_length_le d
  rw [hd] at hlength
  have hunit : (1 : ℚ) / 10 ^ 64 ≤ 1 / 10 ^ d.fractionDigits.length := by
    apply one_div_le_one_div_of_le (by positivity)
    apply pow_le_pow_right₀ (by norm_num)
    have hsize := hfits.2
    omega
  rw [← hd, Decimal.strtod_text]
  exact ofRat_isPos (hunit.trans (unit_le_value hpos))

/-- `decode_signal` accepts the frames of the grammar only, and leaves all other signals invalid, exactly
on the texts that cannot be cut into fields or whose fields are well formed. -/
theorem decode_meets_grammar_iff (frame : List UInt8) :
    ((InGrammar frame → (decodeSignal frame).1 = true ∧ (decodeSignal frame).2.valid = 1) ∧
      (¬InGrammar frame → (decodeSignal frame).1 = false ∧ (decodeSignal frame).2.valid = 0)) ↔
    ∀ f : Frame, f.text = frame → f.WellFormed := by
  constructor
  · rintro ⟨-, hreject⟩ f rfl
    by_cases hgrammar : InGrammar f.text
    · obtain ⟨g, hg, hwell⟩ := hgrammar
      exact Frame.text_injective hg ▸ hwell
    · have hvalid := (hreject hgrammar).2
      rw [decodeSignal_text] at hvalid
      cases hvalid
  · intro hwell
    constructor
    · rintro ⟨f, rfl, hf⟩
      rw [decodeSignal_text]
      exact ⟨hf.lead_isPos, rfl⟩
    · intro hgrammar
      apply decodeSignal_not_frame
      intro f hf
      exact hgrammar ⟨f, hf, hwell f hf⟩

/-- A frame with this lead. -/
def leadFrame (lead : String) (h : Fits 48 (bytesOf lead)) : Frame where
  topic := true
  bar := true
  buy := true
  reason := bytesOf "r"
  lead := bytesOf lead
  brokerBid := bytesOf "2"
  brokerAsk := bytesOf "3"
  threshold := bytesOf "4"
  edge := bytesOf "5"
  tail := bytesOf "6"
  reason_fits := by
    unfold Fits
    decide +kernel
  numbers_fit := by
    have hdigits : ∀ field ∈ [bytesOf "2", bytesOf "3", bytesOf "4", bytesOf "5"], Fits 48 field := by
      unfold Fits
      decide +kernel
    intro field hfield
    rcases List.mem_cons.mp hfield with rfl | hrest
    · exact h
    · exact hdigits field hrest

def garbledFrame : Frame := leadFrame "1x" (by unfold Fits; decide +kernel)

def zeroFrame : Frame := leadFrame "0" (by unfold Fits; decide +kernel)

/-- A lead with garbage behind it is taken for 1, and a lead of 0 leaves the signal valid. -/
theorem garbled_lead_accepted :
    garbledFrame.text = bytesOf "signal|BUY,r,1x,2,3,4,5,6" ∧ ¬InGrammar garbledFrame.text ∧
    (decodeSignal garbledFrame.text).1 = true ∧
    (decodeSignal garbledFrame.text).2.lead = .finite 1 ∧
    zeroFrame.text = bytesOf "signal|BUY,r,0,2,3,4,5,6" ∧ ¬InGrammar zeroFrame.text ∧
    (decodeSignal zeroFrame.text).1 = false ∧ (decodeSignal zeroFrame.text).2.valid = 1 := by
  have hgarbled : ¬InGrammar garbledFrame.text := by
    rintro ⟨f, hf, hwell⟩
    rw [Frame.text_injective hf] at hwell
    obtain ⟨d, hd⟩ := hwell.numbers garbledFrame.lead List.mem_cons_self
    have hmem : (120 : UInt8) ∈ d.text := by
      rw [hd]
      decide +kernel
    exact d.notMem_text (by decide) (by decide) hmem
  have hzero : ¬InGrammar zeroFrame.text := by
    rintro ⟨f, hf, hwell⟩
    rw [Frame.text_injective hf] at hwell
    have hpos := hwell.lead_isPos
    have hlead : (strtod zeroFrame.lead).isPos = false := by decide +kernel
    rw [hlead] at hpos
    cases hpos
  exact ⟨by decide +kernel, hgarbled, by decide +kernel, by decide +kernel, by decide +kernel, hzero,
    by decide +kernel, by decide +kernel⟩

end Wire

end LatencyArb
