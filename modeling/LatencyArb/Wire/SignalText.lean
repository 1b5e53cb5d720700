import LatencyArb.Wire.Codec

/-!
# The round trip of a signal

A signal of the usual size is a frame whose fields are numerals, so that it is read back with its prices
rounded to six decimals.
-/

namespace LatencyArb

open Numeral

namespace Wire

/-- A price of magnitude below 10^15. -/
def Small (x : Double) : Prop := ∃ q : ℚ, x = .finite q ∧ |q| < 10 ^ 15

/-- The value that six decimals show. -/
def round6 : Double → Double
  | .finite q => .finite (roundTo 6 q)
  | x => x

namespace WireSignal

/-- A signal with a side, a reason that fits without a comma or a NUL, and small prices. -/
structure Plain (s : WireSignal) : Prop where
  side : s.side = .buy ∨ s.side = .sell
  reason : s.reason.length ≤ 23
  comma : comma ∉ s.reason
  nul : 0 ∉ s.reason
  prices : ∀ x ∈ s.prices, Small x
  tsMs : -2 ^ 63 ≤ s.tsMs ∧ s.tsMs < 2 ^ 63

end WireSignal

variable {x : Double} {s : WireSignal}

lemma fixed6_fits (h : Small x) : Fits 48 (fixed6 x) := by
  obtain ⟨q, rfl, hq⟩ := h
  have htext : fixed6 (.finite q) = (fixedDecimal 6 (by omega) q).text := (fixedDecimal_text (by omega) q).symm
  rw [htext]
  constructor
  · exact Decimal.notMem_text _ (by decide) (by decide)
  · have hlength := fixedDecimal_length (by omega : 0 < 6) hq
    omega

/-- What is read of a price is the price rounded. -/
lemma strtod_fixed6_finite {q : ℚ} (hq : |q| < 10 ^ 20) :
    strtod (fixed6 (.finite q)) = .finite (roundTo 6 q) := by
  have htext : fixed6 (.finite q) = (fixedDecimal 6 (by omega) q).text := (fixedDecimal_text (by omega) q).symm
  have hscaled : |q * 10 ^ 6| < ((10 ^ 26 : Nat) : ℚ) := by
    rw [abs_mul, abs_of_pos (by positivity : (0 : ℚ) < 10 ^ 6)]
    push_cast
    linarith
  have hnat := natAbs_roundEven_le hscaled
  have habs : |(roundEven (q * 10 ^ 6) : ℚ)| = ((roundEven (q * 10 ^ 6)).natAbs : ℚ) := by
    rw [← Int.cast_abs, Nat.cast_natAbs]
  have hvalue : |roundTo 6 q| = ((roundEven (q * 10 ^ 6)).natAbs : ℚ) / 10 ^ 6 := by
    unfold roundTo
    rw [abs_div, habs, abs_of_pos (by positivity : (0 : ℚ) < 10 ^ 6)]
  rw [htext, Decimal.strtod_text, fixedDecimal_value, Double.ofRat_eq]
  · have hle : ((roundEven (q * 10 ^ 6)).natAbs : ℚ) ≤ 10 ^ 26 := by exact_mod_cast hnat
    rw [hvalue, div_lt_iff₀ (by positivity)]
    exact hle.trans_lt (by norm_num)
  · by_cases hzero : (roundEven (q * 10 ^ 6)).natAbs = 0
    · left
      unfold roundTo
      rw [Int.natAbs_eq_zero.mp hzero]
      norm_num
    · right
      have hone : (1 : ℚ) ≤ ((roundEven (q * 10 ^ 6)).natAbs : ℚ) := by
        exact_mod_cast Nat.one_le_iff_ne_zero.mpr hzero
      have hstep : (1 : ℚ) / 10 ^ 64 ≤ 1 / 10 ^ 6 := by norm_num
      rw [hvalue]
      exact hstep.trans (div_le_div_of_nonneg_right hone (by positivity))

lemma strtod_fixed6 (h : Small x) : strtod (fixed6 x) = round6 x := by
  obtain ⟨q, rfl, hq⟩ := h
  exact strtod_fixed6_finite (hq.trans (by norm_num))

/-- The frame of a signal. -/
def WireSignal.Plain.frame (h : s.Plain) : Frame where
  topic := true
  bar := true
  buy := s.side = .buy
  reason := s.reason
  lead := fixed6 s.lead
  brokerBid := fixed6 s.brokerBid
  brokerAsk := fixed6 s.brokerAsk
  threshold := fixed6 s.threshold
  edge := fixed6 s.edge
  tail := bytesOf (toString s.tsMs)
  reason_fits := ⟨h.comma, Nat.lt_succ_of_le h.reason⟩
  numbers_fit := by
    have hprices := h.prices
    simp only [WireSignal.prices, List.forall_mem_cons] at hprices ⊢
    exact ⟨fixed6_fits hprices.1, fixed6_fits hprices.2.1, fixed6_fits hprices.2.2.1,
      fixed6_fits hprices.2.2.2.1, fixed6_fits hprices.2.2.2.2.1, by simp⟩

lemma cString_eq {text : List UInt8} (h : 0 ∉ text) : cString text = text := by
  unfold cString
  rw [List.takeWhile_eq_self_iff]
  intro c hc
  exact decide_eq_true (fun heq => h (heq ▸ hc))

lemma WireSignal.Plain.frame_text (h : s.Plain) : h.frame.text = s.text := by
  have htopic : bytesOf "signal|" = bytesOf "signal" ++ [124] := by decide +kernel
  unfold Frame.text Frame.head WireSignal.text
  rw [cString_eq h.nul, htopic]
  rfl

lemma WireSignal.Plain.tsMs_length (h : s.Plain) : (IntNumeral.ofInt s.tsMs).text.length ≤ 20 := by
  have hdigits : (IntNumeral.ofInt s.tsMs).digits.length ≤ 19 := by
    apply length_toString (by omega)
    have hrange := h.tsMs
    omega
  have hsign := (IntNumeral.ofInt s.tsMs).sign.length_text
  unfold IntNumeral.text
  rw [List.length_append]
  omega

lemma WireSignal.Plain.tail_eq (h : s.Plain) : h.frame.tail = (IntNumeral.ofInt s.tsMs).text :=
  (IntNumeral.ofInt_text s.tsMs).symm

/-- The last field fits into its buffer. -/
lemma WireSignal.Plain.tail_read (h : s.Plain) :
    (readField 32 h.frame.tail).1 = (IntNumeral.ofInt s.tsMs).text := by
  have hlength := h.tsMs_length
  have hcomma : ∀ c ∈ (IntNumeral.ofInt s.tsMs).text, decide (c ≠ Wire.comma) = true := by
    intro c hc
    apply decide_eq_true
    rintro rfl
    exact IntNumeral.notMem_text _ (by decide) (by decide) hc
  unfold readField
  rw [h.tail_eq, List.takeWhile_eq_self_iff.mpr hcomma]
  exact List.take_of_length_le (by omega)

lemma Frame.head_length (f : Frame) : f.head.length ≤ 276 := by
  have htopic : (if f.topic then bytesOf "signal" else []).length ≤ 6 := by
    split
    · exact le_of_eq (by decide +kernel)
    · exact Nat.zero_le _
  have hbar : (if f.bar then ([124] : List UInt8) else []).length ≤ 1 := by
    split <;> simp
  have hside : (sideText f.buy).length ≤ 4 := by
    rw [sideText_bytes]
    split <;> simp
  have hreason := f.reason_fits.2
  have hnumbers := f.numbers_fit
  simp only [List.forall_mem_cons] at hnumbers
  obtain ⟨hlead, hbid, hask, hthreshold, hedge, -⟩ := hnumbers
  have hfields : (f.numbers.flatMap (fun field => field ++ [comma])).length ≤ 240 := by
    have hlead := hlead.2
    have hbid := hbid.2
    have hask := hask.2
    have hthreshold := hthreshold.2
    have hedge := hedge.2
    simp only [numbers, List.flatMap_cons, List.flatMap_nil, List.length_append, List.length_singleton,
      List.length_nil]
    omega
  unfold head
  simp only [List.length_append, List.length_singleton]
  omega

/-- The text is far shorter than an `int` can say. -/
lemma WireSignal.Plain.text_short (h : s.Plain) : s.text.length < 2 ^ 31 := by
  have hhead := h.frame.head_length
  have htail := h.tsMs_length
  rw [← h.frame_text, Frame.text, List.length_append, h.tail_eq]
  omega

lemma encodeSignal_eq_none (hshort : s.text.length < 2 ^ 31) (cap : Nat) :
    encodeSignal s cap = none ↔ cap < s.text.length + 1 := by
  unfold encodeSignal
  split_ifs with hzero hlong
  · simp only [true_iff]
    omega
  · simp only [true_iff]
    omega
  · simp only [false_iff]
    omega

lemma encodeSignal_eq_some {cap : Nat} {text : List UInt8} (h : encodeSignal s cap = some text) :
    text = s.text := by
  unfold encodeSignal at h
  split_ifs at h
  exact (Option.some.inj h).symm

/-- A lead that shows a digit is positive when it is read. -/
lemma round6_isPos (h : Small x) (hlead : ∀ q, x = .finite q → 1 / 10 ^ 6 ≤ q) : (round6 x).isPos = true := by
  obtain ⟨q, rfl, -⟩ := h
  have hq := hlead q rfl
  have hone : 1 ≤ q * 10 ^ 6 := by
    rw [div_le_iff₀ (by positivity)] at hq
    exact hq
  have hrounded : 1 ≤ roundEven (q * 10 ^ 6) := by
    have hfloor : 1 ≤ ⌊q * 10 ^ 6⌋ := Int.le_floor.mpr (by exact_mod_cast hone)
    exact hfloor.trans (roundEven_between _).1
  apply decide_eq_true
  unfold roundTo
  have hcast : (0 : ℚ) < roundEven (q * 10 ^ 6) := by exact_mod_cast hrounded
  positivity

lemma WireSignal.Plain.lead_isPos (h : s.Plain) (hlead : ∀ q, s.lead = .finite q → 1 / 10 ^ 6 ≤ q) :
    (strtod h.frame.lead).isPos = true := by
  have hsmall : Small s.lead := h.prices s.lead List.mem_cons_self
  show (strtod (fixed6 s.lead)).isPos = true
  rw [strtod_fixed6 hsmall]
  exact round6_isPos hsmall hlead

/-- A plain signal is encoded exactly when its text and a NUL fit, and read back with its prices rounded to
six decimals. -/
theorem signal_round_trip {s : WireSignal} (h : s.Plain) (hlead : ∀ q, s.lead = .finite q → 1 / 10 ^ 6 ≤ q)
    (cap : Nat) :
    (encodeSignal s cap = none ↔ cap < s.text.length + 1) ∧
    ∀ text, encodeSignal s cap = some text →
      ∃ out, decodeSignal text = (true, out) ∧ out.side = (if s.side = .buy then 1 else 2) ∧
        out.reason = s.reason ∧ out.tsMs = s.tsMs ∧ out.lead = round6 s.lead ∧
        out.brokerBid = round6 s.brokerBid ∧ out.brokerAsk = round6 s.brokerAsk ∧
        out.threshold = round6 s.threshold ∧ out.edge = round6 s.edge := by
  refine ⟨encodeSignal_eq_none h.text_short cap, ?_⟩
  intro text htext
  have hprices := h.prices
  simp only [WireSignal.prices, List.forall_mem_cons] at hprices
  obtain ⟨hsmall, hbid, hask, hthreshold, hedge, -⟩ := hprices
  have hpos := h.lead_isPos hlead
  have htsMs : h.frame.signal.tsMs = s.tsMs := by
    have hvalue := IntNumeral.ofInt_value s.tsMs
    have hrange := h.tsMs
    rw [← hvalue] at hrange
    show atoll (readField 32 h.frame.tail).1 = s.tsMs
    rw [h.tail_read, atoll_text hrange.1 hrange.2, hvalue]
  refine ⟨h.frame.signal, ?_, ?_, rfl, htsMs, strtod_fixed6 hsmall, strtod_fixed6 hbid, strtod_fixed6 hask,
    strtod_fixed6 hthreshold, strtod_fixed6 hedge⟩
  · rw [encodeSignal_eq_some htext, ← h.frame_text, decodeSignal_text, hpos]
  · show (if decide (s.side = .buy) = true then 1 else 2) = _
    simp

/-- The signal of the unit test. -/
def testSignal : WireSignal where
  side := .sell
  reason := bytesOf "bid_gt_lead"
  lead := .finite (127981 / 2)
  brokerBid := .finite 64000
  brokerAsk := .finite 64001
  threshold := .finite (3 / 5)
  edge := .finite (123456 / 10 ^ 6)
  tsMs := 1700000000999

lemma testSignal_plain : testSignal.Plain := by
  constructor
  · exact .inr rfl
  · decide +kernel
  · decide +kernel
  · decide +kernel
  · simp only [WireSignal.prices, testSignal, List.forall_mem_cons]
    exact ⟨⟨_, rfl, by norm_num⟩, ⟨_, rfl, by norm_num⟩, ⟨_, rfl, by norm_num⟩, ⟨_, rfl, by norm_num⟩,
      ⟨_, rfl, by norm_num⟩, by simp⟩
  · exact ⟨by decide, by decide⟩

theorem testSignal_round_trip :
    (encodeSignal testSignal 256 = none ↔ 256 < testSignal.text.length + 1) ∧
    ∀ text, encodeSignal testSignal 256 = some text →
      ∃ out, decodeSignal text = (true, out) ∧ out.side = (if testSignal.side = .buy then 1 else 2) ∧
        out.reason = testSignal.reason ∧ out.tsMs = testSignal.tsMs ∧ out.lead = round6 testSignal.lead ∧
        out.brokerBid = round6 testSignal.brokerBid ∧ out.brokerAsk = round6 testSignal.brokerAsk ∧
        out.threshold = round6 testSignal.threshold ∧ out.edge = round6 testSignal.edge := by
  apply signal_round_trip testSignal_plain
  intro q hq
  rw [← Double.finite.inj hq]
  norm_num

end Wire

/-! ## The signals of the engine -/

open Wire

def Signal.wire (s : Signal) : WireSignal where
  side := s.side
  reason := bytesOf s.reason
  lead := .finite s.lead
  brokerBid := .finite s.brokerBid
  brokerAsk := .finite s.brokerAsk
  threshold := .finite s.threshold
  edge := .finite s.edge
  tsMs := s.tsMs

lemma length_bytesOf (text : String) : (bytesOf text).length = text.utf8ByteSize := by
  unfold bytesOf
  rw [String.toUTF8_eq_toByteArray, Array.length_toList]
  rfl

/-- The text of a signal of the engine is the encoded text, where its reason has no NUL. -/
theorem encodeSignal_wire (s : Signal) (hnul : 0 ∉ bytesOf s.reason) (hshort : s.wire.text.length < 2 ^ 31)
    (cap : Nat) : Wire.encodeSignal s.wire cap = (encodeSignal s cap).map bytesOf := by
  generalize htext : "signal|" ++ (if s.side = .buy then "BUY" else "SELL") ++ "," ++ s.reason ++ "," ++
    fixedPoint 6 s.lead ++ "," ++ fixedPoint 6 s.brokerBid ++ "," ++ fixedPoint 6 s.brokerAsk ++ "," ++
    fixedPoint 6 s.threshold ++ "," ++ fixedPoint 6 s.edge ++ "," ++ toString s.tsMs = text
  have hbytes : s.wire.text = bytesOf text := by
    have hcomma : bytesOf "," = [comma] := by decide +kernel
    have hside : sideText (s.wire.side = .buy) = bytesOf (if s.side = .buy then "BUY" else "SELL") := by
      unfold sideText
      simp only [decide_eq_true_eq]
      rfl
    rw [← htext, WireSignal.text, hside]
    simp only [bytesOf_append, hcomma, cString_eq hnul, Signal.wire, WireSignal.prices, fixed6,
      List.flatMap_cons, List.flatMap_nil, List.append_assoc, List.append_nil]
  have hstring : encodeSignal s cap = if text.utf8ByteSize < cap then some text else none := by
    rw [← htext]
    rfl
  have hsize : s.wire.text.length = text.utf8ByteSize := by rw [hbytes, length_bytesOf]
  have hnone := encodeSignal_eq_none hshort cap
  rw [hstring]
  by_cases hfits : text.utf8ByteSize < cap
  · rw [if_pos hfits, Option.map_some, ← hbytes]
    match hencoded : Wire.encodeSignal s.wire cap with
    | none =>
      have hroom := hnone.mp hencoded
      omega
    | some bytes => rw [encodeSignal_eq_some hencoded]
  · rw [if_neg hfits, Option.map_none]
    exact hnone.mpr (by omega)

end LatencyArb
