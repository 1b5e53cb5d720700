import LatencyArb.Wire.Grammar
import LatencyArb.Wire.SignalText

/-!
# Frames that are cut off

Only the last field has no end that `decode_signal` looks for.
-/

namespace LatencyArb

open Numeral

namespace Wire

lemma decodeSignal_iff (frame : List UInt8) :
    (decodeSignal frame).1 = true ↔ ∃ f : Frame, f.text = frame ∧ (strtod f.lead).isPos = true := by
  constructor
  · intro h
    by_cases hframe : ∃ f : Frame, f.text = frame
    · obtain ⟨f, rfl⟩ := hframe
      rw [decodeSignal_text] at h
      exact ⟨f, rfl, h⟩
    · have hfalse := (decodeSignal_not_frame (not_exists.mp hframe)).1
      rw [hfalse] at h
      cases h
  · rintro ⟨f, rfl, hpos⟩
    rw [decodeSignal_text]
    exact hpos

namespace Frame

/-- The frame with another last field. -/
def withTail (f : Frame) (tail : List UInt8) : Frame := { f with tail := tail }

lemma withTail_text (f : Frame) (tail : List UInt8) : (f.withTail tail).text = f.head ++ tail := rfl

end Frame

/-- A text that is cut is read exactly when the text is a frame and the cut is in its last field. -/
lemma cut_accepted_iff {text : List UInt8} {m : Nat} (hm : m < text.length) :
    (decodeSignal (text.take m)).1 = true ↔
      ∃ f : Frame, f.text = text ∧ (strtod f.lead).isPos = true ∧ f.head.length ≤ m := by
  rw [decodeSignal_iff]
  constructor
  · rintro ⟨g, hg, hpos⟩
    refine ⟨g.withTail (g.tail ++ text.drop m), ?_, hpos, ?_⟩
    · rw [Frame.withTail_text, ← List.append_assoc]
      show g.text ++ text.drop m = text
      rw [hg, List.take_append_drop]
    · have hlength := congrArg List.length hg
      rw [Frame.text, List.length_append, List.length_take] at hlength
      show g.head.length ≤ m
      omega
  · rintro ⟨f, rfl, hpos, hhead⟩
    refine ⟨f.withTail (f.tail.take (m - f.head.length)), ?_, hpos⟩
    rw [Frame.withTail_text, Frame.text, List.take_append, List.take_of_length_le hhead]

/-- A cut encoding is rejected exactly when the cut leaves nothing of the last field, unless its fields do
not fit or its lead is not read as a positive number. -/
theorem cut_rejected_iff (s : WireSignal) (cap : Nat) {text : List UInt8}
    (h : encodeSignal s cap = some text) {m : Nat} (hm : m < text.length) :
    (decodeSignal (text.take m)).1 = false ↔
      ∀ f : Frame, f.text = s.text → (strtod f.lead).isPos = true → m < f.head.length := by
  rw [← Bool.not_eq_true, cut_accepted_iff hm, encodeSignal_eq_some h]
  constructor
  · intro hnone f hf hpos
    by_contra hhead
    exact hnone ⟨f, hf, hpos, not_lt.mp hhead⟩
  · rintro hhead ⟨f, hf, hpos, hle⟩
    have hlt := hhead f hf hpos
    omega

/-- Of a plain signal with a lead that shows a digit, the cuts in the time stamp are accepted. -/
theorem plain_cut_rejected_iff {s : WireSignal} (h : s.Plain)
    (hlead : ∀ q, s.lead = .finite q → 1 / 10 ^ 6 ≤ q) {m : Nat} (hm : m < s.text.length) :
    (decodeSignal (s.text.take m)).1 = false ↔
      m + (bytesOf (toString s.tsMs)).length < s.text.length := by
  have hpos := h.lead_isPos hlead
  have hlength := congrArg List.length h.frame_text
  rw [Frame.text, List.length_append] at hlength
  have htail : h.frame.tail = bytesOf (toString s.tsMs) := rfl
  rw [htail] at hlength
  rw [← Bool.not_eq_true, cut_accepted_iff hm]
  constructor
  · intro hnone
    by_contra hcut
    exact hnone ⟨h.frame, h.frame_text, hpos, by omega⟩
  · rintro hcut ⟨f, hf, -, hle⟩
    rw [← h.frame_text] at hf
    rw [Frame.text_injective hf] at hle
    omega

lemma testSignal_encoded : encodeSignal testSignal 256 = some testSignal.text := by
  have hlength : testSignal.text.length = 94 := by decide +kernel
  match hencoded : encodeSignal testSignal 256 with
  | none =>
    have hroom := (encodeSignal_eq_none testSignal_plain.text_short 256).mp hencoded
    omega
  | some text => rw [encodeSignal_eq_some hencoded]

theorem testSignal_cut_rejected :
    (decodeSignal (testSignal.text.take 30)).1 = false ↔
      ∀ f : Frame, f.text = testSignal.text → (strtod f.lead).isPos = true → 30 < f.head.length :=
  cut_rejected_iff testSignal 256 testSignal_encoded (by decide +kernel)

/-- Without its last byte the frame of the unit test is accepted, with another time stamp. -/
theorem cut_time_stamp_accepted :
    encodeSignal testSignal 256 = some testSignal.text ∧
    testSignal.text.length = 94 ∧
    (decodeSignal (testSignal.text.take 93)).1 = true ∧
    (decodeSignal (testSignal.text.take 93)).2.tsMs = 170000000099 ∧
    (decodeSignal testSignal.text).2.tsMs = 1700000000999 :=
  ⟨testSignal_encoded, by decide +kernel, by decide +kernel, by decide +kernel, by decide +kernel⟩

end Wire

end LatencyArb
