import LatencyArb.Library.Decimal

/-!
# Numerals in texts of bytes

The digits that `toString` and `fixedPoint` write, and the numbers that a text of digits, a decimal
numeral and an integer numeral stand for.
-/

namespace LatencyArb

namespace Numeral

def bytesOf (s : String) : List UInt8 := s.toUTF8.data.toList

def isDigit (c : UInt8) : Bool := decide (48 ≤ c ∧ c ≤ 57)

/-- A text of digits, of which there are some. -/
def isDigits (s : List UInt8) : Bool := !s.isEmpty && s.all isDigit

/-- The number a text of digits stands for. -/
def digitsValue (s : List UInt8) : Nat := s.foldl (fun n c => 10 * n + (c.toNat - 48)) 0

lemma bytesOf_append (s t : String) : bytesOf (s ++ t) = bytesOf s ++ bytesOf t := by
  unfold bytesOf
  rw [String.toUTF8_eq_toByteArray, String.toUTF8_eq_toByteArray, String.toUTF8_eq_toByteArray,
    String.toByteArray_append]
  simp

lemma bytesOf_injective : Function.Injective bytesOf := by
  intro s t h
  unfold bytesOf at h
  rw [String.toUTF8_eq_toByteArray, String.toUTF8_eq_toByteArray] at h
  exact String.toByteArray_inj.mp (ByteArray.ext (Array.toList_inj.mp h))

lemma isDigits_iff {s : List UInt8} : isDigits s = true ↔ s ≠ [] ∧ ∀ c ∈ s, isDigit c = true := by
  simp [isDigits]

lemma digitsValue_append (s t : List UInt8) :
    digitsValue (s ++ t) = digitsValue s * 10 ^ t.length + digitsValue t := by
  unfold digitsValue
  rw [List.foldl_append]
  generalize s.foldl (fun n (c : UInt8) => 10 * n + (c.toNat - 48)) 0 = m
  induction t using List.reverseRecOn with
  | nil => simp
  | append_singleton t c ih =>
    rw [List.foldl_concat, List.foldl_concat, ih, List.length_append, List.length_singleton, pow_succ]
    ring

/-! ## The digits of a number -/

lemma bytesOf_ofList {l : List Char} (h : ∀ c ∈ l, c.isDigit = true) :
    bytesOf (String.ofList l) = l.map (fun c => c.val.toUInt8) := by
  have hbytes : bytesOf (String.ofList l) = l.flatMap String.utf8EncodeChar := by
    unfold bytesOf
    rw [String.toUTF8_eq_toByteArray, String.toByteArray_ofList]
    simp [List.utf8Encode]
  have hencode : ∀ c ∈ l, String.utf8EncodeChar c = [c.val.toUInt8] := by
    intro c hc
    have hdigit := h c hc
    simp only [Char.isDigit, Bool.and_eq_true, decide_eq_true_eq, UInt32.le_iff_toNat_le] at hdigit
    apply String.utf8EncodeChar_eq_singleton
    rw [Char.utf8Size_eq_one_iff, UInt32.le_iff_toNat_le]
    have hhigh : c.val.toNat ≤ 57 := hdigit.2
    show c.val.toNat ≤ 127
    omega
  rw [hbytes, List.flatMap_congr hencode]
  exact List.flatMap_pure_eq_map _ l

lemma isDigit_char {c : Char} (h : c.isDigit = true) :
    isDigit c.val.toUInt8 = true ∧ c.val.toUInt8.toNat = c.toNat := by
  simp only [Char.isDigit, Bool.and_eq_true, decide_eq_true_eq, ge_iff_le, UInt32.le_iff_toNat_le] at h
  have hlow : 48 ≤ c.toNat := h.1
  have hhigh : c.toNat ≤ 57 := h.2
  have hbyte : c.val.toUInt8.toNat = c.toNat := by
    rw [UInt32.toNat_toUInt8]
    exact Nat.mod_eq_of_lt (by show c.toNat < 256; omega)
  refine ⟨decide_eq_true ?_, hbyte⟩
  rw [UInt8.le_iff_toNat_le, UInt8.le_iff_toNat_le, hbyte]
  exact ⟨hlow, hhigh⟩

/-- A text of digits has the value of its characters. -/
lemma bytesOf_digits {l : List Char} (h : ∀ c ∈ l, c.isDigit = true) :
    (∀ c ∈ bytesOf (String.ofList l), isDigit c = true) ∧
      digitsValue (bytesOf (String.ofList l)) = Nat.ofDigitChars 10 l 0 ∧
      (bytesOf (String.ofList l)).length = l.length := by
  rw [bytesOf_ofList h]
  refine ⟨?_, ?_, List.length_map _⟩
  · intro b hb
    obtain ⟨c, hc, rfl⟩ := List.mem_map.mp hb
    exact (isDigit_char (h c hc)).1
  · unfold digitsValue
    rw [Nat.ofDigitChars_eq_foldl, List.foldl_map]
    apply List.foldl_ext
    intro n c hc
    rw [(isDigit_char (h c hc)).2]
    rfl

lemma isDigit_toDigits (n : Nat) : ∀ c ∈ Nat.toDigits 10 n, c.isDigit = true := by
  intro c hc
  exact Nat.isDigit_of_mem_toDigits (by decide) (by decide) hc

/-- The text of a number is a text of digits with its value. -/
lemma toString_digits (n : Nat) :
    isDigits (bytesOf (toString n)) = true ∧ digitsValue (bytesOf (toString n)) = n := by
  obtain ⟨hdigits, hvalue, hlength⟩ := bytesOf_digits (isDigit_toDigits n)
  rw [Nat.toString_eq_ofList_toDigits]
  constructor
  · rw [isDigits_iff]
    refine ⟨?_, hdigits⟩
    rw [← List.length_pos_iff, hlength]
    exact Nat.length_toDigits_pos
  · rw [hvalue, Nat.ofDigitChars_ten_toDigits]

lemma length_toString {n k : Nat} (hk : 0 < k) (h : n < 10 ^ k) : (bytesOf (toString n)).length ≤ k := by
  rw [Nat.toString_eq_ofList_toDigits, (bytesOf_digits (isDigit_toDigits n)).2.2]
  exact (Nat.length_toDigits_le_iff (by decide) hk).mpr h

lemma padLeft_toString (width n : Nat) : padLeft width (toString n) =
    String.ofList (List.replicate (width - (Nat.toDigits 10 n).length) '0' ++ Nat.toDigits 10 n) := by
  unfold padLeft
  rw [Nat.toString_eq_ofList_toDigits, ← String.ofList_append, String.length_ofList]

lemma isDigit_padded (width n : Nat) :
    ∀ c ∈ List.replicate (width - (Nat.toDigits 10 n).length) '0' ++ Nat.toDigits 10 n, c.isDigit = true := by
  intro c hc
  rcases List.mem_append.mp hc with hzero | hdigit
  · rw [List.eq_of_mem_replicate hzero]
    rfl
  · exact isDigit_toDigits n c hdigit

/-- The text of a number that fits is filled up to its width, and keeps its value. -/
lemma padLeft_digits {width n : Nat} (hwidth : 0 < width) (h : n < 10 ^ width) :
    isDigits (bytesOf (padLeft width (toString n))) = true ∧
      digitsValue (bytesOf (padLeft width (toString n))) = n ∧
      (bytesOf (padLeft width (toString n))).length = width := by
  have hlength : (Nat.toDigits 10 n).length ≤ width := (Nat.length_toDigits_le_iff (by decide) hwidth).mpr h
  have htext := padLeft_toString width n
  obtain ⟨hall, hvalue, hsize⟩ := bytesOf_digits (isDigit_padded width n)
  have hwhole : (bytesOf (padLeft width (toString n))).length = width := by
    rw [htext, hsize, List.length_append, List.length_replicate]
    omega
  refine ⟨?_, ?_, hwhole⟩
  · rw [isDigits_iff]
    refine ⟨?_, htext ▸ hall⟩
    rw [← List.length_pos_iff, hwhole]
    exact hwidth
  · rw [htext, hvalue, Nat.ofDigitChars_append, Nat.ofDigitChars_replicate_zero, Nat.mul_zero,
      Nat.ofDigitChars_ten_toDigits]

/-! ## Numerals -/

inductive Sign where
  | none | plus | minus
  deriving DecidableEq

namespace Sign

def text : Sign → List UInt8
  | none => []
  | plus => [43]
  | minus => [45]

lemma length_text (sign : Sign) : sign.text.length ≤ 1 := by
  cases sign <;> simp [text]

lemma mem_text {sign : Sign} {c : UInt8} (h : c ∈ sign.text) : c = 43 ∨ c = 45 := by
  cases sign with
  | none => cases h
  | plus => exact .inl (List.mem_singleton.mp h)
  | minus => exact .inr (List.mem_singleton.mp h)

def factor : Sign → ℤ
  | minus => -1
  | _ => 1

end Sign

/-- A sign and digits. -/
structure IntNumeral where
  sign : Sign
  digits : List UInt8
  valid : isDigits digits = true

namespace IntNumeral

def text (i : IntNumeral) : List UInt8 := i.sign.text ++ i.digits

def value (i : IntNumeral) : ℤ := i.sign.factor * digitsValue i.digits

/-- The numeral that `toString` writes. -/
def ofInt (n : ℤ) : IntNumeral :=
  ⟨if n < 0 then .minus else .none, bytesOf (toString n.natAbs), (toString_digits _).1⟩

lemma mem_text {i : IntNumeral} {c : UInt8} (h : c ∈ i.text) : isDigit c = true ∨ c = 43 ∨ c = 45 := by
  rcases List.mem_append.mp h with hsign | hdigit
  · exact .inr (Sign.mem_text hsign)
  · exact .inl ((isDigits_iff.mp i.valid).2 c hdigit)

lemma notMem_text (i : IntNumeral) {c : UInt8} (hdigit : isDigit c = false) (hsign : c ≠ 43 ∧ c ≠ 45) :
    c ∉ i.text := by
  intro h
  rcases mem_text h with hc | hplus | hminus
  · rw [hdigit] at hc
    cases hc
  · exact hsign.1 hplus
  · exact hsign.2 hminus

lemma ofInt_value (n : ℤ) : (ofInt n).value = n := by
  unfold value ofInt
  rw [(toString_digits n.natAbs).2]
  by_cases hn : n < 0
  · simp only [hn, if_true, Sign.factor]
    omega
  · simp only [hn, if_false, Sign.factor]
    omega

lemma ofInt_text (n : ℤ) : (ofInt n).text = bytesOf (toString n) := by
  unfold text ofInt
  match n with
  | .ofNat m => rfl
  | .negSucc m =>
    have htext : toString (Int.negSucc m) = "-" ++ toString (m + 1) := rfl
    have hneg : Int.negSucc m < 0 := Int.negSucc_lt_zero m
    rw [htext, bytesOf_append]
    simp only [hneg, if_true]
    rfl

end IntNumeral

/-- A sign, digits and perhaps a point with digits after it. -/
structure Decimal where
  sign : Sign
  whole : List UInt8
  fraction : Option (List UInt8)
  whole_valid : isDigits whole = true
  fraction_valid : ∀ f ∈ fraction, isDigits f = true

namespace Decimal

def fractionText (d : Decimal) : List UInt8 := d.fraction.elim [] (fun f => 46 :: f)

def text (d : Decimal) : List UInt8 := d.sign.text ++ (d.whole ++ d.fractionText)

def fractionDigits (d : Decimal) : List UInt8 := d.fraction.getD []

def magnitude (d : Decimal) : ℚ :=
  digitsValue (d.whole ++ d.fractionDigits) / 10 ^ d.fractionDigits.length

def value (d : Decimal) : ℚ := d.sign.factor * d.magnitude

lemma mem_text {d : Decimal} {c : UInt8} (h : c ∈ d.text) :
    isDigit c = true ∨ c = 43 ∨ c = 45 ∨ c = 46 := by
  rcases List.mem_append.mp h with hsign | hrest
  · rcases Sign.mem_text hsign with hplus | hminus
    · exact .inr (.inl hplus)
    · exact .inr (.inr (.inl hminus))
  · rcases List.mem_append.mp hrest with hwhole | hfraction
    · exact .inl ((isDigits_iff.mp d.whole_valid).2 c hwhole)
    · unfold fractionText at hfraction
      match hf : d.fraction with
      | none => simp [hf] at hfraction
      | some f =>
        simp only [hf, Option.elim_some, List.mem_cons] at hfraction
        rcases hfraction with hpoint | hdigit
        · exact .inr (.inr (.inr hpoint))
        · exact .inl ((isDigits_iff.mp (d.fraction_valid f hf)).2 c hdigit)

lemma notMem_text (d : Decimal) {c : UInt8} (hdigit : isDigit c = false)
    (hmark : c ≠ 43 ∧ c ≠ 45 ∧ c ≠ 46) : c ∉ d.text := by
  intro h
  rcases mem_text h with hc | hplus | hminus | hpoint
  · rw [hdigit] at hc
    cases hc
  · exact hmark.1 hplus
  · exact hmark.2.1 hminus
  · exact hmark.2.2 hpoint

end Decimal

/-! ## The text of `fixedPoint` -/

lemma roundEven_between (x : ℚ) : ⌊x⌋ ≤ roundEven x ∧ roundEven x ≤ ⌊x⌋ + 1 := by
  unfold roundEven
  simp only
  split_ifs <;> omega

lemma roundEven_nonneg {x : ℚ} (h : 0 ≤ x) : 0 ≤ roundEven x := (Int.floor_nonneg.mpr h).trans (roundEven_between x).1

lemma roundEven_nonpos {x : ℚ} (h : x < 0) : roundEven x ≤ 0 := by
  have hfloor : ⌊x⌋ < 0 := Int.floor_lt.mpr (by simpa using h)
  have hle := (roundEven_between x).2
  omega

lemma natAbs_roundEven_le {x : ℚ} {n : Nat} (h : |x| < n) : (roundEven x).natAbs ≤ n := by
  obtain ⟨hlow, hhigh⟩ := abs_lt.mp h
  have hfloor : -(n : ℤ) ≤ ⌊x⌋ := by
    rw [Int.le_floor]
    push_cast
    exact hlow.le
  have hceil : ⌊x⌋ < (n : ℤ) := by
    rw [Int.floor_lt]
    exact_mod_cast hhigh
  obtain ⟨hdown, hup⟩ := roundEven_between x
  omega

/-- A number rounded to so many places. -/
def roundTo (places : Nat) (x : ℚ) : ℚ := roundEven (x * 10 ^ places) / 10 ^ places

/-- The decimal that `fixedPoint` writes. -/
def fixedDecimal (places : Nat) (hplaces : 0 < places) (x : ℚ) : Decimal where
  sign := if x < 0 then .minus else .none
  whole := bytesOf (toString ((roundEven (x * 10 ^ places)).natAbs / 10 ^ places))
  fraction := some (bytesOf (padLeft places
    (toString ((roundEven (x * 10 ^ places)).natAbs % 10 ^ places))))
  whole_valid := (toString_digits _).1
  fraction_valid := by
    intro f hf
    rw [← Option.some.inj hf]
    exact (padLeft_digits hplaces (Nat.mod_lt _ (Nat.pow_pos (by decide)))).1

lemma fixedDecimal_text {places : Nat} (hplaces : 0 < places) (x : ℚ) :
    (fixedDecimal places hplaces x).text = bytesOf (fixedPoint places x) := by
  have hbody : ∀ s t : String, bytesOf (s ++ "." ++ t) = bytesOf s ++ (46 :: bytesOf t) := by
    intro s t
    rw [bytesOf_append, bytesOf_append, List.append_assoc]
    rfl
  unfold fixedPoint Decimal.text Decimal.fractionText fixedDecimal
  by_cases hx : x < 0
  · simp only [hx, if_true, bytesOf_append "-", hbody]
    rfl
  · simp only [hx, if_false, hbody]
    rfl

lemma fixedDecimal_value {places : Nat} (hplaces : 0 < places) (x : ℚ) :
    (fixedDecimal places hplaces x).value = roundTo places x := by
  have hpow : (0 : ℚ) < 10 ^ places := by positivity
  generalize hr : roundEven (x * 10 ^ places) = r
  obtain ⟨-, hvalue, hlength⟩ := padLeft_digits hplaces (Nat.mod_lt r.natAbs (Nat.pow_pos (by decide)))
  have hmagnitude : (fixedDecimal places hplaces x).magnitude = r.natAbs / 10 ^ places := by
    unfold Decimal.magnitude Decimal.fractionDigits fixedDecimal
    simp only [hr, Option.getD_some]
    rw [digitsValue_append, (toString_digits _).2, hvalue, hlength, Nat.div_add_mod']
  unfold Decimal.value roundTo
  rw [hmagnitude, hr]
  by_cases hx : x < 0
  · have hsign : (fixedDecimal places hplaces x).sign = .minus := if_pos hx
    have hneg : r ≤ 0 := hr ▸ roundEven_nonpos (mul_neg_of_neg_of_pos hx hpow)
    have habs : (r.natAbs : ℚ) = -(r : ℚ) := by
      rw [← Int.cast_natCast, Int.ofNat_natAbs_of_nonpos hneg, Int.cast_neg]
    rw [hsign, habs]
    simp only [Sign.factor]
    push_cast
    ring
  · have hsign : (fixedDecimal places hplaces x).sign = .none := if_neg hx
    have hpos : 0 ≤ r := hr ▸ roundEven_nonneg (mul_nonneg (not_lt.mp hx) hpow.le)
    have habs : (r.natAbs : ℚ) = (r : ℚ) := by
      rw [← Int.cast_natCast, Int.natAbs_of_nonneg hpos]
    rw [hsign, habs]
    simp only [Sign.factor]
    push_cast
    ring

lemma fixedDecimal_length {places digits : Nat} (hplaces : 0 < places) {x : ℚ}
    (h : |x| < 10 ^ digits) : (fixedDecimal places hplaces x).text.length ≤ 1 + (digits + 1) + 1 + places := by
  have hscaled : |x * 10 ^ places| < ((10 ^ (digits + places) : Nat) : ℚ) := by
    rw [abs_mul, abs_of_pos (by positivity : (0 : ℚ) < 10 ^ places), Nat.cast_pow, Nat.cast_ofNat, pow_add]
    exact mul_lt_mul_of_pos_right h (by positivity)
  have hrounded := natAbs_roundEven_le hscaled
  have hwhole : (roundEven (x * 10 ^ places)).natAbs / 10 ^ places < 10 ^ (digits + 1) := by
    rw [Nat.div_lt_iff_lt_mul (Nat.pow_pos (by omega)), ← pow_add]
    exact hrounded.trans_lt (Nat.pow_lt_pow_right (by omega) (by omega))
  have hlength := length_toString (Nat.succ_pos digits) hwhole
  have hfraction := (padLeft_digits hplaces
    (Nat.mod_lt (roundEven (x * 10 ^ places)).natAbs (Nat.pow_pos (by omega : 0 < 10)))).2.2
  have hsign := (fixedDecimal places hplaces x).sign.length_text
  unfold Decimal.text Decimal.fractionText
  rw [List.length_append, List.length_append]
  show _ + ((bytesOf (toString _)).length + (46 :: bytesOf (padLeft places _)).length) ≤ _
  rw [List.length_cons, hfraction]
  omega

end Numeral

end LatencyArb
