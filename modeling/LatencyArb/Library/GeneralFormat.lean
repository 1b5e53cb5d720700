import LatencyArb.Library.Strtod

/-!
# The texts of `%g`

Without its exponent form `%g` writes a decimal numeral: the number rounded to six significant digits. So
a number is read back from its text only if it has no more digits than that.
-/

namespace LatencyArb

namespace Numeral

/-! ## Without the zeros at the end -/

/-- A text of digits without the zeros at its end. -/
def trimmed (digits : List Char) : List Char := digits.rdropWhile (fun c => decide (c = '0'))

lemma trimmed_append_zeros (digits : List Char) : ∃ n, digits = trimmed digits ++ List.replicate n '0' := by
  refine ⟨(digits.rtakeWhile (fun c => decide (c = '0'))).length, ?_⟩
  have hzeros : ∀ c ∈ digits.rtakeWhile (fun c => decide (c = '0')), c = '0' := by
    intro c hc
    simpa using List.mem_rtakeWhile_imp hc
  rw [← List.eq_replicate_of_mem hzeros]
  exact (List.rdropWhile_append_rtakeWhile).symm

lemma isDigit_trimmed {digits : List Char} (h : ∀ c ∈ digits, c.isDigit = true) :
    ∀ c ∈ trimmed digits, c.isDigit = true :=
  fun c hc => h c ((List.rdropWhile_prefix _ digits).subset hc)

/-- Without its zeros at the end a text is a front of itself. -/
lemma trimZeros_prefix (text : String) : ∃ rest, trimZeros text ++ rest = text := by
  have hsuffix : ∀ kept : List Char, kept <:+ text.toList.reverse →
      ∃ rest, String.ofList kept.reverse ++ rest = text := by
    rintro kept ⟨zeros, hzeros⟩
    refine ⟨String.ofList zeros.reverse, ?_⟩
    rw [← String.ofList_append, ← List.reverse_append, hzeros, List.reverse_reverse, String.ofList_toList]
  unfold trimZeros
  dsimp only
  split
  · exact hsuffix _ ((List.tail_suffix _).trans (List.dropWhile_suffix _))
  · exact hsuffix _ (List.dropWhile_suffix _)

lemma trimZeros_point {whole digits : List Char} (h : ∀ c ∈ digits, c.isDigit = true) :
    trimZeros (String.ofList (whole ++ '.' :: digits)) =
      String.ofList (whole ++ if trimmed digits = [] then [] else '.' :: trimmed digits) := by
  have hsplit : (whole ++ '.' :: digits).reverse = digits.reverse ++ '.' :: whole.reverse := by simp
  have htrimmed : digits.reverse.dropWhile (fun c => decide (c = '0')) = (trimmed digits).reverse := by
    unfold trimmed List.rdropWhile
    rw [List.reverse_reverse]
  have hdrop : (digits.reverse ++ '.' :: whole.reverse).dropWhile (fun c => decide (c = '0')) =
      (trimmed digits).reverse ++ '.' :: whole.reverse := by
    rw [List.dropWhile_append, htrimmed]
    by_cases hnil : trimmed digits = []
    · simp [hnil]
    · simp [hnil]
  unfold trimZeros
  rw [String.toList_ofList, hsplit, hdrop]
  by_cases hnil : trimmed digits = []
  · simp [hnil]
  · dsimp only
    rw [if_neg hnil, if_neg]
    · simp
    · obtain ⟨front, c, hlast⟩ := List.eq_nil_or_concat (trimmed digits) |>.resolve_left hnil
      have hc := isDigit_trimmed h c (by simp [hlast])
      rw [hlast]
      simp only [List.concat_eq_append, List.reverse_append, List.reverse_cons, List.reverse_nil,
        List.nil_append, List.cons_append, List.head?_cons, Option.some.injEq]
      rintro rfl
      exact absurd hc (by decide)

lemma bytesOf_zeros (n : Nat) : bytesOf (String.ofList (List.replicate n '0')) = List.replicate n 48 := by
  rw [bytesOf_ofList (fun c hc => by rw [List.eq_of_mem_replicate hc]; rfl), List.map_replicate]
  rfl

lemma digitsValue_zeros (s : List UInt8) (n : Nat) :
    digitsValue (s ++ List.replicate n 48) = digitsValue s * 10 ^ n := by
  have hzero : digitsValue (List.replicate n 48) = 0 := by
    induction n with
    | zero => rfl
    | succ n ih =>
      rw [List.replicate_succ', digitsValue_append, ih]
      rfl
  rw [digitsValue_append, hzero, List.length_replicate, add_zero]

/-- Zeros at the end of the fraction do not count. -/
lemma Decimal.value_of_zeros {d d' : Decimal} {n : Nat} (hsign : d'.sign = d.sign)
    (hwhole : d'.whole = d.whole) (hfraction : d.fractionDigits = d'.fractionDigits ++ List.replicate n 48) :
    d'.value = d.value := by
  have hpow : (10 : ℚ) ^ n ≠ 0 := by positivity
  unfold Decimal.value Decimal.magnitude
  rw [hsign, hwhole, hfraction, ← List.append_assoc, digitsValue_zeros, List.length_append,
    List.length_replicate, pow_add]
  push_cast
  rw [mul_div_mul_right _ _ hpow]

/-- A decimal without the zeros at the end of its fraction, nor a point that they leave there. -/
lemma Decimal.exists_trimmed {d : Decimal} {digits : List Char} (h : ∀ c ∈ digits, c.isDigit = true)
    (hfraction : d.fraction = some (bytesOf (String.ofList digits))) :
    ∃ d' : Decimal, d'.sign = d.sign ∧ d'.whole = d.whole ∧ d'.value = d.value ∧
      d'.fractionText =
        bytesOf (String.ofList (if trimmed digits = [] then [] else '.' :: trimmed digits)) := by
  obtain ⟨n, hzeros⟩ := trimmed_append_zeros digits
  have hbytes : d.fractionDigits = bytesOf (String.ofList (trimmed digits)) ++ List.replicate n 48 := by
    unfold Decimal.fractionDigits
    rw [hfraction, Option.getD_some, ← bytesOf_zeros, ← bytesOf_append, ← String.ofList_append, ← hzeros]
  by_cases hnil : trimmed digits = []
  · rw [if_pos hnil]
    rw [hnil] at hbytes
    refine ⟨⟨d.sign, d.whole, none, d.whole_valid, by simp⟩, rfl, rfl, ?_, rfl⟩
    exact Decimal.value_of_zeros (d := d) rfl rfl hbytes
  · rw [if_neg hnil]
    have hvalid : isDigits (bytesOf (String.ofList (trimmed digits))) = true := by
      obtain ⟨hall, -, hlength⟩ := bytesOf_digits (isDigit_trimmed h)
      rw [isDigits_iff]
      refine ⟨?_, hall⟩
      rw [← List.length_pos_iff, hlength]
      exact List.length_pos_of_ne_nil hnil
    refine ⟨⟨d.sign, d.whole, some (bytesOf (String.ofList (trimmed digits))), d.whole_valid,
      fun f hf => Option.some.inj hf ▸ hvalid⟩, rfl, rfl, ?_, ?_⟩
    · exact Decimal.value_of_zeros (d := d) rfl rfl hbytes
    · show 46 :: bytesOf (String.ofList (trimmed digits)) = _
      rw [show '.' :: trimmed digits = ['.'] ++ trimmed digits from rfl, String.ofList_append, bytesOf_append]
      rfl

/-- A number that is not negative is written in a fixed format without the zeros at the end. -/
lemma trimZeros_fixedPoint {places : Nat} (hplaces : 0 < places) {x : ℚ} (hx : 0 ≤ x) :
    ∃ d : Decimal, d.text = bytesOf (trimZeros (fixedPoint places x)) ∧ d.value = roundTo places x := by
  generalize hr : (roundEven (x * 10 ^ places)).natAbs = r
  have hdigits := isDigit_padded places (r % 10 ^ places)
  have hpadded := padLeft_toString places (r % 10 ^ places)
  generalize List.replicate (places - (Nat.toDigits 10 (r % 10 ^ places)).length) '0' ++
    Nat.toDigits 10 (r % 10 ^ places) = digits at hdigits hpadded
  have hwhole : toString (r / 10 ^ places) = String.ofList (Nat.toDigits 10 (r / 10 ^ places)) :=
    Nat.toString_eq_ofList_toDigits
  have htext : fixedPoint places x = String.ofList (Nat.toDigits 10 (r / 10 ^ places) ++ '.' :: digits) := by
    unfold fixedPoint
    rw [if_neg (not_lt.mpr hx), hr, hpadded, hwhole,
      show '.' :: digits = ['.'] ++ digits from rfl, String.ofList_append, String.ofList_append,
      String.append_assoc]
  have hfraction : (fixedDecimal places hplaces x).fraction = some (bytesOf (String.ofList digits)) := by
    rw [← hpadded, ← hr]
    rfl
  obtain ⟨d, hsign, hd, hvalue, hfractionText⟩ := Decimal.exists_trimmed hdigits hfraction
  refine ⟨d, ?_, hvalue.trans (fixedDecimal_value hplaces x)⟩
  have hnone : (fixedDecimal places hplaces x).sign = .none := if_neg (not_lt.mpr hx)
  have hdwhole : d.whole = bytesOf (String.ofList (Nat.toDigits 10 (r / 10 ^ places))) := by
    rw [hd, ← hwhole, ← hr]
    rfl
  unfold Decimal.text
  rw [hsign, hnone, hdwhole, hfractionText, htext, trimZeros_point hdigits, ← bytesOf_append,
    ← String.ofList_append]
  rfl

/-! ## Six significant digits -/

/-- The number is an integer of so many digits, scaled by a power of ten. -/
def HasDigits (count : Nat) (x : ℚ) : Prop := ∃ n : Nat, n < 10 ^ count ∧ ∃ j : ℤ, x = n * 10 ^ j

/-- The number scaled so that six digits stand before its point. -/
def scaledSix (x : ℚ) : ℚ := x * 10 ^ (5 - Int.log 10 x)

variable {x : ℚ}

lemma scaledSix_bounds (hx : 0 < x) : 10 ^ 5 ≤ scaledSix x ∧ scaledSix x < 10 ^ 6 := by
  have hten : (10 : ℚ) ≠ 0 := by norm_num
  have hlow := Int.zpow_log_le_self (b := 10) (by decide) hx
  have hhigh := Int.lt_zpow_succ_log_self (b := 10) (by decide) x
  push_cast at hlow hhigh
  have hpos : (0 : ℚ) < 10 ^ (5 - Int.log 10 x) := by positivity
  unfold scaledSix
  constructor
  · calc (10 : ℚ) ^ 5 = 10 ^ Int.log 10 x * 10 ^ (5 - Int.log 10 x) := by
          rw [← zpow_add₀ hten, add_sub_cancel]
          rfl
      _ ≤ x * 10 ^ (5 - Int.log 10 x) := mul_le_mul_of_nonneg_right hlow hpos.le
  · calc x * 10 ^ (5 - Int.log 10 x) < 10 ^ (Int.log 10 x + 1) * 10 ^ (5 - Int.log 10 x) :=
          mul_lt_mul_of_pos_right hhigh hpos
      _ = 10 ^ 6 := by
          rw [← zpow_add₀ hten, show Int.log 10 x + 1 + (5 - Int.log 10 x) = 6 by ring]
          rfl

lemma scaledSix_mul (x : ℚ) : scaledSix x * 10 ^ (Int.log 10 x - 5) = x := by
  have hten : (10 : ℚ) ≠ 0 := by norm_num
  unfold scaledSix
  rw [mul_assoc, ← zpow_add₀ hten, sub_add_sub_cancel', sub_self, zpow_zero, mul_one]

/-- A number has six digits exactly when the scaled number is an integer. -/
lemma hasDigits_six_iff (hx : 0 < x) : HasDigits 6 x ↔ ∃ n : Nat, scaledSix x = n := by
  constructor
  · rintro ⟨n, hn, j, hxn⟩
    have hten : (10 : ℚ) ≠ 0 := by norm_num
    have hlog : Int.log 10 x < j + 6 := by
      rw [← Int.lt_zpow_iff_log_lt (by decide) hx, hxn, add_comm]
      push_cast
      rw [zpow_add₀ hten]
      have hpos : (0 : ℚ) < 10 ^ j := by positivity
      exact mul_lt_mul_of_pos_right (by exact_mod_cast hn) hpos
    obtain ⟨e, he⟩ := Int.eq_ofNat_of_zero_le (by omega : 0 ≤ j + (5 - Int.log 10 x))
    refine ⟨n * 10 ^ e, ?_⟩
    unfold scaledSix
    conv_lhs => rw [hxn]
    rw [mul_assoc, ← zpow_add₀ hten, ← hxn, he]
    push_cast
    rw [zpow_natCast]
  · rintro ⟨n, hn⟩
    have hlt := (scaledSix_bounds hx).2
    rw [hn] at hlt
    refine ⟨n, by exact_mod_cast hlt, Int.log 10 x - 5, ?_⟩
    rw [← hn, scaledSix_mul]

lemma roundEven_intCast (n : ℤ) : roundEven n = n := by
  unfold roundEven
  simp

/-- The six digits, and the exponent of the first of them. -/
def sixDigits (x : ℚ) : Nat × ℤ :=
  if (roundEven (scaledSix x)).toNat = 10 ^ 6 then (10 ^ 5, Int.log 10 x + 1)
  else ((roundEven (scaledSix x)).toNat, Int.log 10 x)

/-- The number that six digits stand for. -/
def sixValue (x : ℚ) : ℚ := (sixDigits x).1 * 10 ^ ((sixDigits x).2 - 5)

lemma generalFormat_pos (hx : 0 < x) : generalFormat x =
    if (sixDigits x).2 < -4 ∨ 5 < (sixDigits x).2 then
      trimZeros (fixedPoint 5 ((sixDigits x).1 / 10 ^ 5)) ++
        (if (sixDigits x).2 < 0 then "e-" else "e+") ++ padLeft 2 (toString (sixDigits x).2.natAbs)
    else trimZeros (fixedPoint 9 (sixValue x)) := by
  unfold generalFormat
  rw [if_neg hx.ne']
  dsimp only
  rw [abs_of_pos hx, if_neg (not_lt.mpr hx.le)]
  rfl

/-- The exponent form is no decimal numeral. -/
lemma plain_of_text (hx : 0 < x) {d : Decimal} (h : d.text = bytesOf (generalFormat x)) :
    -4 ≤ (sixDigits x).2 ∧ (sixDigits x).2 ≤ 5 := by
  by_contra hplain
  rw [generalFormat_pos hx, if_pos (by omega), bytesOf_append, bytesOf_append] at h
  apply d.notMem_text (c := 101) (by decide) (by decide)
  rw [h]
  apply List.mem_append_left
  apply List.mem_append_right
  split <;> decide

lemma rounded_nonneg (hx : 0 < x) : 0 ≤ roundEven (scaledSix x) :=
  roundEven_nonneg ((by positivity : (0 : ℚ) ≤ 10 ^ 5).trans (scaledSix_bounds hx).1)

lemma sixValue_eq (hx : 0 < x) : sixValue x = roundEven (scaledSix x) * 10 ^ (Int.log 10 x - 5) := by
  have hten : (10 : ℚ) ≠ 0 := by norm_num
  have hcast : ((roundEven (scaledSix x)).toNat : ℚ) = roundEven (scaledSix x) := by
    exact_mod_cast Int.toNat_of_nonneg (rounded_nonneg hx)
  unfold sixValue sixDigits
  rw [← hcast]
  by_cases hsix : (roundEven (scaledSix x)).toNat = 10 ^ 6
  · rw [if_pos hsix, hsix, show Int.log 10 x + 1 - 5 = 1 + (Int.log 10 x - 5) by ring, zpow_add₀ hten]
    push_cast
    ring
  · rw [if_neg hsix]

/-- The plain form stands for the six digits. -/
lemma exists_plain (hx : 0 < x) (hlow : -4 ≤ (sixDigits x).2) (hhigh : (sixDigits x).2 ≤ 5) :
    ∃ d : Decimal, d.text = bytesOf (generalFormat x) ∧ d.value = sixValue x := by
  have hten : (10 : ℚ) ≠ 0 := by norm_num
  have hnonneg : 0 ≤ sixValue x := by
    unfold sixValue
    positivity
  obtain ⟨d, htext, hvalue⟩ := trimZeros_fixedPoint (by decide : 0 < 9) hnonneg
  refine ⟨d, ?_, ?_⟩
  · rw [htext, generalFormat_pos hx, if_neg (by omega)]
  · obtain ⟨e, he⟩ := Int.eq_ofNat_of_zero_le (by omega : 0 ≤ (sixDigits x).2 + 4)
    have hscaled : sixValue x * 10 ^ 9 = (((sixDigits x).1 * 10 ^ e : Nat) : ℤ) := by
      unfold sixValue
      rw [mul_assoc, ← zpow_natCast (10 : ℚ) 9, ← zpow_add₀ hten,
        show (sixDigits x).2 - 5 + ((9 : Nat) : ℤ) = (e : ℤ) by push_cast; omega, zpow_natCast]
      push_cast
      rfl
    rw [hvalue]
    unfold roundTo
    rw [hscaled, roundEven_intCast, ← hscaled, mul_div_cancel_right₀ _ (by positivity)]

/-- A positive number is written as a decimal numeral of exactly its value just where it has six digits,
and is at least 0.0001 and less than a million. -/
theorem generalFormat_exact_iff (hx : 0 < x) :
    (∃ d : Decimal, d.text = bytesOf (generalFormat x) ∧ d.value = x) ↔
      HasDigits 6 x ∧ 1 / 10 ^ 4 ≤ x ∧ x < 10 ^ 6 := by
  have hlow : -4 ≤ Int.log 10 x ↔ 1 / 10 ^ 4 ≤ x := by
    rw [← Int.zpow_le_iff_le_log (by decide) hx]
    norm_num
  have hhigh : Int.log 10 x ≤ 5 ↔ x < 10 ^ 6 := by
    rw [← Int.lt_add_one_iff, ← Int.lt_zpow_iff_log_lt (by decide) hx]
    norm_num
  have hkept : ∀ {n : Nat}, scaledSix x = n → (sixDigits x).2 = Int.log 10 x := by
    intro n hn
    have hlt := (scaledSix_bounds hx).2
    rw [hn] at hlt
    have hsix : n ≠ 10 ^ 6 := by
      rintro rfl
      norm_num at hlt
    unfold sixDigits
    rw [hn, ← Int.cast_natCast, roundEven_intCast, Int.toNat_natCast, if_neg hsix]
  rw [hasDigits_six_iff hx, ← hlow, ← hhigh]
  constructor
  · rintro ⟨d, htext, hvalue⟩
    obtain ⟨hplain, hplain'⟩ := plain_of_text hx htext
    obtain ⟨d', htext', hvalue'⟩ := exists_plain hx hplain hplain'
    have hsame : sixValue x = x := by rw [← hvalue', Decimal.value_of_text (htext'.trans htext.symm), hvalue]
    have hinteger : scaledSix x = (roundEven (scaledSix x)).toNat := by
      have hround : scaledSix x = roundEven (scaledSix x) := by
        rw [sixValue_eq hx] at hsame
        exact (mul_right_cancel₀ (zpow_ne_zero _ (by norm_num)) (hsame.trans (scaledSix_mul x).symm)).symm
      rw [← Int.cast_natCast, Int.toNat_of_nonneg (rounded_nonneg hx)]
      exact hround
    rw [← hkept hinteger]
    exact ⟨⟨_, hinteger⟩, hplain, hplain'⟩
  · rintro ⟨⟨n, hn⟩, hfirst, hlast⟩
    have hexponent := hkept hn
    obtain ⟨d, htext, hvalue⟩ := exists_plain hx (hexponent ▸ hfirst) (hexponent ▸ hlast)
    refine ⟨d, htext, ?_⟩
    rw [hvalue, sixValue_eq hx, hn, ← Int.cast_natCast, roundEven_intCast, Int.cast_natCast, ← hn,
      scaledSix_mul]

end Numeral

end LatencyArb
