import LatencyArb.Library.Strtod

/-!
# `stod` and complete numerals

`stod` reads the number at the start of a text, as `strtod` does, whatever stands after it, and throws where
there is none or where the number is out of the range of the type. A text is a complete numeral when nothing
stands around the number.
-/

namespace LatencyArb

namespace Numeral

/-- The number at the start of a text, where there is one. -/
def number (s : List UInt8) : Option Double :=
  let (negative, t) := signed (s.dropWhile isSpace)
  if (t.take 3).map toLower = [105, 110, 102] then some (.inf negative)
  else if (t.take 3).map toLower = [110, 97, 110] then some (.nan negative)
  else
    let found := (scanHex t).or ((mantissa 10 isDigit t).map (fun _ => scanDecimal t))
    found.map (fun value => .finite (if negative then -value else value))

/-- The numbers for which `strtod` reports a range error: those too large, and those too small for the
normal doubles that are no double themselves. -/
def outOfRange (value : ℚ) : Bool :=
  decide (2 ^ 1024 - 2 ^ 970 ≤ |value|) ||
    decide (|value| < 1 / 2 ^ 1022 - 1 / 2 ^ 1076 ∧ (value * 2 ^ 1074).den ≠ 1)

/-- `stod`, with `none` where it throws. -/
def stod (s : List UInt8) : Option Double :=
  match number s with
  | some (.finite value) => if outOfRange value then none else some (.finite value)
  | other => other

/-- A numeral with an optional exponent; digits may be missing on one side of the point. -/
structure Scientific where
  sign : Sign
  whole : List UInt8
  fraction : Option (List UInt8)
  power : Option (UInt8 × IntNumeral)
  whole_valid : ∀ c ∈ whole, isDigit c = true
  fraction_valid : ∀ f ∈ fraction, ∀ c ∈ f, isDigit c = true
  some_digit : whole ++ fraction.getD [] ≠ []
  mark_valid : ∀ p ∈ power, p.1 = 101 ∨ p.1 = 69

namespace Scientific

variable (n : Scientific)

def fractionText : List UInt8 := n.fraction.elim [] (fun f => 46 :: f)

def fractionDigits : List UInt8 := n.fraction.getD []

def powerText : List UInt8 := n.power.elim [] (fun p => p.1 :: p.2.text)

def body : List UInt8 := n.whole ++ (n.fractionText ++ n.powerText)

def text : List UInt8 := n.sign.text ++ n.body

def exponent : ℤ := n.power.elim 0 (fun p => p.2.value)

def magnitude : ℚ :=
  digitsValue (n.whole ++ n.fractionDigits) / 10 ^ n.fractionDigits.length * 10 ^ n.exponent

def value : ℚ := n.sign.factor * n.magnitude

lemma fraction_digit {c : UInt8} (h : c ∈ n.fractionDigits) : isDigit c = true := by
  unfold fractionDigits at h
  match hfraction : n.fraction with
  | none => simp [hfraction] at h
  | some f =>
    rw [hfraction] at h
    exact n.fraction_valid f hfraction c h

/-- The characters of a numeral after its sign. -/
lemma mem_body {c : UInt8} (h : c ∈ n.body) :
    isDigit c = true ∨ c = 43 ∨ c = 45 ∨ c = 46 ∨ c = 69 ∨ c = 101 := by
  rcases List.mem_append.mp h with hwhole | hrest
  · exact .inl (n.whole_valid c hwhole)
  · rcases List.mem_append.mp hrest with hfraction | hpower
    · unfold fractionText at hfraction
      match hf : n.fraction with
      | none => simp [hf] at hfraction
      | some f =>
        simp only [hf, Option.elim_some, List.mem_cons] at hfraction
        rcases hfraction with hpoint | hdigit
        · exact .inr (.inr (.inr (.inl hpoint)))
        · exact .inl (n.fraction_valid f hf c hdigit)
    · unfold powerText at hpower
      match hp : n.power with
      | none => simp [hp] at hpower
      | some p =>
        simp only [hp, Option.elim_some, List.mem_cons] at hpower
        rcases hpower with rfl | hexponent
        · have hmark := n.mark_valid p hp
          tauto
        · have hc := IntNumeral.mem_text hexponent
          tauto

lemma mem_text {c : UInt8} (h : c ∈ n.text) :
    isDigit c = true ∨ c = 43 ∨ c = 45 ∨ c = 46 ∨ c = 69 ∨ c = 101 := by
  rcases List.mem_append.mp h with hsign | hbody
  · have hc := Sign.mem_text hsign
    tauto
  · exact n.mem_body hbody

/-- A numeral starts with a digit or its point. -/
lemma body_cons : ∃ c s, n.body = c :: s ∧ (isDigit c = true ∨ c = 46) := by
  unfold body
  match hwhole : n.whole with
  | c :: s => exact ⟨c, s ++ (n.fractionText ++ n.powerText), rfl, .inl (n.whole_valid c (by simp [hwhole]))⟩
  | [] =>
    match hfraction : n.fraction with
    | none =>
      have hsome := n.some_digit
      rw [hwhole, hfraction] at hsome
      exact absurd rfl hsome
    | some f =>
      refine ⟨46, f ++ n.powerText, ?_, .inr rfl⟩
      simp [fractionText, hfraction]

lemma toLower_body {c : UInt8} (h : c ∈ n.body) : toLower c ≠ 105 ∧ toLower c ≠ 110 ∧ toLower c ≠ 120 :=
  toLower_numeral (n.mem_body h)

lemma signed_body : signed (n.text.dropWhile isSpace) = (decide (n.sign = .minus), n.body) := by
  obtain ⟨c, s, hbody, hc⟩ := n.body_cons
  have hspace : isSpace c = false := by
    rcases hc with hdigit | rfl
    · exact not_space_of_digit hdigit
    · rfl
  have hplain : signed (c :: s) = (false, c :: s) := by
    rcases hc with hdigit | rfl
    · exact signed_of_digit hdigit s
    · rfl
  unfold text
  rw [hbody]
  cases n.sign with
  | none => simp [Sign.text, hspace, hplain]
  | plus => rfl
  | minus => rfl

/-- What follows the sign is no word and no hexadecimal number. -/
lemma scan_body :
    (n.body.take 3).map toLower ≠ [105, 110, 102] ∧ (n.body.take 3).map toLower ≠ [110, 97, 110] ∧
      scanHex n.body = none := by
  have hhex : scanHex n.body = none := scanHex_eq_none (fun c hc => (n.toLower_body hc).2.2)
  obtain ⟨c, s, hbody, -⟩ := n.body_cons
  obtain ⟨hi, hn, -⟩ := n.toLower_body (hbody ▸ List.mem_cons_self)
  obtain ⟨hinf, hnan⟩ := not_word (s := s) ⟨hi, hn⟩
  rw [hbody] at hhex ⊢
  exact ⟨hinf, hnan, hhex⟩

lemma powerText_head : n.powerText = [] ∨ ∃ c t, n.powerText = c :: t ∧ isDigit c = false ∧ c ≠ 46 := by
  unfold powerText
  match hp : n.power with
  | none => exact .inl rfl
  | some p =>
    refine .inr ⟨p.1, p.2.text, rfl, ?_⟩
    rcases n.mark_valid p hp with hmark | hmark
    · rw [hmark]
      decide
    · rw [hmark]
      decide

lemma mantissa_body : mantissa 10 isDigit n.body =
    some (digitsValue (n.whole ++ n.fractionDigits), n.fractionDigits.length, n.powerText) := by
  have hboth : ∀ c ∈ n.whole ++ n.fractionDigits, isDigit c = true := by
    intro c hc
    rcases List.mem_append.mp hc with hc | hc
    · exact n.whole_valid c hc
    · exact n.fraction_digit hc
  have hsome : n.whole ++ n.fractionDigits ≠ [] := n.some_digit
  have hpower : n.powerText = [] ∨ ∃ c t, n.powerText = c :: t ∧ isDigit c = false := by
    obtain hnil | ⟨c, t, hcons, hc, -⟩ := n.powerText_head
    · exact .inl hnil
    · exact .inr ⟨c, t, hcons, hc⟩
  match hfraction : n.fraction with
  | none =>
    have htext : n.fractionText = [] := by simp [fractionText, hfraction]
    have hdigits : n.fractionDigits = [] := by simp [fractionDigits, hfraction]
    obtain ⟨htake, hdrop⟩ := span_digits n.whole_valid hpower
    have hpoint : ∀ t, n.powerText ≠ 46 :: t := by
      intro t ht
      obtain hnil | ⟨c, t', hcons, -, hc⟩ := n.powerText_head
      · rw [hnil] at ht
        cases ht
      · rw [hcons] at ht
        exact hc (List.cons.inj ht).1
    rw [hdigits] at hsome hboth ⊢
    unfold mantissa body
    rw [htext, List.nil_append, htake, hdrop]
    split
    rename_i fraction rest heq
    split at heq
    · rename_i t ht
      exact absurd ht (hpoint t)
    · obtain ⟨rfl, rfl⟩ := Prod.mk.inj heq
      rw [if_neg hsome, foldl_digitOf hboth]
  | some f =>
    have htext : n.fractionText = 46 :: f := by simp [fractionText, hfraction]
    have hdigits : n.fractionDigits = f := by simp [fractionDigits, hfraction]
    rw [hdigits] at hsome hboth ⊢
    have hpoint : 46 :: (f ++ n.powerText) = [] ∨
        ∃ c t, 46 :: (f ++ n.powerText) = c :: t ∧ isDigit c = false := .inr ⟨46, _, rfl, by decide⟩
    obtain ⟨htake, hdrop⟩ := span_digits n.whole_valid hpoint
    obtain ⟨hftake, hfdrop⟩ := span_digits (n.fraction_valid f hfraction) hpower
    unfold mantissa body
    simp only [htext, List.cons_append, htake, hdrop, hftake, hfdrop, hsome, if_false, foldl_digitOf hboth]

lemma exponent_powerText : Numeral.exponent 101 n.powerText = n.exponent := by
  unfold powerText exponent
  match hp : n.power with
  | none => rfl
  | some p =>
    have hmark : toLower p.1 = 101 := by
      rcases n.mark_valid p hp with h | h
      · rw [h]
        decide
      · rw [h]
        decide
    obtain ⟨hne, hall⟩ := isDigits_iff.mp p.2.valid
    obtain ⟨c, s, hcons⟩ := List.exists_cons_of_ne_nil hne
    have hsigned : signed p.2.text = (decide (p.2.sign = .minus), p.2.digits) := by
      have hplain := signed_of_digit (hall c (hcons ▸ List.mem_cons_self)) s
      unfold IntNumeral.text
      rw [hcons]
      cases p.2.sign with
      | none => exact hplain
      | plus => rfl
      | minus => rfl
    have htake : p.2.digits.takeWhile isDigit = p.2.digits := List.takeWhile_eq_self_iff.mpr hall
    unfold Numeral.exponent
    simp only [Option.elim_some, hsigned, htake, hmark, ne_eq, not_true_eq_false, if_false]
    unfold IntNumeral.value
    cases p.2.sign <;> simp [Sign.factor]

/-- The value of a complete numeral is read. -/
theorem number_text : number n.text = some (.finite n.value) := by
  obtain ⟨hinf, hnan, hhex⟩ := n.scan_body
  have hscan : scanDecimal n.body = n.magnitude := by
    unfold scanDecimal
    rw [n.mantissa_body]
    simp only [n.exponent_powerText]
    rfl
  unfold number
  simp only [n.signed_body, hinf, hnan, hhex, hscan, n.mantissa_body, if_false, Option.none_or, Option.map_some]
  unfold value
  cases n.sign <;> simp [Sign.factor]

theorem stod_text : stod n.text = if outOfRange n.value then none else some (.finite n.value) := by
  unfold stod
  rw [n.number_text]

/-- The text of a numeral has one value. -/
lemma value_of_text {n n' : Scientific} (h : n.text = n'.text) : n.value = n'.value := by
  have hsame := n.number_text
  rw [h, n'.number_text] at hsame
  simpa using hsame.symm

/-- A decimal is a numeral without an exponent. -/
def ofDecimal (d : Decimal) : Scientific where
  sign := d.sign
  whole := d.whole
  fraction := d.fraction
  power := none
  whole_valid := (isDigits_iff.mp d.whole_valid).2
  fraction_valid f hf := (isDigits_iff.mp (d.fraction_valid f hf)).2
  some_digit h := (isDigits_iff.mp d.whole_valid).1 (List.append_eq_nil_iff.mp h).1
  mark_valid := by simp

lemma no_fraction_valid : ∀ f ∈ (none : Option (List UInt8)), isDigits f = true := by
  rintro f ⟨⟩

/-- So is an integer. -/
def ofInteger (i : IntNumeral) : Scientific :=
  ofDecimal {
    sign := i.sign, whole := i.digits, fraction := none, whole_valid := i.valid, fraction_valid := no_fraction_valid }

lemma ofDecimal_text (d : Decimal) : (ofDecimal d).text = d.text := by
  unfold text body powerText
  rw [show (ofDecimal d).power = none by rfl, Option.elim_none, List.append_nil]
  rfl

lemma ofDecimal_value (d : Decimal) : (ofDecimal d).value = d.value := by
  unfold value magnitude exponent
  rw [show (ofDecimal d).power = none by rfl, Option.elim_none, zpow_zero, mul_one]
  rfl

lemma ofInteger_text (i : IntNumeral) : (ofInteger i).text = i.text := by
  rw [ofInteger, ofDecimal_text]
  exact congrArg (i.sign.text ++ ·) (List.append_nil i.digits)

lemma ofInteger_value (i : IntNumeral) : (ofInteger i).value = i.value := by
  rw [ofInteger, ofDecimal_value]
  unfold Decimal.value Decimal.magnitude Decimal.fractionDigits IntNumeral.value
  simp

end Scientific

/-- A decimal of at most 300 places is in the range of the type if it is not too large. -/
lemma outOfRange_decimal {places : Nat} (hplaces : places ≤ 300) (n : ℤ) (h : |(n : ℚ) / 10 ^ places| < 2 ^ 1000) :
    outOfRange (n / 10 ^ places) = false := by
  unfold outOfRange
  rw [Bool.or_eq_false_iff, decide_eq_false_iff_not, decide_eq_false_iff_not]
  constructor
  · have hlarge : (2 : ℚ) ^ 1000 ≤ 2 ^ 1024 - 2 ^ 970 := by decide +kernel
    exact not_le.mpr (h.trans_le hlarge)
  · rintro ⟨hsmall, hden⟩
    by_cases hzero : n = 0
    · rw [hzero, Int.cast_zero, zero_div, zero_mul] at hden
      exact hden rfl
    · have hone : (1 : ℚ) ≤ |(n : ℚ)| := by
        rw [← Int.cast_abs]
        exact_mod_cast Int.one_le_abs hzero
      have hpow : (10 : ℚ) ^ places ≤ 10 ^ 300 := pow_le_pow_right₀ (by norm_num) hplaces
      have hleast : (1 : ℚ) / 10 ^ 300 ≤ |(n : ℚ) / 10 ^ places| := by
        rw [abs_div, abs_of_pos (by positivity : (0 : ℚ) < 10 ^ places)]
        exact div_le_div₀ (abs_nonneg _) hone (by positivity) hpow
      have hgap : (1 : ℚ) / 2 ^ 1022 - 1 / 2 ^ 1076 < 1 / 10 ^ 300 := by decide +kernel
      exact absurd (hsmall.trans hgap) (not_lt.mpr hleast)

end Numeral

end LatencyArb
