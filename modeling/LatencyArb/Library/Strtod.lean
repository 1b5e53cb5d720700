import LatencyArb.Library.Numeral

/-!
# `strtod`, `atoll` and the doubles they give

The conversions of the C library (in its own locale) read the longest numeral at the start of a text and
never fail. A double is an exact number within the range of the type.
-/

namespace LatencyArb

namespace Numeral

inductive Double where
  | finite (value : ℚ)
  | inf (negative : Bool)
  | nan (negative : Bool)
  deriving DecidableEq

namespace Double

/-- The comparison `0 < x`. -/
def isPos : Double → Bool
  | finite value => decide (0 < value)
  | inf negative => !negative
  | nan _ => false

/-- The comparison `x <= y`. -/
def le : Double → Double → Bool
  | nan _, _ => false
  | _, nan _ => false
  | finite x, finite y => decide (x ≤ y)
  | finite _, inf negative => !negative
  | inf negative, finite _ => negative
  | inf negative, inf negative' => negative || !negative'

/-- Beyond the range of the type a number overflows to infinity or vanishes. -/
def ofRat (value : ℚ) : Double :=
  if 2 ^ 1024 - 2 ^ 970 ≤ |value| then inf (decide (value < 0))
  else if |value| ≤ 1 / 2 ^ 1075 then finite 0
  else finite value

end Double

def isSpace (c : UInt8) : Bool := decide (c = 32 ∨ 9 ≤ c ∧ c ≤ 13)

def toLower (c : UInt8) : UInt8 := if 65 ≤ c ∧ c ≤ 90 then c + 32 else c

def isHexDigit (c : UInt8) : Bool := isDigit c || decide (97 ≤ toLower c ∧ toLower c ≤ 102)

def digitOf (c : UInt8) : Nat := if isDigit c then c.toNat - 48 else (toLower c).toNat - 87

/-- Whether a sign makes the number negative, and the text after it. -/
def signed : List UInt8 → Bool × List UInt8
  | 43 :: s => (false, s)
  | 45 :: s => (true, s)
  | s => (false, s)

/-- The digits around a point, of which there must be some: their number, how many stand after the point,
and the text after them. -/
def mantissa (base : Nat) (digit : UInt8 → Bool) (s : List UInt8) : Option (Nat × Nat × List UInt8) :=
  let whole := s.takeWhile digit
  let (fraction, rest) :=
    match s.dropWhile digit with
    | 46 :: t => (t.takeWhile digit, t.dropWhile digit)
    | t => ([], t)
  if whole ++ fraction = [] then none
  else some ((whole ++ fraction).foldl (fun n c => base * n + digitOf c) 0, fraction.length, rest)

/-- The exponent after its mark, 0 where there is none. -/
def exponent (mark : UInt8) : List UInt8 → ℤ
  | [] => 0
  | c :: s =>
    let (negative, t) := signed s
    let digits := t.takeWhile isDigit
    if toLower c ≠ mark then 0 else if negative then -digitsValue digits else digitsValue digits

def scanDecimal (s : List UInt8) : ℚ :=
  match mantissa 10 isDigit s with
  | none => 0
  | some (n, places, rest) => n / 10 ^ places * 10 ^ exponent 101 rest

/-- A hexadecimal number, where there is one after its `0x`. -/
def scanHex : List UInt8 → Option ℚ
  | 48 :: x :: s =>
    if toLower x = 120 then
      (mantissa 16 isHexDigit s).map (fun (n, places, rest) => n / 16 ^ places * 2 ^ exponent 112 rest)
    else none
  | _ => none

def strtod (s : List UInt8) : Double :=
  let (negative, t) := signed (s.dropWhile isSpace)
  if (t.take 3).map toLower = [105, 110, 102] then .inf negative
  else if (t.take 3).map toLower = [110, 97, 110] then .nan negative
  else
    let value := (scanHex t).getD (scanDecimal t)
    .ofRat (if negative then -value else value)

def atoll (s : List UInt8) : ℤ :=
  let (negative, t) := signed (s.dropWhile isSpace)
  let n : ℤ := digitsValue (t.takeWhile isDigit)
  max (-2 ^ 63) (min (2 ^ 63 - 1) (if negative then -n else n))

/-! ## On numerals -/

lemma isDigit_bounds {c : UInt8} (h : isDigit c = true) : 48 ≤ c.toNat ∧ c.toNat ≤ 57 := by
  simpa [isDigit, UInt8.le_iff_toNat_le] using h

lemma toLower_digit {c : UInt8} (h : isDigit c = true) : toLower c = c := by
  have hbounds := isDigit_bounds h
  unfold toLower
  rw [if_neg]
  rw [UInt8.le_iff_toNat_le]
  intro hupper
  have hlow : 65 ≤ c.toNat := hupper.1
  omega

lemma digitOf_digit {c : UInt8} (h : isDigit c = true) : digitOf c = c.toNat - 48 := if_pos h

lemma ne_of_digit {c d : UInt8} (h : isDigit c = true) (hd : isDigit d = false) : c ≠ d := by
  rintro rfl
  rw [h] at hd
  cases hd

lemma not_space_of_digit {c : UInt8} (h : isDigit c = true) : isSpace c = false := by
  have hbounds := isDigit_bounds h
  simp only [isSpace, decide_eq_false_iff_not, UInt8.le_iff_toNat_le, not_or, not_and, not_le]
  constructor
  · exact ne_of_digit h (by decide)
  · intro _
    show 13 < c.toNat
    omega

lemma signed_of_digit {c : UInt8} (h : isDigit c = true) (s : List UInt8) :
    signed (c :: s) = (false, c :: s) := by
  unfold signed
  split
  · rename_i heq
    rw [(List.cons.inj heq).1] at h
    cases h
  · rename_i heq
    rw [(List.cons.inj heq).1] at h
    cases h
  · rfl

/-- A sign is read off the digits that follow it. -/
lemma signed_text (sign : Sign) {c : UInt8} (h : isDigit c = true) (s : List UInt8) :
    signed ((sign.text ++ c :: s).dropWhile isSpace) = (decide (sign = .minus), c :: s) := by
  cases sign with
  | none =>
    have hspace := not_space_of_digit h
    simp [Sign.text, hspace, signed_of_digit h]
  | plus => rfl
  | minus => rfl

/-- The digits in front of a text that does not go on with one. -/
lemma span_digits {digits rest : List UInt8} (h : ∀ c ∈ digits, isDigit c = true)
    (hrest : rest = [] ∨ ∃ c t, rest = c :: t ∧ isDigit c = false) :
    (digits ++ rest).takeWhile isDigit = digits ∧ (digits ++ rest).dropWhile isDigit = rest := by
  rw [List.takeWhile_append_of_pos h, List.dropWhile_append_of_pos h]
  rcases hrest with rfl | ⟨c, t, rfl, hc⟩
  · simp
  · simp [hc]

lemma takeWhile_digits {digits rest : List UInt8} (h : isDigits digits = true)
    (hrest : rest = [] ∨ ∃ c t, rest = c :: t ∧ isDigit c = false) :
    (digits ++ rest).takeWhile isDigit = digits ∧ (digits ++ rest).dropWhile isDigit = rest :=
  span_digits (isDigits_iff.mp h).2 hrest

/-- No character of a numeral is one of the letters of `inf`, `nan` and `0x`. -/
lemma toLower_numeral {c : UInt8} (h : isDigit c = true ∨ c = 43 ∨ c = 45 ∨ c = 46 ∨ c = 69 ∨ c = 101) :
    toLower c ≠ 105 ∧ toLower c ≠ 110 ∧ toLower c ≠ 120 := by
  rcases h with hdigit | rfl | rfl | rfl | rfl | rfl
  · rw [toLower_digit hdigit]
    exact ⟨ne_of_digit hdigit (by decide), ne_of_digit hdigit (by decide), ne_of_digit hdigit (by decide)⟩
  all_goals decide

/-- A text that begins with neither of the letters is no word. -/
lemma not_word {c : UInt8} {s : List UInt8} (h : toLower c ≠ 105 ∧ toLower c ≠ 110) :
    ((c :: s).take 3).map toLower ≠ [105, 110, 102] ∧ ((c :: s).take 3).map toLower ≠ [110, 97, 110] :=
  ⟨fun hinf => h.1 (List.cons.inj hinf).1, fun hnan => h.2 (List.cons.inj hnan).1⟩

/-- A text without the letter is no hexadecimal number. -/
lemma scanHex_eq_none {s : List UInt8} (h : ∀ c ∈ s, toLower c ≠ 120) : scanHex s = none := by
  unfold scanHex
  split
  · rw [if_neg (h _ (List.mem_cons_of_mem _ List.mem_cons_self))]
  · rfl

lemma foldl_digitOf {digits : List UInt8} (h : ∀ c ∈ digits, isDigit c = true) :
    digits.foldl (fun n c => 10 * n + digitOf c) 0 = digitsValue digits := by
  apply List.foldl_ext
  intro n c hc
  rw [digitOf_digit (h c hc)]

namespace Decimal

variable (d : Decimal)

lemma whole_cons : ∃ c s, d.whole = c :: s ∧ isDigit c = true := by
  obtain ⟨hne, hall⟩ := isDigits_iff.mp d.whole_valid
  obtain ⟨c, s, hcons⟩ := List.exists_cons_of_ne_nil hne
  exact ⟨c, s, hcons, hall c (hcons ▸ List.mem_cons_self)⟩

lemma mantissa_text : mantissa 10 isDigit (d.whole ++ d.fractionText) =
    some (digitsValue (d.whole ++ d.fractionDigits), d.fractionDigits.length, []) := by
  have hne := (isDigits_iff.mp d.whole_valid).1
  have hall := (isDigits_iff.mp d.whole_valid).2
  match hfraction : d.fraction with
  | none =>
    have htext : d.fractionText = [] := by simp [fractionText, hfraction]
    have hdigits : d.fractionDigits = [] := by simp [fractionDigits, hfraction]
    obtain ⟨htake, hdrop⟩ := takeWhile_digits d.whole_valid (.inl rfl)
    rw [List.append_nil] at htake hdrop
    unfold mantissa
    simp only [htext, List.append_nil, htake, hdrop, hdigits, hne, if_false, foldl_digitOf hall]
  | some f =>
    have hf := d.fraction_valid f hfraction
    have htext : d.fractionText = 46 :: f := by simp [fractionText, hfraction]
    have hdigits : d.fractionDigits = f := by simp [fractionDigits, hfraction]
    obtain ⟨htake, hdrop⟩ := takeWhile_digits d.whole_valid (.inr ⟨46, f, htext, by decide⟩)
    obtain ⟨hftake, hfdrop⟩ := takeWhile_digits hf (.inl rfl)
    rw [List.append_nil] at hftake hfdrop
    have hboth : ∀ c ∈ d.whole ++ f, isDigit c = true := by
      intro c hc
      rcases List.mem_append.mp hc with hc | hc
      · exact hall c hc
      · exact (isDigits_iff.mp hf).2 c hc
    unfold mantissa
    simp only [htake, hdrop]
    simp only [htext, hftake, hfdrop, hdigits, List.append_eq_nil_iff, hne, false_and, if_false,
      foldl_digitOf hboth]

lemma toLower_text {c : UInt8} (h : c ∈ d.text) :
    toLower c ≠ 105 ∧ toLower c ≠ 110 ∧ toLower c ≠ 120 := by
  have hc := mem_text h
  exact toLower_numeral (by tauto)

/-- What follows the sign is no word and no hexadecimal number. -/
lemma scan_text :
    ((d.whole ++ d.fractionText).take 3).map toLower ≠ [105, 110, 102] ∧
      ((d.whole ++ d.fractionText).take 3).map toLower ≠ [110, 97, 110] ∧
      scanHex (d.whole ++ d.fractionText) = none := by
  have hlower : ∀ c ∈ d.whole ++ d.fractionText, toLower c ≠ 105 ∧ toLower c ≠ 110 ∧ toLower c ≠ 120 :=
    fun c hc => d.toLower_text (List.mem_append_right _ hc)
  have hhex : scanHex (d.whole ++ d.fractionText) = none := scanHex_eq_none (fun c hc => (hlower c hc).2.2)
  obtain ⟨c, s, hcons, -⟩ := d.whole_cons
  rw [hcons] at hlower hhex ⊢
  obtain ⟨hi, hn, -⟩ := hlower c List.mem_cons_self
  obtain ⟨hinf, hnan⟩ := not_word (s := s ++ d.fractionText) ⟨hi, hn⟩
  exact ⟨hinf, hnan, hhex⟩

/-- The value of a decimal numeral is read. -/
theorem strtod_text : strtod d.text = .ofRat d.value := by
  obtain ⟨hinf, hnan, hhex⟩ := d.scan_text
  obtain ⟨c, s, hcons, hc⟩ := d.whole_cons
  have hsigned := signed_text d.sign hc (s ++ d.fractionText)
  rw [← List.cons_append, ← hcons] at hsigned
  have hscan : scanDecimal (d.whole ++ d.fractionText) = d.magnitude := by
    unfold scanDecimal
    rw [d.mantissa_text]
    simp [exponent, magnitude]
  unfold strtod text
  simp only [hsigned, hinf, hnan, hhex, hscan, if_false, Option.getD_none]
  unfold value
  cases d.sign <;> simp [Sign.factor]

/-- The text of a decimal has one value. -/
lemma value_of_text {d d' : Decimal} (h : d.text = d'.text) : d.value = d'.value := by
  have hsigned : ∀ d : Decimal, signed (d.text.dropWhile isSpace) =
      (decide (d.sign = .minus), d.whole ++ d.fractionText) := by
    intro d
    obtain ⟨c, s, hcons, hc⟩ := d.whole_cons
    have hd := signed_text d.sign hc (s ++ d.fractionText)
    rw [← List.cons_append, ← hcons] at hd
    exact hd
  have hsame := hsigned d
  rw [h, hsigned d', Prod.mk.injEq] at hsame
  have hmantissa := d.mantissa_text
  rw [← hsame.2, d'.mantissa_text, Option.some.injEq, Prod.mk.injEq, Prod.mk.injEq] at hmantissa
  have hfactor : d.sign.factor = d'.sign.factor := by
    have hminus := hsame.1
    cases hs : d.sign <;> cases hs' : d'.sign <;> simp_all [Sign.factor]
  unfold value magnitude
  rw [hfactor, ← hmantissa.1, hmantissa.2.1]

end Decimal

/-- What `atoll` reads of a decimal numeral is its whole part. -/
lemma atoll_decimal (d : Decimal) : atoll d.text =
    max (-2 ^ 63) (min (2 ^ 63 - 1) (d.sign.factor * digitsValue d.whole)) := by
  obtain ⟨c, s, hcons, hc⟩ := d.whole_cons
  have hsigned := signed_text d.sign hc (s ++ d.fractionText)
  rw [← List.cons_append, ← hcons] at hsigned
  have hrest : d.fractionText = [] ∨ ∃ c t, d.fractionText = c :: t ∧ isDigit c = false := by
    unfold Decimal.fractionText
    cases d.fraction with
    | none => exact .inl rfl
    | some f => exact .inr ⟨46, f, rfl, by decide⟩
  have htake := (takeWhile_digits d.whole_valid hrest).1
  unfold atoll Decimal.text
  simp only [hsigned, htake]
  cases d.sign <;> simp [Sign.factor]

namespace IntNumeral

/-- The numeral as a decimal without a fraction. -/
def decimal (i : IntNumeral) : Decimal := ⟨i.sign, i.digits, none, i.valid, by simp⟩

lemma decimal_text (i : IntNumeral) : i.decimal.text = i.text := by
  unfold Decimal.text Decimal.fractionText
  show i.sign.text ++ (i.digits ++ []) = i.text
  rw [List.append_nil]
  rfl

lemma decimal_value (i : IntNumeral) : i.decimal.value = i.value := by
  unfold Decimal.value Decimal.magnitude Decimal.fractionDigits value
  show (i.sign.factor : ℚ) * (digitsValue (i.digits ++ []) / 10 ^ ([] : List UInt8).length) = _
  simp

lemma strtod_text (i : IntNumeral) : strtod i.text = .ofRat i.value := by
  rw [← decimal_text, Decimal.strtod_text, decimal_value]

end IntNumeral

theorem atoll_text {i : IntNumeral} (hlow : -2 ^ 63 ≤ i.value) (hhigh : i.value < 2 ^ 63) :
    atoll i.text = i.value := by
  have hvalue : i.decimal.sign.factor * (digitsValue i.decimal.whole : ℤ) = i.value := rfl
  rw [← i.decimal_text, atoll_decimal, hvalue]
  omega

/-- A number of the size of prices and times is not changed. -/
lemma Double.ofRat_eq {x : ℚ} (hbound : |x| < 10 ^ 21) (hsmall : x = 0 ∨ 1 / 10 ^ 64 ≤ |x|) :
    ofRat x = finite x := by
  have hbig : (10 : ℚ) ^ 21 ≤ 2 ^ 1024 - 2 ^ 970 := by decide +kernel
  have htiny : (1 : ℚ) / 2 ^ 1075 < 1 / 10 ^ 64 := by decide +kernel
  unfold ofRat
  rw [if_neg (not_le.mpr (hbound.trans_le hbig))]
  rcases hsmall with rfl | hlow
  · exact ite_self (finite 0)
  · rw [if_neg (not_le.mpr (htiny.trans_le hlow))]

/-! ## Behind a NUL -/

section Nul

variable {q : UInt8 → Bool} (s rest : List UInt8)

lemma takeWhile_nul (hq : q 0 = false) : (s ++ 0 :: rest).takeWhile q = s.takeWhile q := by
  induction s with
  | nil => simp [hq]
  | cons c s ih =>
    rw [List.cons_append, List.takeWhile_cons, List.takeWhile_cons, ih]

lemma dropWhile_nul (hq : q 0 = false) : (s ++ 0 :: rest).dropWhile q = s.dropWhile q ++ 0 :: rest := by
  induction s with
  | nil => simp [hq]
  | cons c s ih =>
    rw [List.cons_append, List.dropWhile_cons, List.dropWhile_cons, ih]
    split <;> rfl

lemma signed_nul : signed (s ++ 0 :: rest) = ((signed s).1, (signed s).2 ++ 0 :: rest) := by
  match s with
  | [] => rfl
  | c :: s =>
    by_cases hplus : c = 43
    · rw [hplus]
      rfl
    · by_cases hminus : c = 45
      · rw [hminus]
        rfl
      · simp [signed, hplus, hminus]

lemma mantissa_nul {base : Nat} (hq : q 0 = false) : mantissa base q (s ++ 0 :: rest) =
    (mantissa base q s).map (fun (n, places, t) => (n, places, t ++ 0 :: rest)) := by
  unfold mantissa
  rw [takeWhile_nul s rest hq, dropWhile_nul s rest hq]
  match s.dropWhile q with
  | [] =>
    by_cases hne : s.takeWhile q = []
    · simp [hne]
    · simp [hne]
  | c :: t =>
    by_cases hpoint : c = 46
    · simp only [hpoint, List.cons_append, takeWhile_nul t rest hq, dropWhile_nul t rest hq]
      split <;> rfl
    · by_cases hne : s.takeWhile q = []
      · simp [hpoint, hne]
      · simp [hpoint, hne]

lemma exponent_nul {mark : UInt8} (hmark : mark ≠ 0) : exponent mark (s ++ 0 :: rest) = exponent mark s := by
  match s with
  | [] =>
    have hlower : toLower 0 ≠ mark := hmark.symm
    simp [exponent, hlower]
  | c :: s =>
    simp only [List.cons_append, exponent, signed_nul s rest, takeWhile_nul _ rest (by decide : isDigit 0 = false)]

lemma scanDecimal_nul : scanDecimal (s ++ 0 :: rest) = scanDecimal s := by
  unfold scanDecimal
  rw [mantissa_nul s rest (by decide)]
  cases mantissa 10 isDigit s with
  | none => rfl
  | some r =>
    obtain ⟨n, places, t⟩ := r
    simp only [Option.map_some, exponent_nul t rest (by decide : (101 : UInt8) ≠ 0)]

lemma scanHex_nul : scanHex (s ++ 0 :: rest) = scanHex s := by
  match s with
  | [] => rfl
  | [c] =>
    by_cases hc : c = 48
    · rw [hc]
      rfl
    · simp [scanHex, hc]
  | c :: x :: t =>
    by_cases hc : c = 48
    · simp only [hc, List.cons_append, scanHex, mantissa_nul t rest (by decide : isHexDigit 0 = false)]
      split
      · cases mantissa 16 isHexDigit t with
        | none => rfl
        | some r =>
          obtain ⟨n, places, u⟩ := r
          simp only [Option.map_some, exponent_nul u rest (by decide : (112 : UInt8) ≠ 0)]
      · rfl
    · simp [scanHex, hc]

/-- No word of three letters reaches over a NUL. -/
lemma word_nul {word : List UInt8} (hword : 0 ∉ word) (hlength : word.length = 3) :
    ((s ++ 0 :: rest).take 3).map toLower = word ↔ (s.take 3).map toLower = word := by
  by_cases hs : 3 ≤ s.length
  · rw [List.take_append_of_le_length hs]
  · constructor
    · intro h
      refine absurd ?_ hword
      rw [← h, List.take_append, List.map_append]
      apply List.mem_append_right
      obtain ⟨k, hk⟩ : ∃ k, 3 - s.length = k + 1 := ⟨2 - s.length, by omega⟩
      rw [hk, List.take_succ_cons, List.map_cons]
      exact List.mem_cons_self
    · intro h
      have hshort := congrArg List.length h
      rw [List.length_map, List.length_take, hlength] at hshort
      omega

/-- `strtod` does not read on behind a NUL. -/
theorem strtod_nul : strtod (s ++ 0 :: rest) = strtod s := by
  unfold strtod
  rw [dropWhile_nul s rest (by decide), signed_nul]
  simp only [word_nul _ rest (by decide : (0 : UInt8) ∉ [105, 110, 102]) rfl,
    word_nul _ rest (by decide : (0 : UInt8) ∉ [110, 97, 110]) rfl, scanHex_nul, scanDecimal_nul]

/-- `atoll` does not read on behind a NUL. -/
theorem atoll_nul : atoll (s ++ 0 :: rest) = atoll s := by
  unfold atoll
  rw [dropWhile_nul s rest (by decide), signed_nul]
  simp only [takeWhile_nul _ rest (by decide : isDigit 0 = false)]

end Nul

end Numeral

end LatencyArb
