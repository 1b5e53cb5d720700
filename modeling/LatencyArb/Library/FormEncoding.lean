import Mathlib

/-!
# Forms of key-value pairs

The values of a form are percent-encoded, so that no separator stands in them, and a text that is split at
the separators and decoded has the pairs it was made of.
-/

namespace LatencyArb

namespace FormEncoding

/-- A digit of `0123456789ABCDEF`. -/
def hexChar (n : UInt8) : UInt8 := if n < 10 then 48 + n else 55 + n

def hexValue (c : UInt8) : Option UInt8 :=
  if 48 ≤ c ∧ c ≤ 57 then some (c - 48)
  else if 65 ≤ c ∧ c ≤ 70 then some (c - 55)
  else if 97 ≤ c ∧ c ≤ 102 then some (c - 87)
  else none

/-- The bytes that are not `plain` are encoded. -/
def percentEncode (plain : UInt8 → Bool) (s : List UInt8) : List UInt8 :=
  s.flatMap (fun c => if plain c then [c] else [37, hexChar (c >>> 4), hexChar (c &&& 15)])

def percentDecode : List UInt8 → Option (List UInt8)
  | [] => some []
  | 37 :: high :: low :: s => do
    let h ← hexValue high
    let l ← hexValue low
    let rest ← percentDecode s
    some ((h * 16 + l) :: rest)
  | c :: s => if c = 37 then none else (percentDecode s).map (c :: ·)

/-- A part of a form, cut at its first `=`. -/
def readPart (part : List UInt8) : Option (List UInt8 × List UInt8) :=
  (percentDecode (part.dropWhile (fun c => decide (c ≠ 61))).tail).map
    (fun value => (part.takeWhile (fun c => decide (c ≠ 61)), value))

/-- The pairs of a form. -/
def readForm (text : List UInt8) : Option (List (List UInt8 × List UInt8)) := (text.splitOn 38).mapM readPart

def writePart (plain : UInt8 → Bool) (pair : List UInt8 × List UInt8) : List UInt8 :=
  pair.1 ++ 61 :: percentEncode plain pair.2

def writeForm (plain : UInt8 → Bool) (pairs : List (List UInt8 × List UInt8)) : List UInt8 :=
  [38].intercalate (pairs.map (writePart plain))

/-! ## A byte -/

lemma hexValue_hexChar {n : UInt8} (h : n.toNat < 16) : hexValue (hexChar n) = some n := by
  obtain ⟨k, hk, rfl⟩ : ∃ k < 16, n = UInt8.ofNat k := ⟨n.toNat, h, UInt8.ofNat_toNat.symm⟩
  interval_cases k <;> rfl

lemma hexChar_ge {n : UInt8} (h : n.toNat < 16) : 48 ≤ (hexChar n).toNat := by
  obtain ⟨k, hk, rfl⟩ : ∃ k < 16, n = UInt8.ofNat k := ⟨n.toNat, h, UInt8.ofNat_toNat.symm⟩
  interval_cases k <;> decide

lemma high_toNat (c : UInt8) : (c >>> 4).toNat = c.toNat / 16 := by
  rw [UInt8.toNat_shiftRight]
  exact Nat.shiftRight_eq_div_pow c.toNat 4

lemma low_toNat (c : UInt8) : (c &&& 15).toNat = c.toNat % 16 := by
  rw [UInt8.toNat_and]
  exact Nat.and_two_pow_sub_one_eq_mod c.toNat 4

lemma high_lt (c : UInt8) : (c >>> 4).toNat < 16 := by
  have hlt : c.toNat < 256 := c.toNat_lt
  rw [high_toNat]
  omega

lemma low_lt (c : UInt8) : (c &&& 15).toNat < 16 := by
  rw [low_toNat]
  omega

/-- The two digits of a byte give the byte. -/
lemma digits_byte (c : UInt8) : (c >>> 4) * 16 + (c &&& 15) = c := by
  have hlt : c.toNat < 256 := c.toNat_lt
  apply UInt8.toNat_inj.mp
  rw [UInt8.toNat_add, UInt8.toNat_mul, high_toNat, low_toNat, show (16 : UInt8).toNat = 16 from rfl]
  omega

/-! ## A value -/

variable {plain : UInt8 → Bool}

lemma percentEncode_cons (c : UInt8) (s : List UInt8) : percentEncode plain (c :: s) =
    (if plain c then [c] else [37, hexChar (c >>> 4), hexChar (c &&& 15)]) ++ percentEncode plain s :=
  List.flatMap_cons

lemma percentDecode_cons {c : UInt8} (h : c ≠ 37) (s : List UInt8) :
    percentDecode (c :: s) = (percentDecode s).map (c :: ·) := by
  rw [percentDecode.eq_def]
  split
  · rename_i heq
    cases heq
  · rename_i heq
    exact absurd (List.cons.inj heq).1 h
  · rename_i heq
    obtain ⟨rfl, rfl⟩ := List.cons.inj heq
    exact if_neg h

/-- What is encoded is decoded to what it was. -/
theorem percentDecode_encode (hmark : plain 37 = false) (s : List UInt8) :
    percentDecode (percentEncode plain s) = some s := by
  induction s with
  | nil => rfl
  | cons c s ih =>
    rw [percentEncode_cons]
    by_cases hplain : plain c = true
    · have hne : c ≠ 37 := by
        rintro rfl
        rw [hmark] at hplain
        cases hplain
      rw [if_pos hplain, List.singleton_append, percentDecode_cons hne, ih]
      rfl
    · rw [if_neg hplain]
      show (hexValue (hexChar (c >>> 4))).bind (fun h => (hexValue (hexChar (c &&& 15))).bind (fun l =>
        (percentDecode (percentEncode plain s)).bind (fun rest => some ((h * 16 + l) :: rest)))) = _
      rw [hexValue_hexChar (high_lt c), hexValue_hexChar (low_lt c), ih]
      simp only [Option.bind_some, digits_byte]

/-- The separators do not stand in what is encoded. -/
lemma sep_notMem_encode (hsep : plain 38 = false) (s : List UInt8) : 38 ∉ percentEncode plain s := by
  intro hmem
  obtain ⟨c, -, hc⟩ := List.mem_flatMap.mp hmem
  by_cases hplain : plain c = true
  · rw [if_pos hplain, List.mem_singleton] at hc
    rw [← hc, hsep] at hplain
    cases hplain
  · have hhigh := hexChar_ge (high_lt c)
    have hlow := hexChar_ge (low_lt c)
    rw [if_neg hplain] at hc
    rcases List.mem_cons.mp hc with h | hc
    · cases h
    rcases List.mem_cons.mp hc with h | hc
    · rw [← h] at hhigh
      exact absurd hhigh (by decide)
    · rw [← List.mem_singleton.mp hc] at hlow
      exact absurd hlow (by decide)

lemma percentEncode_plain {s : List UInt8} (h : ∀ c ∈ s, plain c = true) : percentEncode plain s = s := by
  unfold percentEncode
  rw [List.flatMap_congr (fun c hc => if_pos (h c hc))]
  exact List.flatMap_singleton' s

/-! ## A form -/

lemma writeForm_singleton {pair : List UInt8 × List UInt8} : writeForm plain [pair] = writePart plain pair :=
  List.intercalate_singleton

lemma writeForm_cons {pair other : List UInt8 × List UInt8} {pairs : List (List UInt8 × List UInt8)} :
    writeForm plain (pair :: other :: pairs) = writePart plain pair ++ 38 :: writeForm plain (other :: pairs) := by
  unfold writeForm
  rw [List.map_cons, List.map_cons, List.intercalate_cons_cons]
  simp

lemma readPart_writePart (hmark : plain 37 = false) {pair : List UInt8 × List UInt8} (hkey : 61 ∉ pair.1) :
    readPart (writePart plain pair) = some pair := by
  have hne : ∀ c ∈ pair.1, decide (c ≠ 61) = true := by
    intro c hc
    exact decide_eq_true (fun h => hkey (h ▸ hc))
  unfold readPart writePart
  rw [List.dropWhile_append_of_pos hne, List.takeWhile_append_of_pos hne]
  simp [percentDecode_encode hmark]

/-- A form of keys without separators is read as the pairs it is written from. -/
theorem readForm_writeForm (hmark : plain 37 = false) (hsep : plain 38 = false)
    {pairs : List (List UInt8 × List UInt8)} (hne : pairs ≠ [])
    (hkeys : ∀ pair ∈ pairs, 38 ∉ pair.1 ∧ 61 ∉ pair.1) :
    readForm (writeForm plain pairs) = some pairs := by
  have hparts : ∀ part ∈ pairs.map (writePart plain), 38 ∉ part := by
    intro part hpart
    obtain ⟨pair, hpair, rfl⟩ := List.mem_map.mp hpart
    unfold writePart
    rw [List.mem_append, List.mem_cons]
    rintro (hkey | heq | hvalue)
    · exact (hkeys pair hpair).1 hkey
    · cases heq
    · exact sep_notMem_encode hsep pair.2 hvalue
  unfold readForm writeForm
  rw [List.splitOn_intercalate 38 hparts (by simpa using hne)]
  clear hparts hne
  induction pairs with
  | nil => rfl
  | cons pair pairs ih =>
    rw [List.map_cons, List.mapM_cons, readPart_writePart hmark (hkeys pair List.mem_cons_self).2,
      ih (fun other hother => hkeys other (List.mem_cons_of_mem pair hother))]
    rfl

end FormEncoding

end LatencyArb
