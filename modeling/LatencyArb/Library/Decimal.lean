import Mathlib

/-!
# Rounding and decimal text over exact numbers

Prices are exact rationals. `roundAway` is `std::round` (ties away from zero), `roundEven` the
rounding of `printf` (ties to even), `fixedPoint` the text of `%.nf` and `generalFormat` that of `%g`.
-/

namespace LatencyArb

def roundAway (x : ℚ) : ℤ := if 0 ≤ x then ⌊x + 1 / 2⌋ else -⌊-x + 1 / 2⌋

def roundEven (x : ℚ) : ℤ :=
  let down := ⌊x⌋
  let rest := x - down
  if rest < 1 / 2 then down
  else if 1 / 2 < rest then down + 1
  else if down % 2 = 0 then down else down + 1

/-- A conversion to an integer type: truncation towards zero. -/
def truncZero (x : ℚ) : ℤ := if 0 ≤ x then ⌊x⌋ else -⌊-x⌋

/-- The conversion to a signed 64-bit integer. A number out of its range gives the least value, as on
x86-64. -/
def toLong (x : ℚ) : ℤ :=
  let n := truncZero x
  if -2 ^ 63 ≤ n ∧ n < 2 ^ 63 then n else -2 ^ 63

def padLeft (width : Nat) (digits : String) : String :=
  String.ofList (List.replicate (width - digits.length) '0') ++ digits

def fixedPoint (places : Nat) (x : ℚ) : String :=
  let scaled := (roundEven (x * 10 ^ places)).natAbs
  let body := toString (scaled / 10 ^ places) ++ "." ++ padLeft places (toString (scaled % 10 ^ places))
  if x < 0 then "-" ++ body else body

/-- A decimal text without the zeros at its end, nor a point that they leave there. -/
def trimZeros (text : String) : String :=
  let kept := text.toList.reverse.dropWhile (fun c => decide (c = '0'))
  String.ofList (if kept.head? = some '.' then kept.tail else kept).reverse

/-- The text of `%g`: six significant digits, in scientific notation where the exponent is below -4
or above 5, without trailing zeros. -/
def generalFormat (x : ℚ) : String :=
  if x = 0 then "0"
  else
    let first := Int.log 10 |x|
    let rounded := (roundEven (|x| * 10 ^ (5 - first))).toNat
    let (digits, exponent) := if rounded = 10 ^ 6 then (10 ^ 5, first + 1) else (rounded, first)
    let body :=
      if exponent < -4 ∨ 5 < exponent then
        trimZeros (fixedPoint 5 (digits / 10 ^ 5)) ++ (if exponent < 0 then "e-" else "e+") ++
          padLeft 2 (toString exponent.natAbs)
      else trimZeros (fixedPoint 9 (digits * 10 ^ (exponent - 5)))
    if x < 0 then "-" ++ body else body

lemma roundAway_intCast (n : ℤ) : roundAway n = n := by
  unfold roundAway
  have half : ⌊(1 / 2 : ℚ)⌋ = 0 := by norm_num
  by_cases h : (0 : ℚ) ≤ n
  · rw [if_pos h, Int.floor_intCast_add, half, add_zero]
  · rw [if_neg h, ← Int.cast_neg, Int.floor_intCast_add, half, add_zero, neg_neg]

lemma roundAway_near (x : ℚ) : |(roundAway x : ℚ) - x| ≤ 1 / 2 := by
  unfold roundAway
  by_cases h : 0 ≤ x
  · have hle := Int.floor_le (x + 1 / 2)
    have hlt := Int.lt_floor_add_one (x + 1 / 2)
    rw [if_pos h, abs_le]
    constructor <;> linarith
  · have hle := Int.floor_le (-x + 1 / 2)
    have hlt := Int.lt_floor_add_one (-x + 1 / 2)
    rw [if_neg h, abs_le, Int.cast_neg]
    constructor <;> linarith

end LatencyArb
