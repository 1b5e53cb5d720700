import LatencyArb.Backtest.LineEndings
import LatencyArb.Backtest.StoredTicks

/-!
# Files whose rows are numerals

What `convert` makes of a file that consists of a header and of rows of complete numerals within range.
-/

namespace LatencyArb

open Numeral

namespace CsvToBinaryConverter

lemma getlines_line {line : List UInt8} (hline : 10 ∉ line) (rest : List UInt8) :
    getlines (line ++ 10 :: rest) = line :: getlines rest := by
  induction line with
  | nil =>
    rw [List.nil_append, getlines]
    exact if_pos rfl
  | cons c line ih =>
    obtain ⟨hc, hrest⟩ := not_or.mp (fun h => hline (List.mem_cons.mpr h))
    rw [List.cons_append, getlines, if_neg (Ne.symm hc), ih hrest]

/-- The lines of a text are those of which it was made. -/
lemma getlines_lines {lines : List (List UInt8)} (h : ∀ line ∈ lines, 10 ∉ line) :
    getlines (lines.flatMap (fun line => line ++ [10])) = lines := by
  induction lines with
  | nil => rfl
  | cons line lines ih =>
    obtain ⟨hline, hlines⟩ := List.forall_mem_cons.mp h
    rw [List.flatMap_cons, List.append_assoc, List.singleton_append, getlines_line hline, ih hlines]

lemma getlines_endings {ending : List UInt8} {lines : List (List UInt8)} (h : ∀ line ∈ lines, 10 ∉ line ++ ending) :
    getlines (lines.flatMap (fun line => line ++ ending ++ [10])) = lines.map (· ++ ending) := by
  rw [← getlines_lines (List.forall_mem_map.mpr h), List.flatMap_map]

namespace Numerals

variable (n : Numerals)

instance : Decidable n.Positive := inferInstanceAs (Decidable (_ ∧ _))

/-- The row of a file. -/
def line : List UInt8 := [44].intercalate [n.columns.ts, n.columns.bid, n.columns.ask, n.columns.vol]

lemma line_eq : n.line = n.columns.ts ++ 44 :: (n.columns.bid ++ 44 :: (n.columns.ask ++ 44 :: n.columns.vol)) := by
  simp [line, List.intercalate]

lemma mem_columns {c : UInt8}
    (h : c ∈ n.columns.ts ∨ c ∈ n.columns.bid ∨ c ∈ n.columns.ask ∨ c ∈ n.columns.vol) :
    isDigit c = true ∨ c = 43 ∨ c = 45 ∨ c = 46 ∨ c = 69 ∨ c = 101 := by
  obtain hts | hbid | hask | hvol := h
  · exact n.ts.mem_text hts
  · exact n.bid.mem_text hbid
  · exact n.ask.mem_text hask
  · unfold columns at hvol
    cases hv : n.vol with
    | none =>
      rw [hv] at hvol
      cases hvol
    | some vol =>
      rw [hv] at hvol
      exact vol.mem_text hvol

/-- What stands in a row. -/
lemma mem_line {c : UInt8} (h : c ∈ n.line) :
    isDigit c = true ∨ c = 43 ∨ c = 44 ∨ c = 45 ∨ c = 46 ∨ c = 69 ∨ c = 101 := by
  rw [line_eq] at h
  by_cases hcomma : c = 44
  · exact .inr (.inr (.inl hcomma))
  · simp only [List.mem_append, List.mem_cons, hcomma, false_or] at h
    have hc := n.mem_columns h
    tauto

lemma columns_line : CsvToBinaryConverter.columns 44 n.line = some n.columns := by
  have hcomma : ∀ field ∈ [n.columns.ts, n.columns.bid, n.columns.ask, n.columns.vol], 44 ∉ field := by
    intro field hfield h
    simp only [List.mem_cons, List.not_mem_nil, or_false] at hfield
    have hc : isDigit 44 = true ∨ (44 : UInt8) = 43 ∨ (44 : UInt8) = 45 ∨ (44 : UInt8) = 46 ∨
        (44 : UInt8) = 69 ∨ (44 : UInt8) = 101 := by
      apply n.mem_columns
      obtain rfl | rfl | rfl | rfl := hfield
      · exact .inl h
      · exact .inr (.inl h)
      · exact .inr (.inr (.inl h))
      · exact .inr (.inr (.inr h))
    exact absurd hc (by decide)
  unfold CsvToBinaryConverter.columns line
  rw [List.splitOn_intercalate 44 hcomma (by simp)]

lemma parseTickLine_line (h : n.InRange) :
    parseTickLine 44 n.line = if n.Positive then some n.record else none := by
  unfold parseTickLine
  rw [columns_line, Option.bind_some]
  have htime := (timestamp_eq_iff n).mpr ⟨h.border, h.low, h.high⟩
  have hparse := fun t => parseColumns_numerals n (t := t)
  by_cases hpos : n.Positive
  · rw [if_pos hpos, hparse]
    refine ⟨hpos, ⟨h.ts, h.bid, h.ask, h.vol⟩, ?_⟩
    rw [htime]
    rfl
  · rw [if_neg hpos, Option.eq_none_iff_forall_ne_some]
    intro t ht
    exact hpos ((hparse t).mp ht).1

end Numerals

/-- A row with or without a CR is one line that is not empty, and the CR is dropped. -/
lemma dropCr_line_ending {ending : List UInt8} (hending : ending = [] ∨ ending = [13]) (n : Numerals) :
    dropCr (n.line ++ ending) = n.line := by
  obtain rfl | rfl := hending
  · rw [List.append_nil, dropCr, if_neg]
    intro hlast
    exact absurd (n.mem_line (List.mem_of_getLast? hlast)) (by decide)
  · rw [dropCr, List.getLast?_concat, if_pos rfl, List.dropLast_concat]

/-- A file of a header and rows of numerals in range has a record for each row of positive prices, in the
order of the rows. -/
theorem convert_rows (csvPath binPath : String) {ending header : List UInt8}
    (hending : ending = [] ∨ ending = [13]) (hheader : header ≠ []) (hlf : 10 ∉ header) {rows : List Numerals}
    (hrange : ∀ n ∈ rows, n.InRange) :
    (convert csvPath binPath
        (some ((header :: rows.map Numerals.line).flatMap (fun line => line ++ ending ++ [10]))) true {}).file =
      (rows.filter (fun n => decide n.Positive)).map Numerals.record := by
  have hnoLf : 10 ∉ ending := by
    obtain rfl | rfl := hending
    · exact List.not_mem_nil
    · decide
  have hlines : getlines ((header :: rows.map Numerals.line).flatMap (fun line => line ++ ending ++ [10])) =
      (header :: rows.map Numerals.line).map (· ++ ending) := by
    apply getlines_endings
    intro line hline
    rw [List.mem_append, not_or]
    refine ⟨?_, hnoLf⟩
    obtain rfl | hrow := List.mem_cons.mp hline
    · exact hlf
    · obtain ⟨n, -, rfl⟩ := List.mem_map.mp hrow
      exact fun h => absurd (n.mem_line h) (by decide)
  have hall : ∀ line ∈ (header :: rows.map Numerals.line).map (· ++ ending), notEmpty line = true := by
    intro line hline
    obtain ⟨text, htext, rfl⟩ := List.mem_map.mp hline
    have hne : text ≠ [] := by
      obtain rfl | hrow := List.mem_cons.mp htext
      · exact hheader
      · obtain ⟨n, -, rfl⟩ := List.mem_map.mp hrow
        rw [n.line_eq]
        simp
    exact decide_eq_true (fun h => hne (List.append_eq_nil_iff.mp h).1)
  rw [convert_file, hlines, List.filter_eq_self.mpr hall, List.map_cons]
  show (((header ++ ending) :: _).drop 1).filterMap _ = _
  rw [List.drop_one, List.tail_cons, List.map_map, List.filterMap_map, ← List.filterMap_eq_map, List.filterMap_filter]
  apply List.filterMap_congr
  intro n hn
  show parseTickLine 44 (dropCr (n.line ++ ending)) = _
  rw [dropCr_line_ending hending, n.parseTickLine_line (hrange n hn)]
  by_cases hpos : n.Positive
  · rw [if_pos hpos, if_pos (decide_eq_true hpos)]
    rfl
  · rw [if_neg hpos, if_neg (by simpa using hpos)]

/-! ## Rows of fixed places -/

/-- The row of a time, two prices and a volume that are written in so many places. -/
def Numerals.ofQuote {places volPlaces : Nat} (hplaces : 0 < places) (hvol : 0 < volPlaces) (ts : Int)
    (bid ask vol : ℚ) : Numerals where
  ts := .ofInteger (.ofInt ts)
  bid := .ofDecimal (fixedDecimal places hplaces bid)
  ask := .ofDecimal (fixedDecimal places hplaces ask)
  vol := some (.ofDecimal (fixedDecimal volPlaces hvol vol))

/-- What such a row says. -/
def quoteRecord (places volPlaces : Nat) (ts : Int) (bid ask vol : ℚ) : CsvTick where
  tsMs := ts
  bid := .finite (roundTo places bid)
  ask := .finite (roundTo places ask)
  volume := .finite (roundTo volPlaces vol)
  flags := 1

section OfQuote

variable {places volPlaces : Nat} (hplaces : 0 < places) (hvol : 0 < volPlaces) {ts : Int} {bid ask vol : ℚ}

lemma ofQuote_positive_iff : (Numerals.ofQuote hplaces hvol ts bid ask vol).Positive ↔
    0 < roundTo places bid ∧ 0 < roundTo places ask := by
  unfold Numerals.Positive Numerals.ofQuote
  rw [Scientific.ofDecimal_value, Scientific.ofDecimal_value, fixedDecimal_value, fixedDecimal_value]

lemma ofQuote_ts_value : (Numerals.ofQuote hplaces hvol ts bid ask vol).ts.value = ts := by
  show (Scientific.ofInteger (.ofInt ts)).value = _
  rw [Scientific.ofInteger_value, IntNumeral.ofInt_value]

/-- The times of these rows are in milliseconds. -/
lemma ofQuote_millis (hts : 10 ^ 12 < ts) : truncZero (Numerals.ofQuote hplaces hvol ts bid ask vol).millis = ts := by
  have hlarge : ¬((ts : ℚ) < 10 ^ 12) := not_lt.mpr (by exact_mod_cast hts.le)
  have hpos : (0 : ℚ) ≤ ts := by exact_mod_cast (by omega : (0 : ℤ) ≤ ts)
  unfold Numerals.millis
  rw [ofQuote_ts_value, if_neg hlarge, truncZero, if_pos hpos, Int.floor_intCast]

lemma ofQuote_record (hts : 10 ^ 12 < ts) : (Numerals.ofQuote hplaces hvol ts bid ask vol).record =
    quoteRecord places volPlaces ts bid ask vol := by
  unfold Numerals.record Numerals.volume
  rw [ofQuote_millis hplaces hvol hts]
  unfold Numerals.ofQuote quoteRecord
  dsimp only [Option.elim_some]
  simp only [Scientific.ofDecimal_value, fixedDecimal_value]

lemma abs_roundTo_le (p : Nat) (x : ℚ) : |roundTo p x| ≤ |x| + 1 / 2 := by
  have hone : (1 : ℚ) ≤ 10 ^ p := one_le_pow₀ (by norm_num)
  have hhalf : (1 : ℚ) / 2 / 10 ^ p ≤ 1 / 2 := div_le_self (by norm_num) hone
  have hsize : |roundTo p x| ≤ |roundTo p x - x| + |x| := by
    simpa using abs_add_le (roundTo p x - x) x
  have hnear := roundTo_near p x
  linarith

lemma roundTo_inRange {p : Nat} (hp : p ≤ 300) {x : ℚ} (hx : |x| < 2 ^ 126) : outOfRange (roundTo p x) = false := by
  have hlarge : (2 : ℚ) ^ 126 + 1 / 2 < 2 ^ 1000 := by decide +kernel
  have hround := abs_roundTo_le p x
  exact outOfRange_decimal hp _ ((hround.trans_lt (by linarith)).trans hlarge)

/-- Numbers of an ordinary size are in range. -/
lemma ofQuote_inRange (hp : places ≤ 300) (hv : volPlaces ≤ 300) (hts : 10 ^ 12 < ts) (hts' : ts < 2 ^ 63)
    (hbid : |bid| < 2 ^ 126) (hask : |ask| < 2 ^ 126) (hsize : |vol| < 2 ^ 126) :
    (Numerals.ofQuote hplaces hvol ts bid ask vol).InRange where
  ts := by
    have hlarge : (2 : ℚ) ^ 63 < 2 ^ 1000 := by decide +kernel
    have hsize : |(ts : ℚ) / 10 ^ 0| < 2 ^ 63 := by
      rw [pow_zero, div_one, abs_of_pos (by exact_mod_cast (by omega : (0 : ℤ) < ts))]
      exact_mod_cast hts'
    have hrange := outOfRange_decimal (Nat.zero_le 300) ts (hsize.trans hlarge)
    rwa [ofQuote_ts_value, ← div_one (ts : ℚ), ← pow_zero (10 : ℚ)]
  bid := by
    show outOfRange (Scientific.ofDecimal _).value = false
    rw [Scientific.ofDecimal_value, fixedDecimal_value]
    exact roundTo_inRange hp hbid
  ask := by
    show outOfRange (Scientific.ofDecimal _).value = false
    rw [Scientific.ofDecimal_value, fixedDecimal_value]
    exact roundTo_inRange hp hask
  vol := by
    show outOfRange (Scientific.ofDecimal _).value = false
    rw [Scientific.ofDecimal_value, fixedDecimal_value]
    exact roundTo_inRange hv hsize
  border := by
    rw [ofQuote_ts_value]
    exact_mod_cast hts.ne'
  low := by
    rw [ofQuote_millis hplaces hvol hts]
    omega
  high := by
    rw [ofQuote_millis hplaces hvol hts]
    exact hts'

/-- The record in the file, with its prices and its volume as `float`. -/
def storedRecord (places volPlaces : Nat) (ts : Int) (bid ask vol : ℚ) : CsvTick where
  tsMs := ts
  bid := .finite (nearest32 (roundTo places bid))
  ask := .finite (nearest32 (roundTo places ask))
  volume := .finite (nearest32 (roundTo volPlaces vol))
  flags := 1

lemma toFloat_roundTo {p : Nat} {x : ℚ} (hx : |x| < 2 ^ 126) :
    (Double.finite (roundTo p x)).toFloat = .finite (nearest32 (roundTo p x)) := by
  apply toFloat_of_lt
  have hround := abs_roundTo_le p x
  have hlarge : (2 : ℚ) ^ 126 + 1 / 2 < 2 ^ 127 := by norm_num
  linarith

lemma quoteRecord_stored (hbid : |bid| < 2 ^ 126) (hask : |ask| < 2 ^ 126) (hsize : |vol| < 2 ^ 126) :
    (quoteRecord places volPlaces ts bid ask vol).stored = storedRecord places volPlaces ts bid ask vol := by
  unfold CsvTick.stored quoteRecord storedRecord
  dsimp only
  rw [toFloat_roundTo hbid, toFloat_roundTo hask, toFloat_roundTo hsize]

end OfQuote

end CsvToBinaryConverter

end LatencyArb
