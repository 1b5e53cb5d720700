import LatencyArb.Library.Stod

/-!
# The CSV converter (`src/backtest/tick_binary.cpp`)

`convert` writes a record for each line behind the header that `parse_tick_line` accepts. The rows it is
meant for are those of complete numerals; `stod` also reads the beginning of other fields.
-/

namespace LatencyArb

open Numeral

/-- A `BinaryTick` as the converter writes it. -/
structure CsvTick where
  tsMs : Int
  bid : Double
  ask : Double
  volume : Double
  flags : Nat
  deriving DecidableEq

namespace CsvToBinaryConverter

structure Options where
  delimiter : UInt8 := 44
  hasHeader : Bool := true
  skipRows : UInt64 := 0

/-- The lines that `std::getline` reads. -/
def getlines : List UInt8 → List (List UInt8)
  | [] => []
  | c :: s =>
    if c = 10 then [] :: getlines s
    else match getlines s with
      | [] => [[c]]
      | line :: lines => (c :: line) :: lines

/-- The first four columns of a line. -/
structure Columns where
  ts : List UInt8
  bid : List UInt8
  ask : List UInt8
  vol : List UInt8

def columns (delim : UInt8) (line : List UInt8) : Option Columns :=
  match line.splitOn delim with
  | ts :: bid :: ask :: vol :: _ => some ⟨ts, bid, ask, vol⟩
  | _ => none

/-- The conversion of the timestamp; infinities give what x86-64 makes of them. -/
def timestamp : Double → Int
  | .finite raw => toLong (if 10 ^ 12 < raw then raw else raw * 1000)
  | _ => -2 ^ 63

/-- An empty volume is 0. -/
def readVolume (vol : List UInt8) : Option Double := if vol = [] then some (.finite 0) else stod vol

/-- The record made of the columns, with `none` where a conversion throws or a price is not positive. -/
def parseColumns (cols : Columns) : Option CsvTick := do
  let rawTs ← stod cols.ts
  let bid ← stod cols.bid
  let ask ← stod cols.ask
  let vol ← readVolume cols.vol
  if bid.isPos && ask.isPos then
    some { tsMs := timestamp rawTs, bid := bid, ask := ask, volume := vol, flags := 1 }
  else none

/-- `parse_tick_line`, with `none` where it returns false. -/
def parseTickLine (delim : UInt8) (line : List UInt8) : Option CsvTick :=
  (columns delim line).bind parseColumns

def dropCr (line : List UInt8) : List UInt8 := if line.getLast? = some 13 then line.dropLast else line

/-- The loop over the lines. Each record written is kept with the `line_no` it was written at. -/
def convertLines (opt : Options) : UInt64 → Nat → List (List UInt8) → List (Nat × CsvTick)
  | _, _, [] => []
  | skip, lineNo, line :: lines =>
    if line = [] then convertLines opt skip (lineNo + 1) lines
    else if 0 < skip then convertLines opt (skip - 1) (lineNo + 1) lines
    else match parseTickLine opt.delimiter (dropCr line) with
      | none => convertLines opt skip (lineNo + 1) lines
      | some t => (lineNo + 1, t) :: convertLines opt skip (lineNo + 1) lines

structure Conversion where
  written : List (Nat × CsvTick) := []
  returned : Int
  err : Option String

namespace Conversion

/-- The records of the file. -/
def file (out : Conversion) : List CsvTick := out.written.map Prod.snd

end Conversion

namespace Options

/-- The counter of the lines still to skip, a `size_t`. -/
def skip (opt : Options) : UInt64 := if opt.hasHeader then 1 + opt.skipRows else opt.skipRows

/-- The rows that are no data. -/
def leading (opt : Options) : Nat := (if opt.hasHeader then 1 else 0) + opt.skipRows.toNat

lemma skip_le_leading (opt : Options) : opt.skip.toNat ≤ opt.leading := by
  unfold skip leading
  split
  · rw [UInt64.toNat_add]
    exact Nat.mod_le _ _
  · omega

end Options

/-- `convert` of a file that has the content `csv`, or cannot be opened, to one that can be written or not. -/
def convert (csvPath binPath : String) (csv : Option (List UInt8)) (opens : Bool) (opt : Options) :
    Conversion :=
  match csv with
  | none => { returned := -1, err := some ("cannot open CSV for read: " ++ csvPath) }
  | some text =>
    if opens = false then { returned := -1, err := some ("cannot open binary for write: " ++ binPath) }
    else
      let written := convertLines opt opt.skip 0 (getlines text)
      if written = [] then
        { returned := -1, err := some "no valid rows converted (check CSV columns/delimiter)" }
      else { written := written, returned := written.length, err := none }

/-! ## What is written -/

/-- Line `i`, counted from 0, is not empty and follows at least `skip` others that are not. -/
def RowAfter (skip : Nat) (text : List UInt8) (i : Nat) (line : List UInt8) : Prop :=
  (getlines text)[i]? = some line ∧ line ≠ [] ∧ skip ≤ ((getlines text).take i).countP (fun l => l ≠ [])

/-- The records of the lines behind the first `skip` that are not empty, the lines counted from `lineNo` on. -/
def Written (opt : Options) (skip lineNo : Nat) (lines : List (List UInt8)) (k : Nat) (t : CsvTick) : Prop :=
  ∃ i line, k = lineNo + i + 1 ∧ lines[i]? = some line ∧ line ≠ [] ∧
    skip ≤ (lines.take i).countP (fun l => l ≠ []) ∧ parseTickLine opt.delimiter (dropCr line) = some t

/-- A record is of the first line, or of one of the others. -/
lemma written_cons {opt : Options} {skip lineNo k : Nat} {head : List UInt8} {lines : List (List UInt8)}
    {t : CsvTick} : Written opt skip lineNo (head :: lines) k t ↔
      (k = lineNo + 1 ∧ head ≠ [] ∧ skip = 0 ∧ parseTickLine opt.delimiter (dropCr head) = some t) ∨
        Written opt (if head = [] then skip else skip - 1) (lineNo + 1) lines k t := by
  unfold Written
  rw [← Nat.or_exists_add_one]
  apply or_congr
  · simp only [List.getElem?_cons_zero, Option.some.injEq, List.take_zero, List.countP_nil, Nat.le_zero,
      Nat.add_zero]
    constructor
    · rintro ⟨line, hk, rfl, hne, hskip, hparse⟩
      exact ⟨hk, hne, hskip, hparse⟩
    · rintro ⟨hk, hne, hskip, hparse⟩
      exact ⟨head, hk, rfl, hne, hskip, hparse⟩
  · apply exists_congr
    intro i
    apply exists_congr
    intro line
    have hcount : skip ≤ ((head :: lines).take (i + 1)).countP (fun l => l ≠ []) ↔
        (if head = [] then skip else skip - 1) ≤ (lines.take i).countP (fun l => l ≠ []) := by
      rw [List.take_succ_cons]
      by_cases hempty : head = []
      · rw [if_pos hempty, List.countP_cons_of_neg (by simpa using hempty)]
      · rw [if_neg hempty, List.countP_cons_of_pos (by simpa using hempty)]
        omega
    rw [hcount, List.getElem?_cons_succ, show lineNo + (i + 1) + 1 = lineNo + 1 + i + 1 by omega]

lemma skip_pred {skip : UInt64} (h : 0 < skip) : (skip - 1).toNat = skip.toNat - 1 := by
  have hle : (1 : UInt64) ≤ skip := by
    rw [UInt64.le_iff_toNat_le]
    exact h
  rw [UInt64.toNat_sub_of_le skip 1 hle]
  rfl

lemma skip_zero {skip : UInt64} (h : ¬0 < skip) : skip.toNat = 0 := by
  have hle : ¬0 < skip.toNat := h
  omega

/-- The loop writes these records. -/
lemma mem_convertLines {opt : Options} {skip : UInt64} {lineNo k : Nat} {lines : List (List UInt8)}
    {t : CsvTick} : (k, t) ∈ convertLines opt skip lineNo lines ↔ Written opt skip.toNat lineNo lines k t := by
  induction lines generalizing skip lineNo with
  | nil => simp [convertLines, Written]
  | cons head lines ih =>
    rw [written_cons]
    unfold convertLines
    by_cases hempty : head = []
    · rw [if_pos hempty, ih, if_pos hempty]
      exact (or_iff_right (fun h => h.2.1 hempty)).symm
    rw [if_neg hempty, if_neg hempty]
    by_cases hskip : 0 < skip
    · have hpos : skip.toNat ≠ 0 := Nat.pos_iff_ne_zero.mp hskip
      rw [if_pos hskip, ih, skip_pred hskip]
      exact (or_iff_right (fun h => hpos h.2.2.1)).symm
    have hzero := skip_zero hskip
    have hrest := @ih skip (lineNo + 1)
    rw [hzero] at hrest ⊢
    rw [if_neg hskip]
    cases hparse : parseTickLine opt.delimiter (dropCr head) with
    | none =>
      show (k, t) ∈ convertLines opt skip (lineNo + 1) lines ↔ _
      rw [hrest]
      exact (or_iff_right (fun h => by cases h.2.2.2)).symm
    | some t' =>
      show (k, t) ∈ (lineNo + 1, t') :: convertLines opt skip (lineNo + 1) lines ↔ _
      rw [List.mem_cons, hrest, Prod.mk.injEq, Option.some.injEq]
      apply or_congr_left
      constructor
      · rintro ⟨hk, rfl⟩
        exact ⟨hk, hempty, rfl, rfl⟩
      · rintro ⟨hk, -, -, rfl⟩
        exact ⟨hk, rfl⟩

lemma convertLines_ordered (opt : Options) (skip : UInt64) (lineNo : Nat) (lines : List (List UInt8)) :
    (convertLines opt skip lineNo lines).Pairwise (fun w w' => w.1 < w'.1) := by
  induction lines generalizing skip lineNo with
  | nil => exact .nil
  | cons head lines ih =>
    unfold convertLines
    split
    · exact ih _ _
    split
    · exact ih _ _
    split
    · exact ih _ _
    · refine .cons ?_ (ih _ _)
      rintro ⟨k, t⟩ hmem
      obtain ⟨i, line, hk, -⟩ := mem_convertLines.mp hmem
      show lineNo + 1 < k
      omega

/-! ## The rows the converter is meant for -/

/-- The numerals of a row, whose volume may be missing. -/
structure Numerals where
  ts : Scientific
  bid : Scientific
  ask : Scientific
  vol : Option Scientific

namespace Numerals

variable (n : Numerals)

def columns : Columns := ⟨n.ts.text, n.bid.text, n.ask.text, n.vol.elim [] Scientific.text⟩

def volume : ℚ := n.vol.elim 0 Scientific.value

/-- A timestamp below 10^12 is in seconds. -/
def millis : ℚ := if n.ts.value < 10 ^ 12 then n.ts.value * 1000 else n.ts.value

def record : CsvTick where
  tsMs := truncZero n.millis
  bid := .finite n.bid.value
  ask := .finite n.ask.value
  volume := .finite n.volume
  flags := 1

def Positive : Prop := 0 < n.bid.value ∧ 0 < n.ask.value

/-- The numbers are in the range of their types, and the timestamp is not the one at the border. -/
structure InRange : Prop where
  ts : outOfRange n.ts.value = false
  bid : outOfRange n.bid.value = false
  ask : outOfRange n.ask.value = false
  vol : outOfRange n.volume = false
  border : n.ts.value ≠ 10 ^ 12
  low : -2 ^ 63 ≤ truncZero n.millis
  high : truncZero n.millis < 2 ^ 63

end Numerals

/-- The columns are complete numerals, the prices are positive, and the record has their values. -/
def IsRow (cols : Columns) (t : CsvTick) : Prop :=
  ∃ n : Numerals, n.columns = cols ∧ n.Positive ∧ t = n.record

/-- `convert` writes one record for each row behind the first ones, in their order, and none besides. -/
structure AcceptsExactly (opt : Options) (text : List UInt8) (out : Conversion) : Prop where
  ordered : out.written.Pairwise (fun w w' => w.1 < w'.1)
  exact : ∀ lineNo t, (lineNo, t) ∈ out.written ↔ ∃ i line cols, lineNo = i + 1 ∧
    RowAfter opt.leading text i line ∧ columns opt.delimiter (dropCr line) = some cols ∧ IsRow cols t
  returned : out.returned = if out.written = [] then (-1 : Int) else out.written.length

/-- Each column starts with a number that `stod` reads, and the prices are positive. -/
structure Readable (cols : Columns) : Prop where
  ts : ∃ rawTs, stod cols.ts = some rawTs
  bid : ∃ bid, stod cols.bid = some bid ∧ bid.isPos = true
  ask : ∃ ask, stod cols.ask = some ask ∧ ask.isPos = true
  vol : cols.vol = [] ∨ ∃ vol, stod cols.vol = some vol

/-- Columns that can be read are complete numerals, and complete numerals of positive prices are in range. -/
structure WellRead (cols : Columns) : Prop where
  complete : Readable cols → ∃ n : Numerals, n.columns = cols
  inRange : ∀ n : Numerals, n.columns = cols → n.Positive → n.InRange

/-- All rows are well read. The second field is about a number of rows to skip that does not fit its type
together with the header: the rows that the loop does not skip cannot be read. -/
structure RowsWellRead (opt : Options) (text : List UInt8) : Prop where
  data : ∀ i line cols, RowAfter opt.leading text i line →
    columns opt.delimiter (dropCr line) = some cols → WellRead cols
  leading : ∀ i line cols, RowAfter opt.skip.toNat text i line → ¬RowAfter opt.leading text i line →
    columns opt.delimiter (dropCr line) = some cols → ¬Readable cols

lemma parseColumns_eq_some {cols : Columns} {t : CsvTick} : parseColumns cols = some t ↔
    ∃ rawTs, stod cols.ts = some rawTs ∧ stod cols.bid = some t.bid ∧ stod cols.ask = some t.ask ∧
      readVolume cols.vol = some t.volume ∧
      t.bid.isPos = true ∧ t.ask.isPos = true ∧ t.tsMs = timestamp rawTs ∧ t.flags = 1 := by
  unfold parseColumns
  simp only [Option.bind_eq_bind, Option.bind_eq_some_iff, Option.ite_none_right_eq_some, Bool.and_eq_true,
    Option.some.injEq]
  constructor
  · rintro ⟨rawTs, hts, bid, hbid, ask, hask, vol, hvol, ⟨hbpos, hapos⟩, rfl⟩
    exact ⟨rawTs, hts, hbid, hask, hvol, hbpos, hapos, rfl, rfl⟩
  · rintro ⟨rawTs, hts, hbid, hask, hvol, hbpos, hapos, htime, hflags⟩
    refine ⟨rawTs, hts, t.bid, hbid, t.ask, hask, t.volume, hvol, ⟨hbpos, hapos⟩, ?_⟩
    rw [← htime, ← hflags]

lemma readable_iff {cols : Columns} : Readable cols ↔ ∃ t, parseColumns cols = some t := by
  constructor
  · rintro ⟨⟨rawTs, hts⟩, ⟨bid, hbid, hbpos⟩, ⟨ask, hask, hapos⟩, hvol⟩
    obtain ⟨vol, hvol⟩ : ∃ vol, readVolume cols.vol = some vol := by
      unfold readVolume
      by_cases hempty : cols.vol = []
      · exact ⟨.finite 0, if_pos hempty⟩
      · rw [if_neg hempty]
        exact hvol.resolve_left hempty
    exact ⟨{ tsMs := timestamp rawTs, bid := bid, ask := ask, volume := vol, flags := 1 },
      parseColumns_eq_some.mpr ⟨rawTs, hts, hbid, hask, hvol, hbpos, hapos, rfl, rfl⟩⟩
  · rintro ⟨t, ht⟩
    obtain ⟨rawTs, hts, hbid, hask, hvol, hbpos, hapos, -⟩ := parseColumns_eq_some.mp ht
    refine ⟨⟨rawTs, hts⟩, ⟨t.bid, hbid, hbpos⟩, ⟨t.ask, hask, hapos⟩, ?_⟩
    unfold readVolume at hvol
    by_cases hempty : cols.vol = []
    · exact .inl hempty
    · rw [if_neg hempty] at hvol
      exact .inr ⟨t.volume, hvol⟩

/-! ## Complete numerals -/

lemma stod_complete {n : Scientific} {x : Double} :
    stod n.text = some x ↔ outOfRange n.value = false ∧ x = .finite n.value := by
  rw [n.stod_text]
  cases outOfRange n.value with
  | true => simp
  | false => simpa using eq_comm

/-- The volume of a row is read as its value, 0 where it is missing. -/
lemma Numerals.volume_read (n : Numerals) {x : Double} :
    readVolume n.columns.vol = some x ↔
      outOfRange n.volume = false ∧ x = .finite n.volume := by
  unfold readVolume Numerals.columns Numerals.volume
  cases n.vol with
  | none =>
    have hzero : outOfRange 0 = false := by decide +kernel
    simpa [hzero] using eq_comm
  | some v =>
    obtain ⟨c, s, hbody, -⟩ := v.body_cons
    have hne : v.text ≠ [] := by
      unfold Scientific.text
      rw [hbody]
      simp
    simpa [hne] using stod_complete

lemma toLong_eq_iff {x : ℚ} : toLong x = truncZero x ↔ -2 ^ 63 ≤ truncZero x ∧ truncZero x < 2 ^ 63 := by
  unfold toLong
  constructor
  · intro h
    by_contra hout
    simp only [if_neg hout] at h
    omega
  · intro h
    exact if_pos h

/-- The timestamps up to 10^12 are scaled, that one included. -/
lemma timestamp_eq_iff (n : Numerals) : timestamp (.finite n.ts.value) = truncZero n.millis ↔
    n.ts.value ≠ 10 ^ 12 ∧ -2 ^ 63 ≤ truncZero n.millis ∧ truncZero n.millis < 2 ^ 63 := by
  show toLong (if 10 ^ 12 < n.ts.value then n.ts.value else n.ts.value * 1000) = _ ↔ _
  by_cases hborder : n.ts.value = 10 ^ 12
  · have hmillis : n.millis = 10 ^ 12 := by
      unfold Numerals.millis
      rw [hborder, if_neg (lt_irrefl _)]
    rw [hmillis, hborder, if_neg (lt_irrefl _)]
    decide +kernel
  · have hscaled : (if 10 ^ 12 < n.ts.value then n.ts.value else n.ts.value * 1000) = n.millis := by
      unfold Numerals.millis
      rcases lt_or_gt_of_ne hborder with hless | hmore
      · rw [if_neg hless.not_gt, if_pos hless]
      · rw [if_pos hmore, if_neg hmore.not_gt]
    rw [hscaled, toLong_eq_iff]
    exact (and_iff_right hborder).symm

/-- Complete numerals of positive prices within the range of doubles are read as their values. -/
lemma parseColumns_numerals (n : Numerals) {t : CsvTick} : parseColumns n.columns = some t ↔
    n.Positive ∧ (outOfRange n.ts.value = false ∧ outOfRange n.bid.value = false ∧
      outOfRange n.ask.value = false ∧ outOfRange n.volume = false) ∧
      t = { n.record with tsMs := timestamp (.finite n.ts.value) } := by
  rw [parseColumns_eq_some]
  constructor
  · rintro ⟨rawTs, hts, hbid, hask, hvol, hbpos, hapos, htime, hflags⟩
    obtain ⟨htsRange, rfl⟩ := stod_complete.mp hts
    obtain ⟨hbidRange, hbidValue⟩ := stod_complete.mp hbid
    obtain ⟨haskRange, haskValue⟩ := stod_complete.mp hask
    obtain ⟨hvolRange, hvolValue⟩ := n.volume_read.mp hvol
    rw [hbidValue] at hbpos
    rw [haskValue] at hapos
    refine ⟨⟨of_decide_eq_true hbpos, of_decide_eq_true hapos⟩,
      ⟨htsRange, hbidRange, haskRange, hvolRange⟩, ?_⟩
    show t = ⟨timestamp (.finite n.ts.value), .finite n.bid.value, .finite n.ask.value, .finite n.volume, 1⟩
    rw [← hbidValue, ← haskValue, ← hvolValue, ← htime, ← hflags]
  · rintro ⟨⟨hbpos, hapos⟩, ⟨htsRange, hbidRange, haskRange, hvolRange⟩, rfl⟩
    exact ⟨.finite n.ts.value, stod_complete.mpr ⟨htsRange, rfl⟩, stod_complete.mpr ⟨hbidRange, rfl⟩,
      stod_complete.mpr ⟨haskRange, rfl⟩, n.volume_read.mpr ⟨hvolRange, rfl⟩,
      decide_eq_true hbpos, decide_eq_true hapos, rfl, rfl⟩

lemma wellRead_iff {cols : Columns} :
    (∀ t, parseColumns cols = some t ↔ IsRow cols t) ↔ WellRead cols := by
  constructor
  · intro hexact
    constructor
    · intro hreadable
      obtain ⟨t, ht⟩ := readable_iff.mp hreadable
      obtain ⟨n, hcols, -⟩ := (hexact t).mp ht
      exact ⟨n, hcols⟩
    · rintro n rfl hpos
      have hparse := (hexact n.record).mpr ⟨n, rfl, hpos, rfl⟩
      obtain ⟨-, ⟨hts, hbid, hask, hvol⟩, hrecord⟩ := (parseColumns_numerals n).mp hparse
      obtain ⟨hborder, hlow, hhigh⟩ := (timestamp_eq_iff n).mp (congrArg CsvTick.tsMs hrecord).symm
      exact ⟨hts, hbid, hask, hvol, hborder, hlow, hhigh⟩
  · intro hread t
    constructor
    · intro hparse
      obtain ⟨n, rfl⟩ := hread.complete (readable_iff.mpr ⟨t, hparse⟩)
      obtain ⟨hpos, -, hrecord⟩ := (parseColumns_numerals n).mp hparse
      have hrange := hread.inRange n rfl hpos
      rw [(timestamp_eq_iff n).mpr ⟨hrange.border, hrange.low, hrange.high⟩] at hrecord
      exact ⟨n, rfl, hpos, hrecord⟩
    · rintro ⟨n, rfl, hpos, rfl⟩
      have hrange := hread.inRange n rfl hpos
      apply (parseColumns_numerals n).mpr
      refine ⟨hpos, ⟨hrange.ts, hrange.bid, hrange.ask, hrange.vol⟩, ?_⟩
      rw [(timestamp_eq_iff n).mpr ⟨hrange.border, hrange.low, hrange.high⟩]
      rfl

/-! ## The whole conversion -/

lemma RowAfter.of_leading {opt : Options} {text line : List UInt8} {i : Nat}
    (h : RowAfter opt.leading text i line) : RowAfter opt.skip.toNat text i line :=
  ⟨h.1, h.2.1, opt.skip_le_leading.trans h.2.2⟩

lemma convert_written (csvPath binPath : String) (text : List UInt8) (opt : Options) :
    (convert csvPath binPath (some text) true opt).written =
      convertLines opt opt.skip 0 (getlines text) := by
  unfold convert
  by_cases hnone : convertLines opt opt.skip 0 (getlines text) = []
  · simp [hnone]
  · simp [hnone]

lemma mem_written {csvPath binPath : String} {text : List UInt8} {opt : Options} {lineNo : Nat}
    {t : CsvTick} : (lineNo, t) ∈ (convert csvPath binPath (some text) true opt).written ↔
      ∃ i line cols, lineNo = i + 1 ∧ RowAfter opt.skip.toNat text i line ∧
        columns opt.delimiter (dropCr line) = some cols ∧ parseColumns cols = some t := by
  rw [convert_written, mem_convertLines]
  constructor
  · rintro ⟨i, line, rfl, hline, hne, hcount, hparse⟩
    obtain ⟨cols, hcols, ht⟩ := Option.bind_eq_some_iff.mp hparse
    exact ⟨i, line, cols, by omega, ⟨hline, hne, hcount⟩, hcols, ht⟩
  · rintro ⟨i, line, cols, rfl, ⟨hline, hne, hcount⟩, hcols, ht⟩
    exact ⟨i, line, by omega, hline, hne, hcount, Option.bind_eq_some_iff.mpr ⟨cols, hcols, ht⟩⟩

lemma convert_returned (csvPath binPath : String) (text : List UInt8) (opt : Options) :
    (convert csvPath binPath (some text) true opt).returned =
      if (convert csvPath binPath (some text) true opt).written = [] then (-1 : Int)
      else (convert csvPath binPath (some text) true opt).written.length := by
  unfold convert
  by_cases hnone : convertLines opt opt.skip 0 (getlines text) = []
  · simp [hnone]
  · simp [hnone]

/-- At a line number stands what is made of that line's columns. -/
lemma row_at_iff {skip i : Nat} {text line : List UInt8} {delim : UInt8} {cols : Columns} {P : Columns → Prop}
    (hline : (getlines text)[i]? = some line) (hcols : columns delim (dropCr line) = some cols) :
    (∃ i' line' cols', i + 1 = i' + 1 ∧ RowAfter skip text i' line' ∧
        columns delim (dropCr line') = some cols' ∧ P cols') ↔ RowAfter skip text i line ∧ P cols := by
  constructor
  · rintro ⟨i', line', cols', hi, hrow, hcols', hp⟩
    obtain rfl : i = i' := by omega
    obtain rfl : line = line' := Option.some.inj (hline.symm.trans hrow.1)
    obtain rfl : cols = cols' := Option.some.inj (hcols.symm.trans hcols')
    exact ⟨hrow, hp⟩
  · rintro ⟨hrow, hp⟩
    exact ⟨i, line, cols, rfl, hrow, hcols, hp⟩

theorem accepts_exactly_iff (csvPath binPath : String) (text : List UInt8) (opt : Options) :
    AcceptsExactly opt text (convert csvPath binPath (some text) true opt) ↔ RowsWellRead opt text := by
  constructor
  · rintro ⟨-, hexact, -⟩
    have hrowExact : ∀ {i line cols}, (getlines text)[i]? = some line →
        columns opt.delimiter (dropCr line) = some cols → ∀ t,
          (RowAfter opt.skip.toNat text i line ∧ parseColumns cols = some t ↔
            RowAfter opt.leading text i line ∧ IsRow cols t) := by
      intro i line cols hline hcols t
      have hat := hexact (i + 1) t
      rw [mem_written, row_at_iff hline hcols, row_at_iff hline hcols] at hat
      exact hat
    constructor
    · intro i line cols hrow hcols
      apply wellRead_iff.mp
      intro t
      have hat := hrowExact hrow.1 hcols t
      rwa [and_iff_right hrow, and_iff_right hrow.of_leading] at hat
    · intro i line cols hrow hlead hcols hreadable
      obtain ⟨t, hparse⟩ := readable_iff.mp hreadable
      exact hlead ((hrowExact hrow.1 hcols t).mp ⟨hrow, hparse⟩).1
  · intro hread
    refine ⟨?_, ?_, convert_returned csvPath binPath text opt⟩
    · rw [convert_written]
      exact convertLines_ordered opt opt.skip 0 (getlines text)
    · intro lineNo t
      rw [mem_written]
      constructor
      · rintro ⟨i, line, cols, rfl, hrow, hcols, hparse⟩
        have hlead : RowAfter opt.leading text i line := by
          by_contra hnot
          exact hread.leading i line cols hrow hnot hcols (readable_iff.mpr ⟨t, hparse⟩)
        have hwell := wellRead_iff.mpr (hread.data i line cols hlead hcols)
        exact ⟨i, line, cols, rfl, hlead, hcols, (hwell t).mp hparse⟩
      · rintro ⟨i, line, cols, rfl, hrow, hcols, ht⟩
        have hwell := wellRead_iff.mpr (hread.data i line cols hrow hcols)
        exact ⟨i, line, cols, rfl, hrow.of_leading, hcols, (hwell t).mpr ht⟩

/-- A file whose only row has letters behind the bid. -/
def corruptRow : List UInt8 := bytesOf "timestamp,bid,ask,volume\n1723050000000,1.5abc,2,1\n"

/-- The row is written with the bid 1.5. -/
theorem corrupt_row_accepted :
    ¬AcceptsExactly {} corruptRow (convert "lead.csv" "lead.bin" (some corruptRow) true {}) := by
  rintro ⟨-, hexact, -⟩
  have hwritten : (convert "lead.csv" "lead.bin" (some corruptRow) true {}).written =
      [(2, { tsMs := 1723050000000, bid := .finite (3 / 2), ask := .finite 2, volume := .finite 1, flags := 1 })] := by
    decide +kernel
  obtain ⟨i, line, cols, hi, ⟨hline, -⟩, hcols, n, rfl, -⟩ := (hexact _ _).mp (hwritten ▸ List.mem_singleton_self _)
  obtain rfl : i = 1 := by omega
  have hlines : (getlines corruptRow)[1]? = some (bytesOf "1723050000000,1.5abc,2,1") := by decide +kernel
  rw [hlines, Option.some.injEq] at hline
  subst hline
  have hbid : (columns 44 (dropCr (bytesOf "1723050000000,1.5abc,2,1"))).map Columns.bid =
      some (bytesOf "1.5abc") := by decide +kernel
  rw [hcols, Option.map_some, Option.some.injEq] at hbid
  have hletter : (97 : UInt8) ∈ n.bid.text := by
    show 97 ∈ n.columns.bid
    rw [hbid]
    decide +kernel
  rcases n.bid.mem_text hletter with hdigit | h | h | h | h | h
  · cases hdigit
  all_goals exact absurd h (by decide)

end CsvToBinaryConverter

end LatencyArb
