import LatencyArb.Backtest.CsvRows
import LatencyArb.Library.Rounding

/-!
# The mock tick files (`scripts/gen_data.py`)

The lag file shows the lead's price of some ticks earlier, at the times of the lead. What the random generators
draw is a parameter, and so is the arithmetic `A` of the floats.
-/

namespace LatencyArb

namespace GenData

open Numeral CsvToBinaryConverter

def tickIntervalMs : Int := 5
def noiseBps : ℚ := Rounding.binary64.fl (1 / 5)
def spikeStepPts : ℚ := 50
def epochStartMs : Int := 1723050000000
def persistence : ℚ := Rounding.binary64.fl (4 / 5)
def trendDriftPts : ℚ := Rounding.binary64.fl (3 / 10)
def stepNoisePts : ℚ := Rounding.binary64.fl (3 / 5)

structure Args where
  ticks : Int := 20000
  start : ℚ := 60000
  leadSpread : ℚ := 1 / 2
  lagSpread : ℚ := 1
  lagDelayMs : Int := 10
  randomWalk : Bool := false

/-- The `z` of each call of `gaussian`, and the ticks in `spikes`. -/
structure Draws where
  z : Nat → ℚ
  spikes : Nat → Bool

/-- The locals of the loops in `gen_lead`. -/
structure LeadWalk where
  mid : ℚ
  step : ℚ := 0
  ts : Int := epochStartMs
  series : List (Int × ℚ) := []

variable (A : Rounding) (a : Args) (d : Draws)

/-- `gaussian`, for draw number `i`. -/
def gaussian (i : Nat) (sigma : ℚ) : ℚ := A.mul (d.z i) sigma

def noiseSigma : ℚ := A.div (A.mul a.start noiseBps) 10000

def spiked (i : Nat) (mid : ℚ) : ℚ := if d.spikes i then A.add mid spikeStepPts else mid

/-- A tick at the middle price. -/
def LeadWalk.append (w : LeadWalk) (mid step : ℚ) : LeadWalk where
  mid := mid
  step := step
  ts := w.ts + tickIntervalMs
  series := w.series ++ [(w.ts, mid)]

/-- A turn of the loop for the flat base. -/
def flatTurn (w : LeadWalk) (i : Nat) : LeadWalk :=
  w.append (A.add (spiked A d i w.mid) (gaussian A d i (noiseSigma A a))) w.step

/-- A turn of the loop for the random walk. -/
def walkTurn (w : LeadWalk) (i : Nat) : LeadWalk :=
  let step := A.add (A.add (A.mul persistence w.step) trendDriftPts) (gaussian A d i stepNoisePts)
  w.append (spiked A d i (A.add w.mid step)) step

def turn (w : LeadWalk) (i : Nat) : LeadWalk := if a.randomWalk then walkTurn A d w i else flatTurn A a d w i

def genLead : List (Int × ℚ) := ((List.range a.ticks.toNat).foldl (turn A a d) { mid := a.start }).series

def csvHeader : List UInt8 := bytesOf "timestamp,bid,ask,volume\n"

def writeCsv (ts : Int) (mid halfSpread : ℚ) : List UInt8 :=
  let bid := A.sub mid halfSpread
  let ask := A.add mid halfSpread
  bytesOf (toString ts ++ "," ++ fixedPoint 2 bid ++ "," ++ fixedPoint 2 ask ++ ",1.0\n")

def delayTicks : Int := max 1 (a.lagDelayMs / tickIntervalMs)

/-- The price that the lag shows with tick `i`. -/
def lagMid (lead : List (Int × ℚ)) (i : Nat) : ℚ :=
  ((lead[(max 0 ((i : Int) - delayTicks a)).toNat]?).map Prod.snd).getD 0

/-- The two files, the lead first. -/
def generate : List UInt8 × List UInt8 :=
  let lead := genLead A a d
  lead.zipIdx.foldl (fun files e =>
    (files.1 ++ writeCsv A e.1.1 e.1.2 (A.div a.leadSpread 2),
      files.2 ++ writeCsv A e.1.1 (lagMid a lead e.2) (A.div a.lagSpread 2)))
    (csvHeader, csvHeader)

/-! ## The lead -/

section Lead

variable {A a d}

lemma turn_append (w : LeadWalk) (i : Nat) : ∃ mid step, turn A a d w i = w.append mid step := by
  unfold turn
  split
  · exact ⟨_, _, rfl⟩
  · exact ⟨_, _, rfl⟩

/-- The ticks stand at a fixed interval. -/
lemma walk_times (n : Nat) :
    ((List.range n).foldl (turn A a d) { mid := a.start }).ts = epochStartMs + tickIntervalMs * n ∧
      ((List.range n).foldl (turn A a d) { mid := a.start }).series.map Prod.fst =
        (List.range n).map (fun i : Nat => epochStartMs + tickIntervalMs * i) := by
  induction n with
  | zero => exact ⟨rfl, rfl⟩
  | succ n ih =>
    obtain ⟨hts, hseries⟩ := ih
    rw [List.range_succ, List.foldl_concat]
    obtain ⟨mid, step, hturn⟩ := turn_append ((List.range n).foldl (turn A a d) { mid := a.start }) n
    rw [hturn, LeadWalk.append]
    dsimp only
    rw [hts, List.map_append, List.map_append, hseries]
    refine ⟨?_, rfl⟩
    push_cast
    ring

lemma genLead_times : (genLead A a d).map Prod.fst =
    (List.range a.ticks.toNat).map (fun i : Nat => epochStartMs + tickIntervalMs * i) := (walk_times _).2

lemma length_genLead : (genLead A a d).length = a.ticks.toNat := by
  have hlength := congrArg List.length (genLead_times (A := A) (a := a) (d := d))
  simpa using hlength

lemma genLead_ts {i : Nat} {t : Int × ℚ} (h : (genLead A a d)[i]? = some t) :
    i < a.ticks.toNat ∧ t.1 = epochStartMs + tickIntervalMs * i := by
  have hlt : i < a.ticks.toNat := by
    rw [← length_genLead (A := A) (a := a) (d := d)]
    exact (List.getElem?_eq_some_iff.mp h).1
  have hts := congrArg (·[i]?) (genLead_times (A := A) (a := a) (d := d))
  simp only [List.getElem?_map, h, List.getElem?_range hlt, Option.map_some, Option.some.injEq] at hts
  exact ⟨hlt, hts⟩

end Lead

/-! ## The files -/

/-- Prices that are positive as they are written, and of which a `float` keeps the two decimals. -/
structure Quotable (halfSpread mid : ℚ) : Prop where
  bid : 0 < roundTo 2 (A.sub mid halfSpread)
  bid_lt : A.sub mid halfSpread < 131071
  ask : 0 < roundTo 2 (A.add mid halfSpread)
  ask_lt : A.add mid halfSpread < 131071

instance (halfSpread mid : ℚ) : Decidable (Quotable A halfSpread mid) :=
  decidable_of_iff (0 < roundTo 2 (A.sub mid halfSpread) ∧ A.sub mid halfSpread < 131071 ∧
      0 < roundTo 2 (A.add mid halfSpread) ∧ A.add mid halfSpread < 131071)
    ⟨fun ⟨hbid, hbidLt, hask, haskLt⟩ => ⟨hbid, hbidLt, hask, haskLt⟩,
      fun h => ⟨h.bid, h.bid_lt, h.ask, h.ask_lt⟩⟩

/-- A record is valid and shows a price: to two decimals its quote is the price less and plus the half spread. -/
structure Shows (t : CsvTick) (ts : Int) (mid halfSpread : ℚ) : Prop where
  time : t.tsMs = ts
  quote : ∃ bid ask, t.bid = .finite bid ∧ t.ask = .finite ask ∧
    roundTo 2 bid = roundTo 2 (A.sub mid halfSpread) ∧ roundTo 2 ask = roundTo 2 (A.add mid halfSpread) ∧
    (0 ≤ halfSpread → bid ≤ ask)
  volume : t.volume = .finite 1
  valid : t.flags = 1

section Files

variable {A a d} {halfSpread mid : ℚ} {ts : Int}

lemma pos_of_roundTo {x : ℚ} (h : 0 < roundTo 2 x) : 0 < x := by
  by_contra hneg
  have hle : roundEven (x * 10 ^ 2) ≤ roundEven 0 := roundEven_mono (by linarith)
  have hzero : roundEven 0 = 0 := by decide +kernel
  have hround : roundTo 2 x ≤ 0 := by
    apply div_nonpos_of_nonpos_of_nonneg _ (by positivity)
    exact_mod_cast hzero ▸ hle
  linarith

/-- Prices of this size keep their two decimals. -/
lemma roundTo_nearest32 {x : ℚ} (hpos : 0 < roundTo 2 x) (hlt : x < 131071) :
    roundTo 2 (nearest32 (roundTo 2 x)) = roundTo 2 x := by
  have hx : 0 < x := pos_of_roundTo hpos
  have hnear := abs_roundTo_le 2 x
  rw [abs_of_pos hx] at hnear
  have hsize : |(roundEven (x * 10 ^ 2) : ℚ) / 10 ^ 2| < 2 ^ (17 : ℤ) := by
    refine lt_of_le_of_lt hnear ?_
    norm_num
    linarith
  have hround : roundEven (nearest32 (roundEven (x * 10 ^ 2) / 10 ^ 2) * 10 ^ 2) = roundEven (x * 10 ^ 2) :=
    round_nearest32 roundEven_near (by norm_num) (by norm_num) hsize
  unfold roundTo
  rw [hround]

lemma nearest32_one : nearest32 (roundTo 1 1) = 1 := by
  decide +kernel

/-- The record of a row. -/
def rowRecord (A : Rounding) (halfSpread : ℚ) (t : Int × ℚ) : CsvTick :=
  storedRecord 2 1 t.1 (A.sub t.2 halfSpread) (A.add t.2 halfSpread) 1

lemma rowRecord_shows (h : Quotable A halfSpread mid) :
    Shows A (rowRecord A halfSpread (ts, mid)) ts mid halfSpread where
  time := rfl
  quote := by
    refine ⟨_, _, rfl, rfl, roundTo_nearest32 h.bid h.bid_lt, roundTo_nearest32 h.ask h.ask_lt, ?_⟩
    intro hhalf
    apply BinaryFormat.nearest_mono
    apply div_le_div_of_nonneg_right _ (by positivity)
    have hquote : A.sub mid halfSpread ≤ A.add mid halfSpread := A.mono (by linarith)
    exact_mod_cast roundEven_mono (mul_le_mul_of_nonneg_right hquote (by positivity : (0 : ℚ) ≤ 10 ^ 2))
  volume := congrArg Double.finite nearest32_one
  valid := rfl

/-- The row as numerals. -/
def rowNumerals (A : Rounding) (halfSpread : ℚ) (t : Int × ℚ) : Numerals :=
  Numerals.ofQuote (by decide : 0 < 2) (by decide : 0 < 1) t.1 (A.sub t.2 halfSpread) (A.add t.2 halfSpread) 1

lemma writeCsv_eq (halfSpread : ℚ) (t : Int × ℚ) :
    writeCsv A t.1 t.2 halfSpread = (rowNumerals A halfSpread t).line ++ [] ++ [10] := by
  have hone : bytesOf ",1.0\n" = 44 :: (bytesOf (fixedPoint 1 1) ++ [10]) := by decide +kernel
  have hcomma : bytesOf "," = [44] := by decide
  rw [Numerals.line_eq]
  unfold Numerals.columns rowNumerals Numerals.ofQuote writeCsv
  dsimp only [Option.elim_some]
  rw [Scientific.ofInteger_text, IntNumeral.ofInt_text, Scientific.ofDecimal_text, Scientific.ofDecimal_text,
    Scientific.ofDecimal_text, fixedDecimal_text, fixedDecimal_text, fixedDecimal_text]
  simp only [bytesOf_append, hone, hcomma, List.append_assoc, List.cons_append, List.nil_append]

/-- The converter makes of such a file a record for each row. -/
lemma file_records {rows : List (Int × ℚ)}
    (hrows : ∀ t ∈ rows, 10 ^ 12 < t.1 ∧ t.1 < 2 ^ 63 ∧ Quotable A halfSpread t.2) (csvPath binPath : String) :
    (convert csvPath binPath (some (csvHeader ++ rows.flatMap (fun t => writeCsv A t.1 t.2 halfSpread))) true
      {}).file.map CsvTick.stored = rows.map (rowRecord A halfSpread) := by
  have hbytes : csvHeader ++ rows.flatMap (fun t => writeCsv A t.1 t.2 halfSpread) =
      (bytesOf "timestamp,bid,ask,volume" :: (rows.map (rowNumerals A halfSpread)).map Numerals.line).flatMap
        (fun line => line ++ [] ++ [10]) := by
    rw [List.flatMap_cons, List.flatMap_map, List.flatMap_map]
    congr 1
    apply List.flatMap_congr
    intro t _
    exact writeCsv_eq halfSpread t
  have hsize : ∀ x : ℚ, 0 < roundTo 2 x → x < 131071 → |x| < 2 ^ 126 := by
    intro x hx hlt
    rw [abs_of_pos (pos_of_roundTo hx)]
    exact hlt.trans (by norm_num)
  have hrange : ∀ n ∈ rows.map (rowNumerals A halfSpread), n.InRange := by
    intro n hn
    obtain ⟨t, ht, rfl⟩ := List.mem_map.mp hn
    obtain ⟨hlow, hhigh, hq⟩ := hrows t ht
    exact ofQuote_inRange _ _ (by decide) (by decide) hlow hhigh (hsize _ hq.bid hq.bid_lt) (hsize _ hq.ask hq.ask_lt)
      (by norm_num)
  have hall : ∀ n ∈ rows.map (rowNumerals A halfSpread), decide n.Positive = true := by
    intro n hn
    obtain ⟨t, ht, rfl⟩ := List.mem_map.mp hn
    obtain ⟨-, -, hq⟩ := hrows t ht
    exact decide_eq_true ((ofQuote_positive_iff _ _).mpr ⟨hq.bid, hq.ask⟩)
  rw [hbytes, convert_rows csvPath binPath (.inl rfl) (by decide) (by decide) hrange, List.filter_eq_self.mpr hall,
    List.map_map, List.map_map]
  apply List.map_congr_left
  intro t ht
  obtain ⟨hlow, -, hq⟩ := hrows t ht
  show (rowNumerals A halfSpread t).record.stored = _
  rw [rowNumerals, ofQuote_record _ _ hlow,
    quoteRecord_stored (hsize _ hq.bid hq.bid_lt) (hsize _ hq.ask hq.ask_lt) (by norm_num)]
  rfl

/-- The times and prices that the lag file shows. -/
def lagTicks (a : Args) (lead : List (Int × ℚ)) : List (Int × ℚ) :=
  lead.zipIdx.map (fun e => (e.1.1, lagMid a lead e.2))

lemma foldl_files {ε : Type} (f g : ε → List UInt8) (es : List ε) (files : List UInt8 × List UInt8) :
    es.foldl (fun files e => (files.1 ++ f e, files.2 ++ g e)) files =
      (files.1 ++ es.flatMap f, files.2 ++ es.flatMap g) := by
  induction es generalizing files with
  | nil => simp
  | cons e es ih => simp [ih]

lemma generate_eq : generate A a d =
    (csvHeader ++ (genLead A a d).flatMap (fun t => writeCsv A t.1 t.2 (A.div a.leadSpread 2)),
      csvHeader ++ (lagTicks a (genLead A a d)).flatMap (fun t => writeCsv A t.1 t.2 (A.div a.lagSpread 2))) := by
  unfold generate lagTicks
  dsimp only
  rw [foldl_files, List.flatMap_map]
  congr 2
  nth_rewrite 2 [← List.zipIdx_map_fst 0 (genLead A a d)]
  rw [List.flatMap_map]

/-- With tick `i` the lag shows the lead's price of `delay_ticks` earlier, and with the first ones its first. -/
lemma getElem?_lagTicks {i : Nat} {t past : Int × ℚ} {lead : List (Int × ℚ)} (ht : lead[i]? = some t)
    (hpast : lead[i - (delayTicks a).toNat]? = some past) : (lagTicks a lead)[i]? = some (t.1, past.2) := by
  have hdelay : 1 ≤ delayTicks a := le_max_left _ _
  have hindex : (max 0 ((i : Int) - delayTicks a)).toNat = i - (delayTicks a).toNat := by omega
  unfold lagTicks lagMid
  rw [List.getElem?_map, List.getElem?_zipIdx, ht, Option.map_some, Option.map_some, Nat.zero_add, hindex, hpast]
  rfl

lemma mem_lagTicks {t : Int × ℚ} {lead : List (Int × ℚ)} (h : t ∈ lagTicks a lead) :
    ∃ now ∈ lead, ∃ past ∈ lead, t = (now.1, past.2) := by
  obtain ⟨i, hi⟩ := List.mem_iff_getElem?.mp h
  have hlt : i < lead.length := by
    have hlength := (List.getElem?_eq_some_iff.mp hi).1
    unfold lagTicks at hlength
    simpa using hlength
  have hnow := List.getElem?_eq_getElem hlt
  have hpast := List.getElem?_eq_getElem (show i - (delayTicks a).toNat < lead.length by omega)
  rw [getElem?_lagTicks hnow hpast] at hi
  exact ⟨_, List.mem_of_getElem? hnow, _, List.mem_of_getElem? hpast, (Option.some.inj hi).symm⟩

end Files

/-- The records of the lead file and of the lag file, in the order of the ticks. -/
structure Trails (A : Rounding) (a : Args) (d : Draws) (lead lag : List CsvTick) : Prop where
  leadLength : lead.length = a.ticks.toNat
  lagLength : lag.length = a.ticks.toNat
  lead : ∀ (i : Nat) (t : Int × ℚ), (genLead A a d)[i]? = some t →
    ∃ r, lead[i]? = some r ∧ Shows A r (epochStartMs + tickIntervalMs * i) t.2 (A.div a.leadSpread 2)
  lag : ∀ (i : Nat) (past : Int × ℚ), i < a.ticks.toNat → (genLead A a d)[i - (delayTicks a).toNat]? = some past →
    ∃ r, lag[i]? = some r ∧ Shows A r (epochStartMs + tickIntervalMs * i) past.2 (A.div a.lagSpread 2)

/-- Whatever is drawn, for prices that are positive as they are written and below 131071: converted, both files
have a valid record for each tick, at the same times. To two decimals the record of the lead shows the price of
the tick, and that of the lag the lead's price of `delay_ticks` earlier, never one that is still to come. With
half spreads that are not negative no quote is crossed. -/
theorem lag_trails_lead (A : Rounding) (a : Args) (d : Draws) (hticks : a.ticks < 2 ^ 60)
    (hlead : ∀ t ∈ genLead A a d, Quotable A (A.div a.leadSpread 2) t.2)
    (hlag : ∀ t ∈ genLead A a d, Quotable A (A.div a.lagSpread 2) t.2) (csvPath binPath : String) :
    Trails A a d ((convert csvPath binPath (some (generate A a d).1) true {}).file.map CsvTick.stored)
      ((convert csvPath binPath (some (generate A a d).2) true {}).file.map CsvTick.stored) := by
  have htime : ∀ t ∈ genLead A a d, 10 ^ 12 < t.1 ∧ t.1 < 2 ^ 63 := by
    intro t ht
    obtain ⟨i, hi⟩ := List.mem_iff_getElem?.mp ht
    obtain ⟨hlt, hts⟩ := genLead_ts hi
    unfold epochStartMs tickIntervalMs at hts
    omega
  have hleadRows : ∀ t ∈ genLead A a d, 10 ^ 12 < t.1 ∧ t.1 < 2 ^ 63 ∧ Quotable A (A.div a.leadSpread 2) t.2 :=
    fun t ht => ⟨(htime t ht).1, (htime t ht).2, hlead t ht⟩
  have hlagRows : ∀ t ∈ lagTicks a (genLead A a d),
      10 ^ 12 < t.1 ∧ t.1 < 2 ^ 63 ∧ Quotable A (A.div a.lagSpread 2) t.2 := by
    intro t ht
    obtain ⟨now, hnow, past, hpast, rfl⟩ := mem_lagTicks ht
    exact ⟨(htime now hnow).1, (htime now hnow).2, hlag past hpast⟩
  rw [generate_eq, file_records hleadRows, file_records hlagRows]
  constructor
  · rw [List.length_map, length_genLead]
  · rw [List.length_map, lagTicks, List.length_map, List.length_zipIdx, length_genLead]
  · intro i t ht
    have hshows : Shows A (rowRecord A (A.div a.leadSpread 2) t) t.1 t.2 (A.div a.leadSpread 2) :=
      rowRecord_shows (hlead t (List.mem_of_getElem? ht))
    rw [(genLead_ts ht).2] at hshows
    refine ⟨_, ?_, hshows⟩
    rw [List.getElem?_map, ht]
    rfl
  · intro i past hi hpast
    rw [← length_genLead (A := A) (a := a) (d := d)] at hi
    obtain ⟨t, ht⟩ : ∃ t, (genLead A a d)[i]? = some t := ⟨_, List.getElem?_eq_getElem hi⟩
    have hshows : Shows A (rowRecord A (A.div a.lagSpread 2) (t.1, past.2)) t.1 past.2 (A.div a.lagSpread 2) :=
      rowRecord_shows (hlag past (List.mem_of_getElem? hpast))
    rw [(genLead_ts ht).2] at hshows
    refine ⟨_, ?_, hshows⟩
    rw [List.getElem?_map, getElem?_lagTicks ht hpast, (genLead_ts ht).2]
    rfl

/-- Four ticks with a spike at the third, and a lag of two ticks, in binary64. -/
theorem lag_trails_lead_fourTicks :
    Trails .binary64 { ticks := 4 } ⟨fun i => i - 1, fun i => i == 2⟩
      ((convert "lead.csv" "lead.bin"
        (some (generate .binary64 { ticks := 4 } ⟨fun i => i - 1, fun i => i == 2⟩).1) true {}).file.map
          CsvTick.stored)
      ((convert "lead.csv" "lead.bin"
        (some (generate .binary64 { ticks := 4 } ⟨fun i => i - 1, fun i => i == 2⟩).2) true {}).file.map
          CsvTick.stored) :=
  lag_trails_lead .binary64 { ticks := 4 } ⟨fun i => i - 1, fun i => i == 2⟩ (by decide) (by decide +kernel)
    (by decide +kernel) _ _

end GenData

end LatencyArb
