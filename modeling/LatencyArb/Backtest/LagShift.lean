import LatencyArb.Library.Decimal
import LatencyArb.Library.Rounding

/-!
# The lag file of the downloaded bars (`scripts/get_real_data.py`)

The quote of a row of the lag file is that of the bar some rows earlier. An index below zero counts from the
end of a Python list, so the first rows take the last bars. The floats have an arithmetic `A` that rounds.
-/

namespace LatencyArb

namespace RealData

/-- What `write_csv` reads of a bar. -/
structure Bar where
  tsMs : Int
  close : ℚ
  volume : ℚ
  deriving Inhabited

structure Args where
  out : String := "real_lead.csv"
  spreadHalf : ℚ := 1 / 2
  lagShiftBars : Int := 0

/-- The rows that `csv.writer` writes to a file, the header first. -/
structure CsvFile where
  path : String
  rows : List (List String)

section Script

variable (A : Rounding)

/-- The quote and the volume of a row. -/
def quoteFields (spreadHalf : ℚ) (bar : Bar) : List String :=
  [fixedPoint 6 (A.sub bar.close spreadHalf), fixedPoint 6 (A.add bar.close spreadHalf), fixedPoint 8 bar.volume]

def csvRow (spreadHalf : ℚ) (bar : Bar) : List String := toString bar.tsMs :: quoteFields A spreadHalf bar

def writeCsv (path : String) (bars : List Bar) (spreadHalf : ℚ) : CsvFile :=
  ⟨path, ["timestamp", "bid", "ask", "volume"] :: bars.map (csvRow A spreadHalf)⟩

/-- `xs[i]`, where `none` is an `IndexError`. -/
def item {α : Type} (xs : List α) (i : Int) : Option α :=
  if 0 ≤ i then xs[i.toNat]? else if 0 ≤ i + xs.length then xs[(i + xs.length).toNat]? else none

/-- The loop that makes the `lag_rows`. -/
def lagRows (rows : List Bar) (lagShiftBars : Int) : Option (List Bar) :=
  let sh := min lagShiftBars (rows.length - 1)
  (List.range rows.length).mapM (fun i : Nat => do
    let src ← item rows (i - sh : Int)
    let row ← item rows (i : Int)
    some { tsMs := row.tsMs, close := src.close, volume := src.volume })

/-- `main` after the download: its result and the files it writes. -/
def main (a : Args) (rows : List Bar) : Option (Int × List CsvFile) :=
  if rows = [] then some (1, [])
  else if 0 < a.lagShiftBars then do
    let lag ← lagRows rows a.lagShiftBars
    some (0, [writeCsv A a.out rows a.spreadHalf, writeCsv A (a.out ++ ".lag.csv") lag a.spreadHalf])
  else some (0, [writeCsv A a.out rows a.spreadHalf])

/-- Row `i` of a lag file has the quote of the bar `shift` rows earlier, or of the first bar where there is
none. -/
def NeverAhead (a : Args) (rows : List Bar) (file : CsvFile) : Prop :=
  ∀ i row src, rows[i]? = some row → rows[i - a.lagShiftBars.toNat]? = some src →
    file.rows[i + 1]? = some (toString row.tsMs :: quoteFields A a.spreadHalf src)

/-- `main` raises no exception, and the lag file, where it writes one, has a row for each bar, none of them
ahead of it. -/
def LagBehind (a : Args) (rows : List Bar) : Prop :=
  ∃ result files, main A a rows = some (result, files) ∧
    ∀ file ∈ files, file.path = a.out ++ ".lag.csv" →
      file.rows.length = rows.length + 1 ∧ NeverAhead A a rows file

/-- The bars at the end, as many as the shift if there are more, have the quote of the first one. -/
def EndsAsFirst (a : Args) (rows : List Bar) : Prop :=
  ∀ first, rows.head? = some first →
    ∀ bar ∈ rows.drop (rows.length - min a.lagShiftBars.toNat (rows.length - 1)),
      quoteFields A a.spreadHalf bar = quoteFields A a.spreadHalf first

end Script

/-! ## The rows of the lag file -/

/-- Where the quote of row `i` is taken from. -/
def srcIndex (length sh i : Nat) : Nat := if sh ≤ i then i - sh else length + i - sh

lemma item_sub {α : Type} {xs : List α} {sh i : Nat} (hsh : sh < xs.length) :
    item xs ((i : Int) - sh) = xs[srcIndex xs.length sh i]? := by
  unfold item srcIndex
  by_cases hle : sh ≤ i
  · rw [if_pos (by omega), if_pos hle]
    congr 1
    omega
  · rw [if_neg (by omega), if_pos (by omega), if_neg hle]
    congr 1
    omega

lemma item_natCast {α : Type} (xs : List α) (i : Nat) : item xs (i : Int) = xs[i]? := by
  unfold item
  rw [if_pos (by omega)]
  rfl

lemma mapM_some {α β : Type} {f : α → Option β} {g : α → β} {xs : List α} (h : ∀ x ∈ xs, f x = some (g x)) :
    xs.mapM f = some (xs.map g) := by
  induction xs with
  | nil => rfl
  | cons x xs ih =>
    rw [List.mapM_cons, h x List.mem_cons_self, ih (fun y hy => h y (List.mem_cons_of_mem x hy))]
    rfl

/-- A row of the lag file. -/
def lagRow (rows : List Bar) (sh i : Nat) : Bar where
  tsMs := (rows.getD i default).tsMs
  close := (rows.getD (srcIndex rows.length sh i) default).close
  volume := (rows.getD (srcIndex rows.length sh i) default).volume

lemma srcIndex_lt {length sh i : Nat} (hi : i < length) (hsh : sh < length) : srcIndex length sh i < length := by
  unfold srcIndex
  split
  · omega
  · omega

/-- No index is out of range. -/
lemma lagRows_eq {rows : List Bar} {lagShiftBars : Int} (hne : rows ≠ []) (hshift : 0 < lagShiftBars) :
    lagRows rows lagShiftBars = some ((List.range rows.length).map
      (lagRow rows (min lagShiftBars.toNat (rows.length - 1)))) := by
  have hpos : 0 < rows.length := List.length_pos_iff.mpr hne
  have hsh : min lagShiftBars ((rows.length : Int) - 1) =
      ((min lagShiftBars.toNat (rows.length - 1) : Nat) : Int) := by omega
  unfold lagRows
  simp only [hsh]
  apply mapM_some
  intro i hi
  have hi : i < rows.length := List.mem_range.mp hi
  have hlt : min lagShiftBars.toNat (rows.length - 1) < rows.length := by omega
  have hsrc := srcIndex_lt hi hlt
  rw [item_sub hlt, item_natCast, List.getElem?_eq_getElem hi, List.getElem?_eq_getElem hsrc]
  unfold lagRow
  rw [List.getD_eq_getElem _ _ hi, List.getD_eq_getElem _ _ hsrc]
  rfl

lemma main_eq {A : Rounding} {a : Args} {rows : List Bar} (hne : rows ≠ []) (hshift : 0 < a.lagShiftBars) :
    main A a rows = some (0, [writeCsv A a.out rows a.spreadHalf, writeCsv A (a.out ++ ".lag.csv")
      ((List.range rows.length).map (lagRow rows (min a.lagShiftBars.toNat (rows.length - 1)))) a.spreadHalf]) := by
  unfold main
  rw [if_neg hne, if_pos hshift, lagRows_eq hne hshift]
  rfl

section LagFile

variable {A : Rounding} {a : Args} {rows : List Bar} {sh : Nat}

lemma lag_file_row {i : Nat} (hi : i < rows.length) :
    (writeCsv A (a.out ++ ".lag.csv") ((List.range rows.length).map (lagRow rows sh)) a.spreadHalf).rows[i + 1]? =
      some (toString (rows.getD i default).tsMs ::
        quoteFields A a.spreadHalf (rows.getD (srcIndex rows.length sh i) default)) := by
  unfold writeCsv
  rw [List.getElem?_cons_succ, List.map_map, List.getElem?_map, List.getElem?_range hi]
  rfl

/-- The rows that take a bar from the end have the quote of the first bar. -/
def WrapsToFirst (A : Rounding) (a : Args) (rows : List Bar) (sh : Nat) : Prop :=
  ∀ i < sh, quoteFields A a.spreadHalf (rows.getD (rows.length - sh + i) default) =
    quoteFields A a.spreadHalf (rows.getD 0 default)

lemma endsAsFirst_iff (hne : rows ≠ []) (hsh : sh = min a.lagShiftBars.toNat (rows.length - 1)) :
    EndsAsFirst A a rows ↔ WrapsToFirst A a rows sh := by
  obtain ⟨first, rest, rfl⟩ := List.exists_cons_of_ne_nil hne
  unfold EndsAsFirst WrapsToFirst
  rw [← hsh]
  constructor
  · intro hend i hi
    have hlt : (first :: rest).length - sh + i < (first :: rest).length := by
      simp only [List.length_cons] at hsh ⊢
      omega
    rw [List.getD_eq_getElem _ _ hlt]
    apply hend first rfl
    apply List.mem_iff_getElem?.mpr
    exact ⟨i, by rw [List.getElem?_drop, List.getElem?_eq_getElem hlt]⟩
  · intro hwraps first' hfirst bar hbar
    obtain rfl := Option.some.inj hfirst
    obtain ⟨i, hi⟩ := List.mem_iff_getElem?.mp hbar
    rw [List.getElem?_drop] at hi
    obtain ⟨hlt, -⟩ := List.getElem?_eq_some_iff.mp hi
    have hquote := hwraps i (by omega)
    rw [List.getD_eq_getElem?_getD, hi] at hquote
    exact hquote

/-- Where a row should take its quote from, the lag file takes it in all rows but the first ones. -/
lemma neverAhead_iff (hne : rows ≠ []) (hsh : sh = min a.lagShiftBars.toNat (rows.length - 1)) :
    NeverAhead A a rows (writeCsv A (a.out ++ ".lag.csv") ((List.range rows.length).map (lagRow rows sh))
      a.spreadHalf) ↔ WrapsToFirst A a rows sh := by
  have hpos : 0 < rows.length := List.length_pos_iff.mpr hne
  constructor
  · intro hnever i hi
    have hrow : i < rows.length := by omega
    have hsrc : srcIndex rows.length sh i = rows.length - sh + i := by
      unfold srcIndex
      rw [if_neg (by omega)]
      omega
    have hzero : i - a.lagShiftBars.toNat = 0 := by omega
    have hquote := hnever i rows[i] rows[0] (List.getElem?_eq_getElem hrow)
      (by rw [hzero]; exact List.getElem?_eq_getElem hpos)
    rw [lag_file_row hrow, Option.some.injEq, hsrc] at hquote
    rw [List.getD_eq_getElem _ _ hpos]
    exact (List.cons.inj hquote).2
  · intro hwraps i row src hrow hsrc
    obtain ⟨hi, hrowEq⟩ := List.getElem?_eq_some_iff.mp hrow
    have hquote : quoteFields A a.spreadHalf (rows.getD (srcIndex rows.length sh i) default) =
        quoteFields A a.spreadHalf src := by
      unfold srcIndex
      by_cases hle : sh ≤ i
      · have hindex : i - sh = i - a.lagShiftBars.toNat := by omega
        rw [if_pos hle, hindex, List.getD_eq_getElem?_getD, hsrc]
        rfl
      · have hzero : i - a.lagShiftBars.toNat = 0 := by omega
        have hindex : rows.length + i - sh = rows.length - sh + i := by omega
        rw [hzero] at hsrc
        rw [if_neg hle, hindex, hwraps i (by omega), List.getD_eq_getElem?_getD, hsrc]
        rfl
    rw [lag_file_row hi, hquote, List.getD_eq_getElem _ _ hi, hrowEq]

end LagFile

lemma lag_path_ne (out : String) : out ≠ out ++ ".lag.csv" := by
  intro h
  have hlength := congrArg String.length h
  rw [String.length_append] at hlength
  have hsuffix : ".lag.csv".length = 8 := rfl
  omega

theorem lag_behind_iff (A : Rounding) (a : Args) (rows : List Bar) (hshift : 1 ≤ a.lagShiftBars) :
    LagBehind A a rows ↔ EndsAsFirst A a rows := by
  by_cases hne : rows = []
  · subst hne
    refine iff_of_true ⟨1, [], rfl, by simp⟩ ?_
    intro first hfirst
    cases hfirst
  have hmain := main_eq (A := A) hne hshift
  rw [endsAsFirst_iff hne rfl, ← neverAhead_iff hne rfl]
  constructor
  · rintro ⟨result, files, hfiles, hbehind⟩
    obtain ⟨-, rfl⟩ := Prod.mk.inj (Option.some.inj (hmain.symm.trans hfiles))
    exact (hbehind _ (List.mem_cons_of_mem _ List.mem_cons_self) rfl).2
  · intro hnever
    refine ⟨0, _, hmain, ?_⟩
    intro file hfile hpath
    rcases List.mem_cons.mp hfile with rfl | hfile
    · exact absurd hpath (lag_path_ne a.out)
    · obtain rfl := List.mem_singleton.mp hfile
      exact ⟨by simp [writeCsv], hnever⟩

/-- Three bars, the last of which has the quote of the first. -/
theorem lag_behind_of_return :
    LagBehind .binary64 { lagShiftBars := 1 } [⟨0, 100, 1⟩, ⟨1000, 105, 2⟩, ⟨2000, 100, 1⟩] := by
  apply (lag_behind_iff .binary64 { lagShiftBars := 1 } _ (by decide)).mpr
  intro first hfirst bar hbar
  obtain rfl := Option.some.inj hfirst
  obtain rfl := List.mem_singleton.mp hbar
  rfl

/-- With two bars, the first row has the quote of the second. -/
theorem first_row_looks_ahead : ¬LagBehind .binary64 { lagShiftBars := 1 } [⟨0, 100, 1⟩, ⟨1000, 105, 2⟩] := by
  rintro ⟨result, files, hfiles, hbehind⟩
  have hmain := @main_eq .binary64 { lagShiftBars := 1 } [⟨0, 100, 1⟩, ⟨1000, 105, 2⟩] (by simp) (by decide)
  obtain ⟨-, rfl⟩ := Prod.mk.inj (Option.some.inj (hmain.symm.trans hfiles))
  obtain ⟨-, hnever⟩ := hbehind _ (List.mem_cons_of_mem _ List.mem_cons_self) rfl
  have hrow := hnever 0 ⟨0, 100, 1⟩ ⟨0, 100, 1⟩ rfl rfl
  exact absurd hrow (by decide +kernel)

end RealData

end LatencyArb
