import LatencyArb.Backtest.CsvConvert

/-!
# The line endings of the converter

The CR at the end of a line is dropped after the empty lines have been passed over and the header has been
counted, so an empty line counts as a row to skip when it ends with CR LF.
-/

namespace LatencyArb

open Numeral

/-! ## Dropping before and after a filter -/

section Dropping

variable {α β : Type*} (keep : α → Bool) (p : α → Option β)

/-- What `p` accepts behind the first `n` elements stands behind `m` kept ones. -/
def Behind (m n : Nat) (xs : List α) : Prop :=
  ∀ i x, xs[i]? = some x → (p x).isSome = true → n ≤ i → m ≤ (xs.take i).countP keep

variable {keep p} {m n : Nat}

lemma behind_cons {x : α} {xs : List α} : Behind keep p m n (x :: xs) ↔
    ((p x).isSome = true → n = 0 → m = 0) ∧
      Behind keep p (if keep x then m - 1 else m) (n - 1) xs := by
  unfold Behind
  rw [← Nat.and_forall_add_one]
  apply and_congr
  · simp only [List.getElem?_cons_zero, Option.some.injEq, forall_eq', List.take_zero, List.countP_nil,
      Nat.le_zero]
  · apply forall_congr'
    intro i
    apply forall_congr'
    intro y
    rw [List.getElem?_cons_succ, List.take_succ_cons, List.countP_cons]
    by_cases hx : keep x = true
    · simp only [hx, if_true]
      constructor
      · intro h hy hp hn
        have hcount := h hy hp (by omega)
        omega
      · intro h hy hp hn
        have hcount := h hy hp (by omega)
        omega
    · simp only [hx]
      constructor
      · intro h hy hp hn
        exact h hy hp (by omega)
      · intro h hy hp hn
        exact h hy hp (by omega)

lemma filterMap_filter_keep (hkeep : ∀ x, (p x).isSome = true → keep x = true) (xs : List α) :
    (xs.filter keep).filterMap p = xs.filterMap p := by
  rw [List.filterMap_filter]
  apply List.filterMap_congr
  intro x _
  by_cases hx : keep x = true
  · rw [if_pos hx]
  · rw [if_neg hx]
    have hnone : p x = none := Option.not_isSome_iff_eq_none.mp (fun h => hx (hkeep x h))
    exact hnone.symm

/-- The element that `p` accepts first is missing when something is dropped. -/
lemma filterMap_drop_ne (hkeep : ∀ x, (p x).isSome = true → keep x = true) {x : α}
    (hsome : (p x).isSome = true) (xs : List α) :
    (((x :: xs).filter keep).drop (m + 1)).filterMap p ≠ (x :: xs).filterMap p := by
  intro h
  obtain ⟨y, hy⟩ := Option.isSome_iff_exists.mp hsome
  have hsub : ((xs.filter keep).drop m).filterMap p |>.Sublist (xs.filterMap p) :=
    ((List.drop_sublist m _).trans List.filter_sublist).filterMap p
  rw [List.filter_cons_of_pos (hkeep x hsome), List.drop_succ_cons, List.filterMap_cons_some hy] at h
  have hle := hsub.length_le
  rw [h, List.length_cons] at hle
  omega

/-- Dropping `m` elements after the filter gives the same as dropping `n` before it, in so far as `p` is
concerned, when what `p` accepts stands behind both. -/
theorem filterMap_drop_filter_iff (hkeep : ∀ x, (p x).isSome = true → keep x = true) (hmn : n ≤ m)
    (xs : List α) :
    ((xs.filter keep).drop m).filterMap p = (xs.drop n).filterMap p ↔ Behind keep p m n xs := by
  induction xs generalizing m n with
  | nil => simp [Behind]
  | cons x xs ih =>
    rw [behind_cons]
    match m, n with
    | 0, 0 =>
      have hrest := ih (le_refl 0)
      rw [List.drop_zero, List.drop_zero, filterMap_filter_keep hkeep] at hrest ⊢
      simp only [ite_self, Nat.zero_sub, true_iff, implies_true, true_and] at hrest ⊢
      exact hrest
    | m + 1, 0 =>
      by_cases hsome : (p x).isSome = true
      · rw [List.drop_zero]
        constructor
        · intro h
          exact absurd h (filterMap_drop_ne hkeep hsome xs)
        · intro h
          exact absurd (h.1 hsome rfl) (Nat.succ_ne_zero m)
      · have hnone : p x = none := Option.not_isSome_iff_eq_none.mp hsome
        have hhead : ((p x).isSome = true → 0 = 0 → m + 1 = 0) := fun h => absurd h hsome
        rw [and_iff_right hhead, List.drop_zero, List.filterMap_cons_none hnone]
        by_cases hx : keep x = true
        · have hrest := ih (Nat.zero_le m)
          rw [List.filter_cons_of_pos hx, List.drop_succ_cons, if_pos hx]
          simpa using hrest
        · have hrest := ih (Nat.zero_le (m + 1))
          rw [List.filter_cons_of_neg hx, if_neg hx]
          simpa using hrest
    | m + 1, n + 1 =>
      have hhead : ((p x).isSome = true → n + 1 = 0 → m + 1 = 0) := fun _ h => absurd h (Nat.succ_ne_zero n)
      rw [and_iff_right hhead, List.drop_succ_cons]
      by_cases hx : keep x = true
      · have hrest := ih (Nat.le_of_succ_le_succ hmn)
        rw [List.filter_cons_of_pos hx, List.drop_succ_cons, if_pos hx]
        simpa using hrest
      · have hrest := ih (Nat.le_of_succ_le hmn)
        rw [List.filter_cons_of_neg hx, if_neg hx]
        simpa using hrest
    | 0, n + 1 => omega

end Dropping

/-! ## The converter -/

namespace CsvToBinaryConverter

/-- The text with CR LF for each LF. -/
def crlf (text : List UInt8) : List UInt8 := text.flatMap (fun c => if c = 10 then [13, 10] else [c])

def notEmpty (line : List UInt8) : Bool := decide (line ≠ [])

/-- The file is the records of the lines behind those that are skipped, the empty ones not counted. -/
lemma convertLines_file (opt : Options) (skip : UInt64) (lineNo : Nat) (lines : List (List UInt8)) :
    (convertLines opt skip lineNo lines).map Prod.snd =
      ((lines.filter notEmpty).drop skip.toNat).filterMap
        (fun line => parseTickLine opt.delimiter (dropCr line)) := by
  induction lines generalizing skip lineNo with
  | nil => simp [convertLines]
  | cons line lines ih =>
    unfold convertLines
    by_cases hempty : line = []
    · have hneg : ¬notEmpty line = true := by simp [notEmpty, hempty]
      rw [if_pos hempty, ih, List.filter_cons_of_neg hneg]
    have hpos : notEmpty line = true := by simpa [notEmpty] using hempty
    rw [if_neg hempty, List.filter_cons_of_pos hpos]
    by_cases hskip : 0 < skip
    · have hlt : 0 < skip.toNat := hskip
      have hone : skip.toNat = (skip - 1).toNat + 1 := by
        rw [skip_pred hskip]
        exact (Nat.sub_add_cancel hlt).symm
      rw [if_pos hskip, ih, hone, List.drop_succ_cons]
    · have hzero := skip_zero hskip
      have hrest := ih skip (lineNo + 1)
      rw [hzero, List.drop_zero] at hrest ⊢
      rw [if_neg hskip]
      cases hparse : parseTickLine opt.delimiter (dropCr line) with
      | none => simp [hparse, hrest]
      | some t => simp [hparse, hrest]

lemma convert_file (csvPath binPath : String) (text : List UInt8) (opt : Options) :
    (convert csvPath binPath (some text) true opt).file =
      (((getlines text).filter notEmpty).drop opt.skip.toNat).filterMap
        (fun line => parseTickLine opt.delimiter (dropCr line)) := by
  unfold Conversion.file
  rw [convert_written, convertLines_file]

/-- What is returned is known from the file. -/
lemma returned_of_file {csvPath binPath : String} {text text' : List UInt8} {opt : Options}
    (h : (convert csvPath binPath (some text) true opt).file =
      (convert csvPath binPath (some text') true opt).file) :
    (convert csvPath binPath (some text) true opt).returned =
      (convert csvPath binPath (some text') true opt).returned := by
  have hlength := congrArg List.length h
  unfold Conversion.file at hlength
  rw [List.length_map, List.length_map] at hlength
  have hempty : (convert csvPath binPath (some text) true opt).written = [] ↔
      (convert csvPath binPath (some text') true opt).written = [] := by
    rw [← List.length_eq_zero_iff, ← List.length_eq_zero_iff, hlength]
  rw [convert_returned, convert_returned, hlength]
  exact if_congr hempty rfl rfl

lemma mem_getlines {text line : List UInt8} {c : UInt8} (hline : line ∈ getlines text) (hc : c ∈ line) :
    c ∈ text := by
  induction text generalizing line with
  | nil => cases hline
  | cons d s ih =>
    unfold getlines at hline
    by_cases hd : d = 10
    · rw [if_pos hd] at hline
      rcases List.mem_cons.mp hline with rfl | hrest
      · cases hc
      · exact List.mem_cons_of_mem d (ih hrest hc)
    rw [if_neg hd] at hline
    match hlines : getlines s with
    | [] =>
      rw [hlines] at hline
      rw [List.mem_singleton.mp hline] at hc
      exact List.mem_singleton.mp hc ▸ List.mem_cons_self
    | first :: lines =>
      rw [hlines] at hline ih
      rcases List.mem_cons.mp hline with rfl | hrest
      · rcases List.mem_cons.mp hc with rfl | hmem
        · exact List.mem_cons_self
        · exact List.mem_cons_of_mem d (ih List.mem_cons_self hmem)
      · exact List.mem_cons_of_mem d (ih (List.mem_cons_of_mem first hrest) hc)

lemma dropCr_cons {c : UInt8} {line : List UInt8} (h : line ≠ []) : dropCr (c :: line) = c :: dropCr line := by
  unfold dropCr
  rw [List.getLast?_cons_of_ne_nil h, List.dropLast_cons_of_ne_nil h]
  split
  · rfl
  · rfl

/-- The other text has the same lines behind `dropCr`, and none of them is empty before it. -/
lemma getlines_crlf {text : List UInt8} (h : 13 ∉ text) :
    (getlines (crlf text)).map dropCr = getlines text ∧ ∀ line ∈ getlines (crlf text), line ≠ [] := by
  induction text with
  | nil => exact ⟨rfl, by simp [crlf, getlines]⟩
  | cons c s ih =>
    obtain ⟨hc, hs⟩ := not_or.mp (fun hmem => h (List.mem_cons.mpr hmem))
    obtain ⟨hmap, hne⟩ := ih hs
    by_cases hlf : c = 10
    · have hcrlf : getlines (crlf (c :: s)) = [13] :: getlines (crlf s) := by
        simp [crlf, hlf, getlines]
      have hlines : getlines (c :: s) = [] :: getlines s := by
        simp [hlf, getlines]
      rw [hcrlf, hlines, List.map_cons, hmap]
      refine ⟨rfl, ?_⟩
      rintro line hline rfl
      rcases List.mem_cons.mp hline with heq | hmem
      · cases heq
      · exact hne [] hmem rfl
    · have hcrlf : crlf (c :: s) = c :: crlf s := by
        simp [crlf, hlf]
      rw [hcrlf]
      unfold getlines
      rw [if_neg hlf, if_neg hlf, ← hmap]
      match getlines (crlf s), hne with
      | [], _ =>
        have hlast : dropCr [c] = [c] := if_neg (by simpa using Ne.symm hc)
        simp [hlast]
      | line :: lines, hne =>
        have hfirst := dropCr_cons (c := c) (hne line List.mem_cons_self)
        refine ⟨?_, ?_⟩
        · simp [hfirst]
        · rintro line' hline' rfl
          rcases List.mem_cons.mp hline' with heq | hmem
          · cases heq
          · exact hne [] (List.mem_cons_of_mem line hmem) rfl

lemma dropCr_line {text line : List UInt8} (h : 13 ∉ text) (hline : line ∈ getlines text) :
    dropCr line = line := by
  unfold dropCr
  rw [if_neg]
  intro hlast
  exact h (mem_getlines hline (List.mem_of_getLast? hlast))

lemma convert_lf_file {text : List UInt8} (h : 13 ∉ text) (csvPath binPath : String) (opt : Options) :
    (convert csvPath binPath (some text) true opt).file =
      (((getlines text).filter notEmpty).drop opt.skip.toNat).filterMap (parseTickLine opt.delimiter) := by
  rw [convert_file]
  apply List.filterMap_congr
  intro line hline
  rw [dropCr_line h (List.mem_of_mem_filter (List.mem_of_mem_drop hline))]

/-- No line of the other text is empty. -/
lemma convert_crlf_file {text : List UInt8} (h : 13 ∉ text) (csvPath binPath : String) (opt : Options) :
    (convert csvPath binPath (some (crlf text)) true opt).file =
      ((getlines text).drop opt.skip.toNat).filterMap (parseTickLine opt.delimiter) := by
  obtain ⟨hmap, hne⟩ := getlines_crlf h
  have hfilter : (getlines (crlf text)).filter notEmpty = getlines (crlf text) := by
    apply List.filter_eq_self.mpr
    intro line hline
    exact decide_eq_true (hne line hline)
  rw [convert_file, hfilter, ← hmap, ← List.map_drop, List.filterMap_map]
  rfl

/-- Every line that can be read and has enough lines before it to be read also has enough of them that are
not empty. -/
def NoBlankSkipped (opt : Options) (text : List UInt8) : Prop :=
  Behind notEmpty (parseTickLine opt.delimiter) opt.skip.toNat opt.skip.toNat (getlines text)

lemma not_empty_of_parse {delim : UInt8} {line : List UInt8} (h : (parseTickLine delim line).isSome = true) :
    notEmpty line = true := by
  apply decide_eq_true
  rintro rfl
  have hnone : parseTickLine delim [] = none := by simp [parseTickLine, columns]
  rw [hnone] at h
  cases h

theorem line_endings_iff (csvPath binPath : String) (opt : Options) {text : List UInt8} (h : 13 ∉ text) :
    ((convert csvPath binPath (some text) true opt).file =
        (convert csvPath binPath (some (crlf text)) true opt).file ∧
      (convert csvPath binPath (some text) true opt).returned =
        (convert csvPath binPath (some (crlf text)) true opt).returned) ↔ NoBlankSkipped opt text := by
  rw [and_iff_left_of_imp returned_of_file, convert_lf_file h, convert_crlf_file h]
  exact filterMap_drop_filter_iff (fun _ => not_empty_of_parse) (le_refl _) (getlines text)

/-- An empty line between the rows. -/
def gap : List UInt8 := bytesOf "timestamp,bid,ask,volume\n1,1,2,1\n\n2,1,2,1\n"

theorem line_endings_gap :
    (convert "lag.csv" "lag.bin" (some gap) true {}).file =
        (convert "lag.csv" "lag.bin" (some (crlf gap)) true {}).file ∧
      (convert "lag.csv" "lag.bin" (some gap) true {}).returned =
        (convert "lag.csv" "lag.bin" (some (crlf gap)) true {}).returned := by
  apply (line_endings_iff "lag.csv" "lag.bin" {} (by decide +kernel)).mpr
  intro i line hline hparse hi
  have hheader : getlines gap = bytesOf "timestamp,bid,ask,volume" :: (getlines gap).tail := by decide +kernel
  obtain ⟨j, rfl⟩ : ∃ j, i = j + 1 := Nat.exists_eq_add_one.mpr hi
  rw [hheader, List.take_succ_cons, List.countP_cons_of_pos (by decide +kernel)]
  exact Nat.le_add_left 1 _

/-- An empty line in front of the header, where the header and one row are to be skipped. -/
def blankFirst : List UInt8 := bytesOf "\ntimestamp,bid,ask,volume\n1,1,2,1\n"

/-- With LF no row is left. With CR LF the empty line and the header are skipped. -/
theorem blank_line_counts : 13 ∉ blankFirst ∧
    ¬((convert "lag.csv" "lag.bin" (some blankFirst) true { skipRows := 1 }).file =
        (convert "lag.csv" "lag.bin" (some (crlf blankFirst)) true { skipRows := 1 }).file ∧
      (convert "lag.csv" "lag.bin" (some blankFirst) true { skipRows := 1 }).returned =
        (convert "lag.csv" "lag.bin" (some (crlf blankFirst)) true { skipRows := 1 }).returned) := by
  refine ⟨by decide +kernel, ?_⟩
  rintro ⟨-, hreturned⟩
  exact absurd hreturned (by decide +kernel)

end CsvToBinaryConverter

end LatencyArb
