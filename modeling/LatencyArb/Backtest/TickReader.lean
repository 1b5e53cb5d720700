import LatencyArb.Library.Bisection
import LatencyArb.Library.Loop
import LatencyArb.Backtest.CsvConvert

/-!
# The reader of tick files (`src/backtest/tick_binary.cpp`)

`MmapTickReader` as it is built for POSIX: the file is mapped as an array of records, in which
`find_at_or_before` bisects. A lookup keeps the indices at which it reads the array.
-/

namespace LatencyArb

/-- A file of tick records, with the bytes behind the last whole one. -/
structure TickFile where
  ticks : List CsvTick
  rest : Nat := 0
  rest_lt : rest < 24
  size_lt : 24 * ticks.length + rest < 2 ^ 63

namespace TickFile

/-- The size that `fstat` gives. -/
def size (f : TickFile) : Nat := 24 * f.ticks.length + f.rest

lemma count_toNat (f : TickFile) : (UInt64.ofNat (f.size / 24)).toNat = f.ticks.length := by
  have hrest := f.rest_lt
  have hlt := f.size_lt
  unfold size
  rw [UInt64.toNat_ofNat']
  omega

end TickFile

/-- What stands under a path. -/
inductive OnDisk where
  | missing
  | unreadable
  | file (f : TickFile) (maps : Bool)

structure MmapTickReader where
  path : String
  base : Option (List CsvTick) := none
  count : UInt64 := 0
  fileLen : Nat := 0
  mapped : ∀ ticks ∈ base, ticks ≠ [] ∧ count.toNat = ticks.length ∧ fileLen = 24 * ticks.length

namespace MmapTickReader

/-- A reader that is not open. -/
def closed (path : String) : MmapTickReader := { path := path, mapped := by simp }

def map (path : String) (f : TickFile) (hne : f.size ≠ 0) (hwhole : f.size % 24 = 0) : MmapTickReader where
  path := path
  base := some f.ticks
  count := UInt64.ofNat (f.size / 24)
  fileLen := f.size
  mapped := by
    have hrest := f.rest_lt
    unfold TickFile.size at hne hwhole
    rintro ticks ⟨⟩
    refine ⟨?_, f.count_toNat, ?_⟩
    · intro hnil
      rw [hnil, List.length_nil] at hne hwhole
      omega
    · unfold TickFile.size
      omega

/-- `open`: what it returns, the reader after it, and the text of the error. -/
def openFile (r : MmapTickReader) (disk : OnDisk) : Bool × MmapTickReader × Option String :=
  if r.base.isSome then (true, r, none)
  else match disk with
  | .missing => (false, r, some ("open failed: " ++ r.path))
  | .unreadable => (false, r, some ("empty or unreadable file: " ++ r.path))
  | .file f maps =>
    if hne : f.size = 0 then (false, r, some ("empty or unreadable file: " ++ r.path))
    else if hwhole : f.size % 24 ≠ 0 then
      (false, r, some ("file size not a multiple of BinaryTick: " ++ r.path))
    else if !maps then (false, r, some ("mmap failed: " ++ r.path))
    else (true, map r.path f hne (not_not.mp hwhole), none)

def close (r : MmapTickReader) : MmapTickReader := closed r.path

end MmapTickReader

/-! ## `find_at_or_before` -/

/-- The `ts_ms` of the record at an index. -/
def tsAt (ticks : List CsvTick) (i : Nat) : Int := ((ticks[i]?).map CsvTick.tsMs).getD 0

/-- The locals of the loop. It keeps the indices it has read, and those it has subtracted 1 from. -/
structure TickSearch where
  lo : UInt64 := 0
  hi : UInt64
  ans : UInt64 := 0
  reads : List UInt64 := []
  lowered : List UInt64 := []

namespace TickSearch

def mid (s : TickSearch) : UInt64 := s.lo + (s.hi - s.lo) / 2

def goUp (s : TickSearch) : TickSearch :=
  { s with ans := s.mid, lo := s.mid + 1, reads := s.reads ++ [s.mid] }

def goDown (s : TickSearch) : TickSearch :=
  { s with hi := s.mid - 1, reads := s.reads ++ [s.mid], lowered := s.lowered ++ [s.mid] }

/-- The loop, with `none` where it ends. -/
def narrow (ticks : List CsvTick) (ts : Int) (s : TickSearch) : Option TickSearch :=
  if s.lo ≤ s.hi then some (if tsAt ticks s.mid.toNat ≤ ts then s.goUp else s.goDown)
  else none

def run (ticks : List CsvTick) (ts : Int) (count : UInt64) : TickSearch :=
  Loop.run (narrow ticks ts) count.toNat { hi := count - 1 }

end TickSearch

/-- What a lookup returns, its out-parameter, the indices it has read, and where its loop ended if it was
reached. -/
structure TickLookup where
  found : Bool
  out : CsvTick
  reads : List UInt64 := []
  loop : Option TickSearch := none

namespace MmapTickReader

def findAtOrBefore (r : MmapTickReader) (ts : Int) (out : CsvTick) : TickLookup :=
  match r.base with
  | none => { found := false, out := out }
  | some ticks =>
    if r.count = 0 then { found := false, out := out }
    else if ts < tsAt ticks 0 then { found := false, out := out, reads := [0] }
    else
      let s := TickSearch.run ticks ts r.count
      { found := true, out := (ticks[s.ans.toNat]?).getD out, reads := 0 :: s.reads ++ [s.ans], loop := some s }

end MmapTickReader

/-! ## What the loop does -/

namespace TickSearch

variable {ticks : List CsvTick} {ts : Int} {count : UInt64} {s t : TickSearch}

lemma narrow_eq_some : narrow ticks ts s = some t ↔ s.lo ≤ s.hi ∧
    (tsAt ticks s.mid.toNat ≤ ts ∧ t = s.goUp ∨ ¬tsAt ticks s.mid.toNat ≤ ts ∧ t = s.goDown) := by
  unfold narrow
  by_cases hle : s.lo ≤ s.hi
  · by_cases hmid : tsAt ticks s.mid.toNat ≤ ts
    · simp [hle, hmid, eq_comm]
    · simp [hle, hmid, eq_comm]
  · simp [hle]

lemma narrow_eq_none (h : narrow ticks ts s = none) : s.hi.toNat < s.lo.toNat := by
  rw [← UInt64.lt_iff_toNat_lt, ← UInt64.not_le]
  intro hle
  unfold narrow at h
  rw [if_pos hle] at h
  cases h

lemma mid_toNat (h : s.lo ≤ s.hi) : s.mid.toNat = s.lo.toNat + (s.hi.toNat - s.lo.toNat) / 2 := by
  have hle := UInt64.le_iff_toNat_le.mp h
  have hlt := s.hi.toNat_lt
  have htwo : (2 : UInt64).toNat = 2 := rfl
  unfold mid
  rw [UInt64.toNat_add, UInt64.toNat_div, UInt64.toNat_sub_of_le _ _ h, htwo]
  exact Nat.mod_eq_of_lt (by omega)

lemma mid_mem (h : s.lo ≤ s.hi) : s.lo.toNat ≤ s.mid.toNat ∧ s.mid.toNat ≤ s.hi.toNat := by
  have hle := UInt64.le_iff_toNat_le.mp h
  rw [mid_toNat h]
  omega

/-- The bounds, and what has been read and lowered, with the array sorted or not. -/
structure Sound (ticks : List CsvTick) (ts : Int) (count : UInt64) (s : TickSearch) : Prop where
  bounds : Bisection (fun i => tsAt ticks i ≤ ts) count.toNat s.lo.toNat s.hi.toNat s.ans.toNat
  reads : ∀ i ∈ s.reads, i < count
  lowered : ∀ i ∈ s.lowered, 0 < i

lemma Sound.mid_lt (hs : Sound ticks ts count s) (h : s.lo ≤ s.hi) : s.mid.toNat < count.toNat :=
  (mid_mem h).2.trans_lt hs.bounds.hi_lt

lemma Sound.succ_toNat (hs : Sound ticks ts count s) (h : s.lo ≤ s.hi) :
    (s.mid + 1).toNat = s.mid.toNat + 1 := by
  have hlt := hs.mid_lt h
  have hcount := count.toNat_lt
  have hone : (1 : UInt64).toNat = 1 := rfl
  rw [UInt64.toNat_add, hone]
  exact Nat.mod_eq_of_lt (by omega)

lemma pred_toNat {i : UInt64} (h : 0 < i.toNat) : (i - 1).toNat = i.toNat - 1 := by
  have hone : (1 : UInt64).toNat = 1 := rfl
  have hle : 1 ≤ i := by
    rw [UInt64.le_iff_toNat_le, hone]
    exact h
  rw [UInt64.toNat_sub_of_le _ _ hle, hone]

lemma Sound.mid_pos (hs : Sound ticks ts count s) (hmid : ¬tsAt ticks s.mid.toNat ≤ ts) : 0 < s.mid.toNat :=
  hs.bounds.pos_of_not hmid

lemma Sound.reads_mid (hs : Sound ticks ts count s) (h : s.lo ≤ s.hi) :
    ∀ i ∈ s.reads ++ [s.mid], i < count := by
  rw [List.forall_mem_append, List.forall_mem_singleton]
  exact ⟨hs.reads, UInt64.lt_iff_toNat_lt.mpr (hs.mid_lt h)⟩

lemma Sound.goUp (hs : Sound ticks ts count s) (h : s.lo ≤ s.hi) (hmid : tsAt ticks s.mid.toNat ≤ ts) :
    Sound ticks ts count s.goUp where
  bounds := by
    show Bisection _ _ (s.mid + 1).toNat s.hi.toNat s.mid.toNat
    rw [hs.succ_toNat h]
    exact hs.bounds.up (mid_mem h).2 hmid
  reads := hs.reads_mid h
  lowered := hs.lowered

lemma Sound.goDown (hs : Sound ticks ts count s) (h : s.lo ≤ s.hi)
    (hmid : ¬tsAt ticks s.mid.toNat ≤ ts) : Sound ticks ts count s.goDown where
  bounds := by
    show Bisection _ _ s.lo.toNat (s.mid - 1).toNat s.ans.toNat
    rw [pred_toNat (hs.mid_pos hmid)]
    exact hs.bounds.down (mid_mem h).1 (mid_mem h).2
  reads := hs.reads_mid h
  lowered := by
    show ∀ i ∈ s.lowered ++ [s.mid], 0 < i
    rw [List.forall_mem_append, List.forall_mem_singleton]
    exact ⟨hs.lowered, UInt64.lt_iff_toNat_lt.mpr (hs.mid_pos hmid)⟩

/-- The number of indices left. -/
def left (s : TickSearch) : Nat := s.hi.toNat + 1 - s.lo.toNat

lemma Sound.step (hs : Sound ticks ts count s) (h : narrow ticks ts s = some t) :
    Sound ticks ts count t ∧ t.left < s.left := by
  obtain ⟨hle, ⟨hmid, rfl⟩ | ⟨hmid, rfl⟩⟩ := narrow_eq_some.mp h
  · refine ⟨hs.goUp hle hmid, ?_⟩
    have hmem := mid_mem hle
    show s.hi.toNat + 1 - (s.mid + 1).toNat < s.hi.toNat + 1 - s.lo.toNat
    rw [hs.succ_toNat hle]
    omega
  · refine ⟨hs.goDown hle hmid, ?_⟩
    have hmem := mid_mem hle
    have hpos := hs.mid_pos hmid
    show (s.mid - 1).toNat + 1 - s.lo.toNat < s.hi.toNat + 1 - s.lo.toNat
    rw [pred_toNat hpos]
    omega

lemma start_sound (hcount : 0 < count.toNat) (hfirst : tsAt ticks 0 ≤ ts) :
    Sound ticks ts count { hi := count - 1 } where
  bounds := by
    show Bisection _ _ 0 (count - 1).toNat 0
    rw [pred_toNat hcount]
    exact .start hcount hfirst
  reads := by simp
  lowered := by simp

/-- Of every array the loop ends with sound bounds. -/
theorem run_sound (hcount : 0 < count.toNat) (hfirst : tsAt ticks 0 ≤ ts) :
    Sound ticks ts count (run ticks ts count) ∧ narrow ticks ts (run ticks ts count) = none := by
  have hstart := start_sound hcount hfirst
  have hfuel : left { hi := count - 1 } ≤ count.toNat := by
    show (count - 1).toNat + 1 - 0 ≤ count.toNat
    rw [pred_toNat hcount]
    omega
  exact ⟨(Loop.run_invariant (fun _ _ hs h => (hs.step h).1) hstart count.toNat).1,
    Loop.run_terminates_within left (fun _ _ hs h => hs.step h) hstart hfuel⟩

end TickSearch

/-! ## Sorted arrays -/

/-- No tick is earlier than one in front of it. -/
def SortedByTs (ticks : List CsvTick) : Prop := ticks.Pairwise (fun a b => a.tsMs ≤ b.tsMs)

instance (ticks : List CsvTick) : Decidable (SortedByTs ticks) :=
  inferInstanceAs (Decidable (ticks.Pairwise (fun a b => a.tsMs ≤ b.tsMs)))

lemma tsAt_eq {ticks : List CsvTick} {i : Nat} {t : CsvTick} (h : ticks[i]? = some t) :
    tsAt ticks i = t.tsMs := by
  unfold tsAt
  rw [h]
  rfl

lemma tsAt_of_lt {ticks : List CsvTick} {i : Nat} (h : i < ticks.length) : tsAt ticks i = ticks[i].tsMs :=
  tsAt_eq (List.getElem?_eq_getElem h)

lemma SortedByTs.tsAt_le {ticks : List CsvTick} (hsorted : SortedByTs ticks) {i j : Nat} (hij : i ≤ j)
    (hj : j < ticks.length) : tsAt ticks i ≤ tsAt ticks j := by
  obtain rfl | hlt := Nat.eq_or_lt_of_le hij
  · exact le_rfl
  · rw [tsAt_of_lt (by omega), tsAt_of_lt hj]
    exact List.pairwise_iff_getElem.mp hsorted i j (by omega) hj hlt

/-- The indices of the ticks at or before a time. -/
def atOrBefore (ticks : List CsvTick) (ts : Int) : Set Nat := {i | ∃ t, ticks[i]? = some t ∧ t.tsMs ≤ ts}

lemma atOrBefore_eq (ticks : List CsvTick) (ts : Int) :
    atOrBefore ticks ts = {i | i < ticks.length ∧ tsAt ticks i ≤ ts} := by
  ext i
  constructor
  · rintro ⟨t, ht, hts⟩
    refine ⟨(List.getElem?_eq_some_iff.mp ht).1, ?_⟩
    rw [tsAt_eq ht]
    exact hts
  · rintro ⟨hi, hts⟩
    rw [tsAt_of_lt hi] at hts
    exact ⟨ticks[i], List.getElem?_eq_getElem hi, hts⟩

namespace TickSearch

variable {ticks : List CsvTick} {ts : Int} {count : UInt64} {s t : TickSearch}

/-- The bounds in a sorted array: behind the upper one every tick is later. -/
def Brackets (ticks : List CsvTick) (ts : Int) (count : UInt64) (s : TickSearch) : Prop :=
  Bracket (fun i => tsAt ticks i ≤ ts) count.toNat s.lo.toNat s.hi.toNat s.ans.toNat

lemma Brackets.step (hsorted : SortedByTs ticks) (hcount : count.toNat = ticks.length)
    (hs : Sound ticks ts count s) (hb : Brackets ticks ts count s) (h : narrow ticks ts s = some t) :
    Brackets ticks ts count t := by
  unfold Brackets at hb ⊢
  obtain ⟨hle, ⟨hmid, rfl⟩ | ⟨hmid, rfl⟩⟩ := narrow_eq_some.mp h
  · show Bracket _ _ (s.mid + 1).toNat s.hi.toNat s.mid.toNat
    rw [hs.succ_toNat hle]
    apply hb.up
    intro i hi
    exact (hsorted.tsAt_le hi (hcount ▸ hs.mid_lt hle)).trans hmid
  · show Bracket _ _ s.lo.toNat (s.mid - 1).toNat s.ans.toNat
    rw [pred_toNat (hs.mid_pos hmid)]
    apply hb.down
    intro i hi hin hts
    exact hmid ((hsorted.tsAt_le hi (hcount ▸ hin)).trans hts)

/-- In a sorted array the loop ends at the last tick that is not later. -/
theorem run_isGreatest (hsorted : SortedByTs ticks) (hcount : count.toNat = ticks.length)
    (hpos : 0 < count.toNat) (hfirst : tsAt ticks 0 ≤ ts) :
    IsGreatest (atOrBefore ticks ts) (run ticks ts count).ans.toNat := by
  have hstart : Brackets ticks ts count { hi := count - 1 } := by
    show Bracket _ _ 0 (count - 1).toNat 0
    rw [pred_toNat hpos]
    exact .start
  obtain ⟨hsound, hend⟩ := run_sound hpos hfirst
  have hrun := (Loop.run_invariant (I := fun s => Sound ticks ts count s ∧ Brackets ticks ts count s)
    (fun _ _ hs h => ⟨(hs.1.step h).1, hs.2.step hsorted hcount hs.1 h⟩)
    ⟨start_sound hpos hfirst, hstart⟩ count.toNat).1
  rw [atOrBefore_eq, ← hcount]
  exact hrun.2.last hsound.bounds (narrow_eq_none hend)

end TickSearch

/-! ## Lookups -/

namespace MmapTickReader

variable {r : MmapTickReader} {ticks : List CsvTick}

lemma count_toNat (h : r.base = some ticks) : r.count.toNat = ticks.length := (r.mapped ticks h).2.1

lemma count_pos (h : r.base = some ticks) : 0 < r.count.toNat := by
  rw [count_toNat h]
  exact List.length_pos_iff.mpr (r.mapped ticks h).1

lemma count_ne_zero (h : r.base = some ticks) : r.count ≠ 0 := by
  intro hzero
  have hpos := count_pos h
  rw [hzero] at hpos
  exact absurd hpos (by decide)

lemma find_later (h : r.base = some ticks) {ts : Int} (hts : ts < tsAt ticks 0) (out : CsvTick) :
    r.findAtOrBefore ts out = { found := false, out := out, reads := [0] } := by
  unfold findAtOrBefore
  rw [h]
  show (if r.count = 0 then _ else _) = _
  rw [if_neg (count_ne_zero h), if_pos hts]

lemma find_searches (h : r.base = some ticks) {ts : Int} (hts : ¬ts < tsAt ticks 0) (out : CsvTick) :
    r.findAtOrBefore ts out = {
      found := true, out := (ticks[(TickSearch.run ticks ts r.count).ans.toNat]?).getD out
      reads := 0 :: (TickSearch.run ticks ts r.count).reads ++ [(TickSearch.run ticks ts r.count).ans]
      loop := some (TickSearch.run ticks ts r.count) } := by
  unfold findAtOrBefore
  rw [h]
  show (if r.count = 0 then _ else _) = _
  rw [if_neg (count_ne_zero h), if_neg hts]

/-- The indices read lie in the array, with the ticks sorted or not. -/
lemma find_reads (h : r.base = some ticks) (ts : Int) (out : CsvTick) :
    ∀ i ∈ (r.findAtOrBefore ts out).reads, i < r.count := by
  have hzero : (0 : UInt64) < r.count := UInt64.lt_iff_toNat_lt.mpr (count_pos h)
  by_cases hts : ts < tsAt ticks 0
  · rw [find_later h hts]
    simpa using hzero
  · obtain ⟨hsound, -⟩ := TickSearch.run_sound (count_pos h) (not_lt.mp hts)
    have hans := UInt64.lt_iff_toNat_lt.mpr hsound.bounds.ans_lt
    rw [find_searches h hts]
    show ∀ i ∈ 0 :: (TickSearch.run ticks ts r.count).reads ++ [(TickSearch.run ticks ts r.count).ans], _
    rw [List.forall_mem_append, List.forall_mem_cons, List.forall_mem_singleton]
    exact ⟨⟨hzero, hsound.reads⟩, hans⟩

lemma find_ends (h : r.base = some ticks) (ts : Int) (out : CsvTick) :
    ∀ s ∈ (r.findAtOrBefore ts out).loop, TickSearch.narrow ticks ts s = none ∧ ∀ i ∈ s.lowered, 0 < i := by
  by_cases hts : ts < tsAt ticks 0
  · rw [find_later h hts]
    simp
  · obtain ⟨hsound, hend⟩ := TickSearch.run_sound (count_pos h) (not_lt.mp hts)
    rw [find_searches h hts]
    rintro s ⟨⟩
    exact ⟨hend, hsound.lowered⟩

lemma found_iff (h : r.base = some ticks) (hsorted : SortedByTs ticks) (ts : Int) (out : CsvTick) :
    (r.findAtOrBefore ts out).found = true ↔ ∃ t ∈ ticks, t.tsMs ≤ ts := by
  have hpos : 0 < ticks.length := List.length_pos_iff.mpr (r.mapped ticks h).1
  by_cases hts : ts < tsAt ticks 0
  · rw [find_later h hts]
    refine iff_of_false Bool.false_ne_true ?_
    rintro ⟨t, ht, hle⟩
    obtain ⟨i, hi, rfl⟩ := List.getElem_of_mem ht
    have hfirst := hsorted.tsAt_le (Nat.zero_le i) hi
    rw [tsAt_of_lt hi] at hfirst
    omega
  · rw [find_searches h hts]
    refine iff_of_true rfl ⟨ticks[0], List.getElem_mem hpos, ?_⟩
    rw [← tsAt_of_lt hpos]
    exact not_lt.mp hts

lemma find_out (h : r.base = some ticks) (hsorted : SortedByTs ticks) (ts : Int) (out : CsvTick)
    (hfound : (r.findAtOrBefore ts out).found = true) :
    ∃ i, IsGreatest (atOrBefore ticks ts) i ∧ ticks[i]? = some (r.findAtOrBefore ts out).out := by
  by_cases hts : ts < tsAt ticks 0
  · rw [find_later h hts] at hfound
    cases hfound
  · have hlast := TickSearch.run_isGreatest hsorted (count_toNat h) (count_pos h) (not_lt.mp hts)
    obtain ⟨t, ht, -⟩ := hlast.1
    refine ⟨_, hlast, ?_⟩
    rw [find_searches h hts, ht]
    rfl

/-- In a sorted array a lookup finds the last tick that is not later than the time, if there is one; in every
array its loop ends without having lowered a bound from 0, and every index read lies inside. -/
theorem find_at_or_before_correct (h : r.base = some ticks) (ts : Int) (out : CsvTick) :
    (SortedByTs ticks →
      ((r.findAtOrBefore ts out).found = true ↔ ∃ t ∈ ticks, t.tsMs ≤ ts) ∧
      ((r.findAtOrBefore ts out).found = true →
        ∃ i, IsGreatest (atOrBefore ticks ts) i ∧ ticks[i]? = some (r.findAtOrBefore ts out).out)) ∧
    (∀ s ∈ (r.findAtOrBefore ts out).loop,
      TickSearch.narrow ticks ts s = none ∧ ∀ mid ∈ s.lowered, 0 < mid) ∧
    ∀ i ∈ (r.findAtOrBefore ts out).reads, i < r.count := by
  refine ⟨?_, find_ends h ts out, find_reads h ts out⟩
  intro hsorted
  exact ⟨found_iff h hsorted ts out, find_out h hsorted ts out⟩

def tickOf (tsMs : Int) (bid : ℚ) : CsvTick :=
  { tsMs := tsMs, bid := .finite bid, ask := .finite (bid + 1), volume := .finite 0, flags := 1 }

/-- Two of the ticks have the same time. -/
def fourTicks : TickFile where
  ticks := [tickOf 10 100, tickOf 20 101, tickOf 20 102, tickOf 30 103]
  rest_lt := by decide
  size_lt := by decide

def fourReader : MmapTickReader := (openFile (closed "ticks.bin") (.file fourTicks true)).2.1

theorem find_at_or_before_four :
    (∃ i, IsGreatest (atOrBefore fourTicks.ticks 25) i ∧
      fourTicks.ticks[i]? = some (fourReader.findAtOrBefore 25 (tickOf 0 0)).out) ∧
    (∀ s ∈ (fourReader.findAtOrBefore 25 (tickOf 0 0)).loop,
      TickSearch.narrow fourTicks.ticks 25 s = none ∧ ∀ mid ∈ s.lowered, 0 < mid) ∧
    ∀ i ∈ (fourReader.findAtOrBefore 25 (tickOf 0 0)).reads, i < fourReader.count := by
  have hbase : fourReader.base = some fourTicks.ticks := rfl
  obtain ⟨hsorted, hloop⟩ := find_at_or_before_correct hbase 25 (tickOf 0 0)
  obtain ⟨hfound, hout⟩ := hsorted (by decide)
  exact ⟨hout (hfound.mpr ⟨tickOf 10 100, List.mem_cons_self, by decide⟩), hloop⟩

example : (fourReader.findAtOrBefore 25 (tickOf 0 0)).out = tickOf 20 102 := by decide +kernel

end MmapTickReader

end LatencyArb
