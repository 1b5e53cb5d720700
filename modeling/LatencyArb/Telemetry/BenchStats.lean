import LatencyArb.Library.Decimal
import LatencyArb.Library.OrderStatistics

/-!
# The statistics of the benchmark ring (`src/telemetry.cpp`)

`bench_stats` collects the gaps between neighbouring samples, newest first. The positions of its two
percentiles come from different formulas.
-/

namespace LatencyArb

namespace Telemetry

/-- What `bench_stats` reads of a sample. -/
structure LatencySample where
  tsNs : Int64
  seq : UInt32
  valid : UInt8

/-- The ring, whose number of slots is a power of two. -/
structure BenchRing where
  bits : Nat
  base : Fin (2 ^ bits) → LatencySample

namespace BenchRing

def mask (ring : BenchRing) : Nat := 2 ^ ring.bits - 1

/-- The slot of the sample that was published `k` samples before the newest one. -/
def slot (ring : BenchRing) (pub k : Nat) : Fin (2 ^ ring.bits) :=
  ⟨(pub - 1 - k) &&& ring.mask, by
    unfold mask
    rw [Nat.and_two_pow_sub_one_eq_mod]
    exact Nat.mod_lt _ (by positivity)⟩

/-- The newest samples, newest first. -/
def newest (ring : BenchRing) (pub count : Nat) : List LatencySample :=
  (List.range count).map (fun k => ring.base (ring.slot pub k))

end BenchRing

structure BenchStats where
  samples : Nat := 0
  avgDtNs : ℚ := 0
  minDtNs : ℚ := 0
  maxDtNs : ℚ := 0
  p50DtNs : ℚ := 0
  p99DtNs : ℚ := 0
  firstSeq : UInt64 := 0
  lastSeq : UInt64 := 0
  tscHz : ℚ := 0

/-- The variables of the loop; `dt` is what is filled of the array. -/
structure Scan where
  dt : List ℚ := []
  sum : ℚ := 0
  mn : ℚ := 10 ^ 18
  mx : ℚ := -10 ^ 18
  prevTs : Int64 := 0
  firstSeq : UInt64 := 0
  lastSeq : UInt64 := 0

namespace Scan

def collect (c : Scan) (d : ℚ) : Scan :=
  { c with
    dt := c.dt ++ [d]
    sum := c.sum + d
    mn := if d < c.mn then d else c.mn
    mx := if c.mx < d then d else c.mx }

/-- The body of the loop. -/
def step (c : Scan) (s : LatencySample) : Scan :=
  if s.valid = 0 then c
  else if c.prevTs = 0 then
    { c with prevTs := s.tsNs, lastSeq := s.seq.toUInt64, firstSeq := s.seq.toUInt64 }
  else
    -- a difference beyond the range wraps, as the machine's does
    let delta := c.prevTs - s.tsNs
    let c := if 0 ≤ delta then c.collect delta.toInt else c
    { c with prevTs := s.tsNs, firstSeq := s.seq.toUInt64 }

end Scan

def kMaxWindow : Nat := 4096

/-- The samples that are looked at. -/
def sampleCount (pub window : Nat) : Nat := min pub (min window kMaxWindow)

/-- The position of the 99th percentile among `n` sorted gaps. -/
def p99Index (n : Nat) : Nat := (truncZero (99 / 100 * (n - 1 : Nat))).toNat

def benchStats (ring : Option BenchRing) (pub : Nat) (tscHz : ℚ) (window : Nat) : BenchStats :=
  match ring with
  | none => {}
  | some ring =>
    if pub = 0 then { samples := pub, tscHz := tscHz }
    else
      let c := (ring.newest pub (sampleCount pub window)).foldl Scan.step {}
      let n := c.dt.length
      if n = 0 then { samples := 0, tscHz := tscHz, firstSeq := c.firstSeq, lastSeq := c.lastSeq }
      else
        { samples := n, tscHz := tscHz, firstSeq := c.firstSeq, lastSeq := c.lastSeq
          minDtNs := c.mn, maxDtNs := c.mx, avgDtNs := c.sum / n
          p50DtNs := orderStatistic c.dt (n / 2), p99DtNs := orderStatistic c.dt (p99Index n) }

/-! ## The gaps -/

/-- The times of the valid samples. -/
def validTimes (samples : List LatencySample) : List Int64 :=
  (samples.filter (fun s => s.valid ≠ 0)).map LatencySample.tsNs

/-- The gaps between a time and the next older one, where the newer one is not zero and the other one is not
later. `newer` stands in front of the list. -/
def gaps (newer : Int64) : List Int64 → List ℚ
  | [] => []
  | ts :: rest =>
    if newer ≠ 0 ∧ 0 ≤ newer - ts then ((newer - ts).toInt : ℚ) :: gaps ts rest else gaps ts rest

/-- The gaps among the newest samples of the window. -/
def windowGaps (ring : Option BenchRing) (pub window : Nat) : List ℚ :=
  gaps 0 (validTimes (ring.elim [] (fun ring => ring.newest pub (sampleCount pub window))))

namespace Scan

lemma foldl_dt (samples : List LatencySample) (c : Scan) :
    (samples.foldl step c).dt = c.dt ++ gaps c.prevTs (validTimes samples) := by
  induction samples generalizing c with
  | nil => simp [validTimes, gaps]
  | cons s samples ih =>
    rw [List.foldl_cons, ih]
    unfold step validTimes
    by_cases hvalid : s.valid = 0
    · rw [if_pos hvalid, List.filter_cons_of_neg (by simpa using hvalid)]
    rw [if_neg hvalid, List.filter_cons_of_pos (by simpa using hvalid), List.map_cons]
    by_cases hprev : c.prevTs = 0
    · rw [if_pos hprev, gaps, if_neg (by simp [hprev])]
    rw [if_neg hprev]
    by_cases hdelta : 0 ≤ c.prevTs - s.tsNs
    · rw [gaps, if_pos ⟨hprev, hdelta⟩]
      simp [hdelta, collect]
    · rw [gaps, if_neg (fun h => hdelta h.2)]
      simp [hdelta]

/-- The running values fit the gaps collected so far. -/
structure Bounds (c : Scan) : Prop where
  sum : c.sum = c.dt.sum
  low : ∀ d ∈ c.dt, c.mn ≤ d
  high : ∀ d ∈ c.dt, d ≤ c.mx

lemma Bounds.collect {c : Scan} (h : c.Bounds) (d : ℚ) : (c.collect d).Bounds := by
  constructor
  · show c.sum + d = (c.dt ++ [d]).sum
    rw [h.sum, List.sum_append, List.sum_singleton]
  · intro d' hd'
    show (if d < c.mn then d else c.mn) ≤ d'
    rcases List.mem_append.mp hd' with hold | hnew
    · have hle := h.low d' hold
      split <;> linarith
    · rw [List.mem_singleton.mp hnew]
      split <;> linarith
  · intro d' hd'
    show d' ≤ if c.mx < d then d else c.mx
    rcases List.mem_append.mp hd' with hold | hnew
    · have hle := h.high d' hold
      split <;> linarith
    · rw [List.mem_singleton.mp hnew]
      split <;> linarith

lemma Bounds.step {c : Scan} (h : c.Bounds) (s : LatencySample) : (c.step s).Bounds := by
  unfold Scan.step
  split
  · exact h
  split
  · exact ⟨h.sum, h.low, h.high⟩
  by_cases hdelta : 0 ≤ c.prevTs - s.tsNs
  · have hcollect := h.collect (c.prevTs - s.tsNs).toInt
    simp only [if_pos hdelta]
    exact ⟨hcollect.sum, hcollect.low, hcollect.high⟩
  · simp only [if_neg hdelta]
    exact ⟨h.sum, h.low, h.high⟩

lemma Bounds.foldl {c : Scan} (h : c.Bounds) (samples : List LatencySample) :
    (samples.foldl Scan.step c).Bounds := by
  induction samples generalizing c with
  | nil => exact h
  | cons s samples ih => exact ih (h.step s)

lemma bounds_init : ({} : Scan).Bounds := ⟨rfl, by simp, by simp⟩

end Scan

/-! ## The order of the statistics -/

structure BenchStats.Ordered (st : BenchStats) : Prop where
  min_p50 : st.minDtNs ≤ st.p50DtNs
  p50_p99 : st.p50DtNs ≤ st.p99DtNs
  p99_max : st.p99DtNs ≤ st.maxDtNs
  min_avg : st.minDtNs ≤ st.avgDtNs
  avg_max : st.avgDtNs ≤ st.maxDtNs

lemma p99Index_eq (n : Nat) : p99Index n = 99 * (n - 1) / 100 := by
  unfold p99Index truncZero
  have hnonneg : (0 : ℚ) ≤ 99 / 100 * (n - 1 : Nat) := by positivity
  have hfrac : (99 / 100 * ((n - 1 : Nat) : ℚ)) = ((99 * (n - 1) : Nat) : ℤ) / ((100 : Nat) : ℚ) := by
    push_cast
    ring
  rw [if_pos hnonneg, hfrac, Rat.floor_intCast_div_natCast]
  omega

/-- The median does not stand behind the 99th percentile, except among two gaps. -/
lemma half_le_p99Index {n : Nat} (hn : n ≠ 2) : n / 2 ≤ p99Index n := by
  rw [p99Index_eq]
  omega

lemma p99Index_lt {n : Nat} (hn : n ≠ 0) : p99Index n < n := by
  rw [p99Index_eq]
  omega

lemma p50_le_p99_iff {dt : List ℚ} (hne : dt ≠ []) :
    orderStatistic dt (dt.length / 2) ≤ orderStatistic dt (p99Index dt.length) ↔
      ¬∃ d d', dt = [d, d'] ∧ d ≠ d' := by
  have hpos : dt.length ≠ 0 := fun h => hne (List.length_eq_zero_iff.mp h)
  by_cases htwo : dt.length = 2
  · obtain ⟨d, d', rfl⟩ := List.length_eq_two.mp htwo
    have hhalf : [d, d'].length / 2 = 1 := Nat.div_self Nat.zero_lt_two
    have hindex : p99Index [d, d'].length = 0 := p99Index_eq 2
    rw [hhalf, hindex, orderStatistic_pair]
    simp
  · refine iff_of_true (orderStatistic_mono (half_le_p99Index htwo) (p99Index_lt hpos)) ?_
    rintro ⟨d, d', rfl, -⟩
    exact htwo rfl

/-- What `bench_stats` reports where it reports any gaps: statistics of those of the window. -/
lemma benchStats_eq {ring : Option BenchRing} {pub window : Nat} {tscHz : ℚ} :
    ((benchStats ring pub tscHz window).samples = 0 ∧ windowGaps ring pub window = []) ∨
      ∃ c : Scan, c.Bounds ∧ c.dt = windowGaps ring pub window ∧ c.dt ≠ [] ∧
        benchStats ring pub tscHz window =
          { samples := c.dt.length, tscHz := tscHz, firstSeq := c.firstSeq, lastSeq := c.lastSeq
            minDtNs := c.mn, maxDtNs := c.mx, avgDtNs := c.sum / c.dt.length
            p50DtNs := orderStatistic c.dt (c.dt.length / 2)
            p99DtNs := orderStatistic c.dt (p99Index c.dt.length) } := by
  match ring with
  | none => exact .inl ⟨rfl, rfl⟩
  | some ring =>
    by_cases hpub : pub = 0
    · subst hpub
      refine .inl ⟨rfl, ?_⟩
      simp [windowGaps, sampleCount, BenchRing.newest, validTimes, gaps]
    have hdt := Scan.foldl_dt (ring.newest pub (sampleCount pub window)) {}
    rw [show ({} : Scan).dt = [] from rfl, List.nil_append] at hdt
    have hbounds := Scan.bounds_init.foldl (ring.newest pub (sampleCount pub window))
    unfold benchStats
    simp only [if_neg hpub]
    by_cases hnone : ((ring.newest pub (sampleCount pub window)).foldl Scan.step {}).dt.length = 0
    · rw [if_pos hnone]
      refine .inl ⟨rfl, ?_⟩
      exact hdt.symm.trans (List.length_eq_zero_iff.mp hnone)
    · rw [if_neg hnone]
      exact .inr ⟨_, hbounds, hdt, fun h => hnone (List.length_eq_zero_iff.mpr h), rfl⟩

theorem bench_stats_ordered_iff (ring : Option BenchRing) (pub : Nat) (tscHz : ℚ) (window : Nat) :
    (0 < (benchStats ring pub tscHz window).samples → (benchStats ring pub tscHz window).Ordered) ↔
      ¬∃ d d', windowGaps ring pub window = [d, d'] ∧ d ≠ d' := by
  obtain ⟨hzero, hgaps⟩ | ⟨c, hbounds, hgaps, hne, hstats⟩ := @benchStats_eq ring pub window tscHz
  · rw [hzero, hgaps]
    simp
  · rw [← hgaps, hstats, ← p50_le_p99_iff hne]
    have hpos : 0 < c.dt.length := List.length_pos_iff.mpr hne
    have hhalf : orderStatistic c.dt (c.dt.length / 2) ∈ c.dt := orderStatistic_mem (by omega)
    have htop : orderStatistic c.dt (p99Index c.dt.length) ∈ c.dt := orderStatistic_mem (p99Index_lt hpos.ne')
    constructor
    · intro hordered
      exact (hordered hpos).p50_p99
    · intro hle _
      refine ⟨hbounds.low _ hhalf, hle, hbounds.high _ htop, ?_, ?_⟩
      · show c.mn ≤ c.sum / c.dt.length
        rw [hbounds.sum]
        exact le_mean hne hbounds.low
      · show c.sum / c.dt.length ≤ c.mx
        rw [hbounds.sum]
        exact mean_le hne hbounds.high

/-- Three samples with gaps of 20 and 10 between them. -/
def threeSamples : BenchRing where
  bits := 2
  base := fun i => { tsNs := if i = 2 then 130 else if i = 1 then 120 else 100, seq := 0, valid := 1 }

/-- The median of the two gaps is the larger one, the 99th percentile the smaller one. -/
theorem two_gaps_reversed : ¬(0 < (benchStats (some threeSamples) 3 0 8192).samples →
    (benchStats (some threeSamples) 3 0 8192).Ordered) := by
  intro hordered
  have hgaps : windowGaps (some threeSamples) 3 8192 = [10, 20] := by decide +kernel
  obtain ⟨-, hnone⟩ | ⟨c, -, hdt, hne, hstats⟩ := @benchStats_eq (some threeSamples) 3 8192 0
  · rw [hgaps] at hnone
    cases hnone
  · rw [hstats] at hordered
    have hle := (hordered (List.length_pos_iff.mpr hne)).p50_p99
    exact (p50_le_p99_iff hne).mp hle ⟨10, 20, hdt.trans hgaps, by decide⟩

end Telemetry

end LatencyArb
