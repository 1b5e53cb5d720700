import LatencyArb.Aggregator
import LatencyArb.Ring
import LatencyArb.Library.Loop

/-!
# Ticks that arrive out of order (`Aggregator::update`)

A window is pruned from the front and read at the back, so the age of the tick that is read depends
on the order in which the stamps arrived. `window_eq` describes a window after any number of calls.
-/

namespace LatencyArb

namespace Aggregator

/-! ## One call -/

def ingestStep (nowMs : Int) (s : SpscRing Tick 8192 × List Tick) :
    Option (SpscRing Tick 8192 × List Tick) :=
  match s.1.pop with
  | (_, none) => none
  | (ring, some t) => some (ring, ingestTick s.2 nowMs t)

/-- What `ingest` makes of a window, given the ticks it pops until it finds the ring empty. -/
def ingest (popped window : List Tick) (nowMs : Int) : List Tick :=
  pruneOld (popped.foldl (fun w t => ingestTick w nowMs t) window) nowMs

/-- A call of `update`, with the ticks it pops from each ring. -/
structure UpdateCall where
  binance : List Tick
  deribit : List Tick
  nowMs : Int

def update (cfg : Config) (utcOffsetS : Int) (agg : Aggregator) (c : UpdateCall) :
    Option ℚ × Aggregator :=
  let agg := ⟨ingest c.binance agg.binance c.nowMs, ingest c.deribit agg.deribit c.nowMs⟩
  (lead cfg utcOffsetS agg c.nowMs, agg)

/-- The loop of `ingest` on a ring that nobody fills meanwhile pops what is unread. -/
theorem ingestStep_run (nowMs : Int) (ring : SpscRing Tick 8192) (window : List Tick) :
    (Loop.run (ingestStep nowMs) ring.count (ring, window)).1.unread = [] ∧
      (Loop.run (ingestStep nowMs) ring.count (ring, window)).2 =
        ring.unread.foldl (fun w t => ingestTick w nowMs t) window := by
  induction hu : ring.unread generalizing ring window with
  | nil =>
    have hcount : ring.count = 0 := by rw [← ring.unread_length, hu, List.length_nil]
    rw [hcount]
    exact ⟨hu, rfl⟩
  | cons t rest ih =>
    obtain ⟨hrest, hpop⟩ := ring.pop_of_unread_cons hu
    have hcount : ring.count = ring.pop.1.count + 1 := by
      rw [← ring.unread_length, ← ring.pop.1.unread_length, hu, hrest, List.length_cons]
    have hstep : ingestStep nowMs (ring, window) = some (ring.pop.1, ingestTick window nowMs t) := by
      rw [ingestStep, show ring.pop = (ring.pop.1, some t) from Prod.ext rfl hpop]
    rw [hcount, Loop.run, hstep]
    exact ih ring.pop.1 (ingestTick window nowMs t) hrest

/-! ## Any number of calls -/

/-- The aggregator after a history of calls. -/
def updates (cfg : Config) (utcOffsetS : Int) (calls : List UpdateCall) : Aggregator :=
  calls.foldl (fun agg c => (update cfg utcOffsetS agg c).2) {}

/-- The ticks of a venue that were valid and not stale in the call that popped them. -/
def accepted (venue : UpdateCall → List Tick) (calls : List UpdateCall) : List Tick :=
  calls.flatMap (fun c => (venue c).filter (fun t => t.isValid && !isStale c.nowMs t))

lemma updates_concat (cfg : Config) (utcOffsetS : Int) (calls : List UpdateCall) (c : UpdateCall) :
    updates cfg utcOffsetS (calls ++ [c]) = (update cfg utcOffsetS (updates cfg utcOffsetS calls) c).2 := by
  rw [updates, List.foldl_append, List.foldl_cons, List.foldl_nil, ← updates]

lemma accepted_concat (venue : UpdateCall → List Tick) (calls : List UpdateCall) (c : UpdateCall) :
    accepted venue (calls ++ [c]) =
      accepted venue calls ++ (venue c).filter (fun t => t.isValid && !isStale c.nowMs t) := by
  simp [accepted]

lemma accepted_sublist (venue : UpdateCall → List Tick) {pre calls : List UpdateCall} (h : pre <+: calls) :
    List.Sublist (accepted venue pre) (accepted venue calls) := by
  obtain ⟨rest, rfl⟩ := h
  unfold accepted
  rw [List.flatMap_append]
  exact List.sublist_append_left _ _

lemma foldl_ingestTick (nowMs : Int) (popped window : List Tick) :
    popped.foldl (fun w t => ingestTick w nowMs t) window =
      window ++ popped.filter (fun t => t.isValid && !isStale nowMs t) := by
  induction popped generalizing window with
  | nil => simp
  | cons t rest ih =>
    rw [List.foldl_cons, ih]
    unfold ingestTick
    cases hv : t.isValid <;> cases hs : isStale nowMs t <;> simp [hv, hs]

lemma isStale_mono {nowMs nowMs' : Int} (h : nowMs ≤ nowMs') (t : Tick)
    (ht : isStale nowMs t = true) : isStale nowMs' t = true := by
  unfold isStale at ht ⊢
  rw [decide_eq_true_eq] at ht ⊢
  omega

/-- A venue's window, as a function of the calls alone. -/
def window (venue : UpdateCall → List Tick) (calls : List UpdateCall) : List Tick :=
  calls.foldl (fun w c => ingest (venue c) w c.nowMs) []

lemma updates_windows (cfg : Config) (utcOffsetS : Int) (calls : List UpdateCall) :
    updates cfg utcOffsetS calls =
      ⟨window UpdateCall.binance calls, window UpdateCall.deribit calls⟩ := by
  induction calls using List.reverseRecOn with
  | nil => rfl
  | append_singleton calls c ih =>
    rw [updates_concat, ih]
    simp only [update, window, List.foldl_append, List.foldl_cons, List.foldl_nil]

/-- After a call, a window holds the ticks accepted so far but for those in front that are stale. -/
theorem window_eq (venue : UpdateCall → List Tick) (calls : List UpdateCall) (c : UpdateCall)
    (hclock : (calls ++ [c]).Pairwise (fun a b => a.nowMs ≤ b.nowMs)) :
    window venue (calls ++ [c]) = (accepted venue (calls ++ [c])).dropWhile (isStale c.nowMs) := by
  induction calls using List.reverseRecOn generalizing c with
  | nil => simp [window, ingest, foldl_ingestTick, pruneOld, accepted]
  | append_singleton calls b ih =>
    obtain ⟨hcalls, -, hlast⟩ := List.pairwise_append.mp hclock
    have hbc : b.nowMs ≤ c.nowMs := hlast b (by simp) c (by simp)
    have hwindow : window venue (calls ++ [b] ++ [c]) =
        ingest (venue c) (window venue (calls ++ [b])) c.nowMs := by
      rw [window, List.foldl_append, ← window]
      rfl
    rw [hwindow, ih b hcalls, ingest, foldl_ingestTick, pruneOld, accepted_concat venue _ c]
    exact dropWhile_dropWhile_append (fun t _ => isStale_mono hbc t) _

/-! ## The age of the ticks behind a lead -/

/-- Every tick whose mid enters the lead that the call `c` returns after the calls `pre` is recent. -/
def UsesNoStaleTick (cfg : Config) (utcOffsetS : Int) (pre : List UpdateCall) (c : UpdateCall) : Prop :=
  let r := update cfg utcOffsetS (updates cfg utcOffsetS pre) c
  r.1 ≠ none → ∀ t ∈ r.2.entering, c.nowMs - t.tsMs ≤ CompileTime.kMaxTickAgeMs

/-- The newest arrival is recent or has no price, or nothing that arrived is recent. -/
def NewestInTime (nowMs : Int) (arrivals : List Tick) : Prop :=
  ∀ t, arrivals.getLast? = some t → nowMs - t.tsMs ≤ CompileTime.kMaxTickAgeMs ∨ t.mid ≤ 0 ∨
    ∀ u ∈ arrivals, CompileTime.kMaxTickAgeMs < nowMs - u.tsMs

def Dated (calls : List UpdateCall) : Prop := ∀ c ∈ calls, ∀ t ∈ c.binance ++ c.deribit, 0 < t.tsMs

lemma isStale_iff_of_dated {t : Tick} (h : 0 < t.tsMs) (nowMs : Int) :
    isStale nowMs t = true ↔ CompileTime.kMaxTickAgeMs < nowMs - t.tsMs := by
  rw [isStale, decide_eq_true_eq, and_iff_right h]

lemma priced_window_recent_iff (nowMs : Int) {arrivals : List Tick}
    (hdated : ∀ t ∈ arrivals, 0 < t.tsMs) :
    (∀ t ∈ (priced (arrivals.dropWhile (isStale nowMs))).toList,
        nowMs - t.tsMs ≤ CompileTime.kMaxTickAgeMs) ↔ NewestInTime nowMs arrivals := by
  have henters : ∀ t, t ∈ (priced (arrivals.dropWhile (isStale nowMs))).toList ↔
      (arrivals.getLast? = some t ∧ ∃ u ∈ arrivals, isStale nowMs u = false) ∧ 0 < t.mid := by
    intro t
    rw [Option.mem_toList, priced, Option.filter_eq_some_iff, getLast?_dropWhile_eq_some_iff,
      decide_eq_true_eq]
  have hrecent : ∀ u ∈ arrivals,
      (isStale nowMs u = false ↔ ¬CompileTime.kMaxTickAgeMs < nowMs - u.tsMs) := by
    intro u hu
    rw [← isStale_iff_of_dated (hdated u hu), Bool.not_eq_true]
  constructor
  · intro h t hlast
    by_cases hmid : t.mid ≤ 0
    · exact .inr (.inl hmid)
    · by_cases hall : ∀ u ∈ arrivals, CompileTime.kMaxTickAgeMs < nowMs - u.tsMs
      · exact .inr (.inr hall)
      · push Not at hall
        obtain ⟨u, hu, hage⟩ := hall
        have hfresh : ∃ u ∈ arrivals, isStale nowMs u = false :=
          ⟨u, hu, (hrecent u hu).mpr (not_lt.mpr hage)⟩
        exact .inl (h t ((henters t).mpr ⟨⟨hlast, hfresh⟩, not_le.mp hmid⟩))
  · intro h t ht
    obtain ⟨⟨hlast, u, hu, hfresh⟩, hmid⟩ := (henters t).mp ht
    obtain hage | hmid' | hall := h t hlast
    · exact hage
    · exact absurd hmid (not_lt.mpr hmid')
    · exact absurd (hall u hu) ((hrecent u hu).mp hfresh)

lemma Dated.accepted {calls : List UpdateCall} (h : Dated calls) (venue : UpdateCall → List Tick)
    (hvenue : ∀ c, venue c ⊆ c.binance ++ c.deribit) :
    ∀ t ∈ Aggregator.accepted venue calls, 0 < t.tsMs := by
  intro t ht
  obtain ⟨c, hc, ht⟩ := List.mem_flatMap.mp ht
  exact h c hc t (hvenue c (List.mem_of_mem_filter ht))

/-- One call: what the lead is built from is recent exactly when, of each venue, the newest of the
ticks accepted so far is. -/
lemma usesNoStaleTick_iff (cfg : Config) (utcOffsetS : Int) {pre : List UpdateCall} {c : UpdateCall}
    (hclock : (pre ++ [c]).Pairwise (fun a b => a.nowMs ≤ b.nowMs)) (hdated : Dated (pre ++ [c])) :
    UsesNoStaleTick cfg utcOffsetS pre c ↔
      NewestInTime c.nowMs (accepted UpdateCall.binance (pre ++ [c])) ∧
        NewestInTime c.nowMs (accepted UpdateCall.deribit (pre ++ [c])) := by
  have hagg : (update cfg utcOffsetS (updates cfg utcOffsetS pre) c).2 =
      ⟨(accepted UpdateCall.binance (pre ++ [c])).dropWhile (isStale c.nowMs),
        (accepted UpdateCall.deribit (pre ++ [c])).dropWhile (isStale c.nowMs)⟩ := by
    rw [← updates_concat, updates_windows, window_eq _ _ _ hclock, window_eq _ _ _ hclock]
  have hlead : (update cfg utcOffsetS (updates cfg utcOffsetS pre) c).1 = none ↔
      (update cfg utcOffsetS (updates cfg utcOffsetS pre) c).2.entering = [] :=
    lead_eq_none_iff cfg utcOffsetS _ c.nowMs
  have hbinance := priced_window_recent_iff c.nowMs
    (hdated.accepted UpdateCall.binance (fun c => List.subset_append_left _ _))
  have hderibit := priced_window_recent_iff c.nowMs
    (hdated.accepted UpdateCall.deribit (fun c => List.subset_append_right _ _))
  have hall : UsesNoStaleTick cfg utcOffsetS pre c ↔
      ∀ t ∈ (update cfg utcOffsetS (updates cfg utcOffsetS pre) c).2.entering,
        c.nowMs - t.tsMs ≤ CompileTime.kMaxTickAgeMs := by
    unfold UsesNoStaleTick
    dsimp only
    rw [Ne, hlead]
    constructor
    · intro h t ht
      exact h (List.ne_nil_of_mem ht) t ht
    · intro h _
      exact h
  rw [hall, hagg, entering, List.forall_mem_append, hbinance, hderibit]

/-- In every history of calls at nondecreasing times: every lead is built from ticks of the last 50 ms
exactly when at no call the newest arrival of a venue is older than that while an earlier arrival is
not. -/
theorem leads_use_no_stale_tick_iff (cfg : Config) (utcOffsetS : Int) (calls : List UpdateCall)
    (hclock : calls.Pairwise (fun a b => a.nowMs ≤ b.nowMs)) (hdated : Dated calls) :
    (∀ pre c, pre ++ [c] <+: calls → UsesNoStaleTick cfg utcOffsetS pre c) ↔
      ∀ pre c, pre ++ [c] <+: calls →
        NewestInTime c.nowMs (accepted UpdateCall.binance (pre ++ [c])) ∧
          NewestInTime c.nowMs (accepted UpdateCall.deribit (pre ++ [c])) := by
  apply forall_congr'
  intro pre
  apply forall_congr'
  intro c
  apply imp_congr_right
  intro hpre
  exact usesNoStaleTick_iff cfg utcOffsetS (hclock.sublist hpre.sublist)
    (fun b hb => hdated b (hpre.subset hb))

/-- Ticks that arrive in the order of their stamps are in time. -/
theorem newestInTime_of_sorted {arrivals : List Tick} (nowMs : Int)
    (h : arrivals.Pairwise (fun a b => a.tsMs ≤ b.tsMs)) : NewestInTime nowMs arrivals := by
  intro t hlast
  obtain ⟨older, rfl⟩ : ∃ older, arrivals = older ++ [t] :=
    ⟨arrivals.dropLast, (List.dropLast_append_getLast? t hlast).symm⟩
  by_cases hage : nowMs - t.tsMs ≤ CompileTime.kMaxTickAgeMs
  · exact .inl hage
  · refine .inr (.inr ?_)
    intro u hu
    obtain hu | hu := List.mem_append.mp hu
    · have hle := (List.pairwise_append.mp h).2.2 u hu t (List.mem_singleton_self t)
      omega
    · rw [List.mem_singleton.mp hu]
      exact not_le.mp hage

def tickAt (tsMs : Int) (price : ℚ) : Tick := { tsMs, last := price, venue := .binance, valid := 1 }

/-- Two Binance ticks arrive in the wrong order, ten milliseconds apart; 45 ms after the newer stamp the
older one is 55 ms old. -/
def swappedTicks : List UpdateCall :=
  [⟨[tickAt 1000 101, tickAt 990 100], [], 1000⟩, ⟨[], [], 1045⟩]

theorem swappedTicks_lead_is_stale :
    swappedTicks.Pairwise (fun a b => a.nowMs ≤ b.nowMs) ∧
      (∀ c ∈ swappedTicks, ∀ t ∈ c.binance ++ c.deribit, t.isValid = true ∧ 0 < t.tsMs) ∧
      (update {} 0 (updates {} 0 (swappedTicks.take 1)) ⟨[], [], 1045⟩).1 = some 100 ∧
      ¬UsesNoStaleTick {} 0 (swappedTicks.take 1) ⟨[], [], 1045⟩ := by
  refine ⟨by decide, by decide, by decide +kernel, ?_⟩
  intro h
  have hage := h (by decide +kernel) (tickAt 990 100) (by decide +kernel)
  exact absurd hage (by decide)

def orderedTicks : List UpdateCall :=
  [⟨[tickAt 990 100, tickAt 1000 101], [], 1000⟩, ⟨[], [], 1045⟩]

theorem orderedTicks_leads_fresh :
    (update {} 0 (updates {} 0 (orderedTicks.take 1)) ⟨[], [], 1045⟩).1 = some 101 ∧
      ∀ pre c, pre ++ [c] <+: orderedTicks → UsesNoStaleTick {} 0 pre c := by
  refine ⟨by decide +kernel, ?_⟩
  refine (leads_use_no_stale_tick_iff {} 0 orderedTicks (by decide) (by unfold Dated; decide)).mpr ?_
  intro pre c hpre
  have hbinance : (accepted UpdateCall.binance orderedTicks).Pairwise (fun a b => a.tsMs ≤ b.tsMs) := by
    decide +kernel
  have hderibit : (accepted UpdateCall.deribit orderedTicks).Pairwise (fun a b => a.tsMs ≤ b.tsMs) := by
    decide +kernel
  exact ⟨newestInTime_of_sorted c.nowMs (hbinance.sublist (accepted_sublist _ hpre)),
    newestInTime_of_sorted c.nowMs (hderibit.sublist (accepted_sublist _ hpre))⟩

end Aggregator

end LatencyArb
