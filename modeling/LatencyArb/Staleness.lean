import LatencyArb.Engine
import LatencyArb.Library.TimeWindow

/-!
# The age of the ticks behind a lead

Ticks are stamped in epoch milliseconds while `update` is given milliseconds since the first call of
`now_ms`. `FeedInv` relates the ring, the window and the history of one feed; what the age test
really guarantees about a lead is read off it.
-/

namespace LatencyArb

open Aggregator

/-- One feed when the system clock shows `sys` and `now_ms` was last seen to return `now`. -/
structure FeedInv (sys now : Int) (ring window seen : List Tick) : Prop where
  sorted : (seen ++ ring).Pairwise (fun a b => a.tsMs ≤ b.tsMs)
  dated : ∀ t ∈ seen ++ ring, 0 < t.tsMs ∧ t.tsMs ≤ sys
  tracks : Tracks (isStale now) window seen

namespace FeedInv

variable {sys sys' now now' : Int} {ring window seen : List Tick} {t : Tick} {rest : List Tick}

lemma isStale_iff {t : Tick} (h : 0 < t.tsMs) (now : Int) :
    isStale now t = true ↔ CompileTime.kMaxTickAgeMs < now - t.tsMs := by
  unfold isStale
  rw [decide_eq_true_eq]
  exact and_iff_right h

lemma init (sys now : Int) : FeedInv sys now [] [] [] := ⟨by simp, by simp, Tracks.nil⟩

lemma oldestFirst_of_sorted (hsorted : seen.Pairwise (fun a b => a.tsMs ≤ b.tsMs))
    (hdated : ∀ t ∈ seen, 0 < t.tsMs) (now : Int) : OldestFirst (isStale now) seen := by
  unfold OldestFirst
  refine hsorted.imp_of_mem ?_
  intro a b ha hb hab hstale
  rw [isStale_iff (hdated b hb)] at hstale
  rw [isStale_iff (hdated a ha)]
  omega

lemma oldestFirst (h : FeedInv sys now ring window seen) : OldestFirst (isStale now) seen :=
  oldestFirst_of_sorted (List.pairwise_append.mp h.sorted).1
    (fun t ht => (h.dated t (List.mem_append_left _ ht)).1) now

lemma advance (h : FeedInv sys now ring window seen) (hsys : sys ≤ sys') (hnow : now ≤ now') :
    FeedInv sys' now' ring window seen := by
  refine ⟨h.sorted, fun t ht => ⟨(h.dated t ht).1, (h.dated t ht).2.trans hsys⟩, ?_⟩
  apply h.tracks.mono
  intro t ht hstale
  have hpos := (h.dated t (List.mem_append_left _ ht)).1
  rw [isStale_iff hpos] at hstale ⊢
  omega

lemma arrive (h : FeedInv sys now ring window seen) (hsys : 0 < sys) (ht : t.tsMs = sys) :
    FeedInv sys now (ring ++ [t]) window seen := by
  refine ⟨?_, ?_, h.tracks⟩
  · rw [← List.append_assoc, List.pairwise_append]
    refine ⟨h.sorted, List.pairwise_singleton _ _, ?_⟩
    intro a ha b hb
    rw [List.mem_singleton.mp hb, ht]
    exact (h.dated a ha).2
  · intro a ha
    rw [← List.append_assoc] at ha
    obtain ha | ha := List.mem_append.mp ha
    · exact h.dated a ha
    · rw [List.mem_singleton.mp ha, ht]
      exact ⟨hsys, le_rfl⟩

lemma lose (h : FeedInv sys now ring window seen) : FeedInv sys now [] window seen := by
  refine ⟨?_, ?_, h.tracks⟩
  · rw [List.append_nil]
    exact (List.pairwise_append.mp h.sorted).1
  · intro a ha
    rw [List.append_nil] at ha
    exact h.dated a (List.mem_append_left _ ha)

/-- A pushed tick is stamped with the current time; an overflow only loses unread ticks. -/
lemma push {ring : TickRing} (h : FeedInv sys now ring.unread window seen) (hsys : 0 < sys)
    {tick : Option Tick} (htick : ∀ t, tick = some t → t.tsMs = sys) :
    FeedInv sys now (Engine.pushTick ring tick).unread window seen := by
  cases tick with
  | none => exact h
  | some t =>
    by_cases hroom : ring.count < 8192 - 1
    · rw [Engine.pushTick, (ring.push_unread t hroom).1]
      exact h.arrive hsys (htick t rfl)
    · rw [Engine.pushTick, (ring.push_full_unread t hroom).1]
      exact h.lose

lemma ingest (h : FeedInv sys now (t :: rest) window seen) :
    FeedInv sys now rest (ingestTick window now t) (Engine.record seen t) := by
  unfold ingestTick Engine.record
  by_cases hvalid : t.isValid = true
  · have hsplit : seen ++ t :: rest = (seen ++ [t]) ++ rest := by simp
    have hsorted := h.sorted
    have hdated := h.dated
    rw [hsplit] at hsorted hdated
    have holdest : OldestFirst (isStale now) (seen ++ [t]) :=
      oldestFirst_of_sorted (List.pairwise_append.mp hsorted).1
        (fun a ha => (hdated a (List.mem_append_left _ ha)).1) now
    rw [hvalid, if_neg (by simp), if_pos rfl]
    by_cases hstale : isStale now t = true
    · rw [if_pos hstale]
      exact ⟨hsorted, hdated, h.tracks.skip holdest hstale⟩
    · rw [if_neg hstale]
      exact ⟨hsorted, hdated, h.tracks.keep t⟩
  · have hsub : List.Sublist (seen ++ rest) (seen ++ t :: rest) :=
      (List.Sublist.refl seen).append (List.sublist_cons_self t rest)
    rw [if_pos (by simpa using hvalid), if_neg hvalid]
    exact ⟨h.sorted.sublist hsub, fun a ha => h.dated a (hsub.subset ha), h.tracks⟩

lemma prune (h : FeedInv sys now ring window seen) :
    FeedInv sys now ring (pruneOld window now) seen :=
  ⟨h.sorted, h.dated, h.tracks.dropWhile h.oldestFirst⟩

lemma newest (h : FeedInv sys now ring window seen) :
    (pruneOld window now).getLast? = seen.getLast?.filter (fun t => !isStale now t) :=
  h.tracks.getLast?_dropWhile h.oldestFirst

/-- The tick of a feed that enters a lead is its newest one, unless the age test has removed that
one; and the age test compares an epoch stamp with a process age, so it does so `origin` too late. -/
lemma entering_fresh_iff (hdated : ∀ t ∈ seen, 0 < t.tsMs)
    (hnewest : window.getLast? = seen.getLast?.filter (fun t => !isStale now t)) (origin : Int) :
    (∀ t ∈ (priced window).toList, now + origin - t.tsMs ≤ CompileTime.kMaxTickAgeMs) ↔
      ∀ t, seen.getLast? = some t → now + origin - t.tsMs ≤ CompileTime.kMaxTickAgeMs ∨
        CompileTime.kMaxTickAgeMs + origin < now + origin - t.tsMs ∨ t.mid ≤ 0 := by
  have hstale : ∀ t, seen.getLast? = some t →
      (isStale now t = true ↔ CompileTime.kMaxTickAgeMs + origin < now + origin - t.tsMs) := by
    intro t ht
    rw [isStale_iff (hdated t (List.mem_of_getLast? ht))]
    omega
  have henters : ∀ t, t ∈ (priced window).toList ↔
      seen.getLast? = some t ∧ isStale now t = false ∧ 0 < t.mid := by
    intro t
    rw [Option.mem_toList, priced, hnewest]
    simp only [Option.filter_eq_some_iff, Bool.not_eq_eq_eq_not, Bool.not_true, decide_eq_true_eq,
      and_assoc]
  constructor
  · intro h t ht
    by_cases hs : isStale now t = true
    · exact .inr (.inl ((hstale t ht).mp hs))
    · by_cases hmid : t.mid ≤ 0
      · exact .inr (.inr hmid)
      · exact .inl (h t ((henters t).mpr ⟨ht, by simpa using hs, not_le.mp hmid⟩))
  · intro h t ht
    obtain ⟨hlast, hfresh, hmid⟩ := (henters t).mp ht
    obtain hage | hold | hmid' := h t hlast
    · exact hage
    · rw [(hstale t hlast).mpr hold] at hfresh
      cases hfresh
    · exact absurd hmid (not_lt.mpr hmid')

end FeedInv

/-- The reading of `now_ms` that the strategy thread works with; between iterations, the next one. -/
def LoopPhase.now (current : Int) : LoopPhase → Int
  | .ingestFast nowMs => nowMs
  | .ingestDeribit nowMs => nowMs
  | .popQuote nowMs _ => nowMs
  | _ => current

lemma LoopPhase.now_mono {current current' : Int} (h : current ≤ current') (phase : LoopPhase) :
    phase.now current ≤ phase.now current' := by
  cases phase <;> simp only [LoopPhase.now, le_refl, h]

lemma LoopPhase.now_le_of_le {current current' : Int} (h : current ≤ current') {phase : LoopPhase}
    (hp : phase.now current ≤ current) : phase.now current' ≤ current' := by
  cases phase <;> simp only [LoopPhase.now] at hp ⊢ <;> omega

namespace Engine

variable {cfg : Config} {utcOffsetS : Int} {boot : ℕ+}

def loopNow (e : Engine) : Int := e.phase.now e.nowMs

/-- Between the two ingests the fast feed's window is already pruned. -/
structure FeedsInv (e : Engine) : Prop where
  sys : 0 < e.sys
  clock : e.loopNow ≤ e.nowMs
  fast : FeedInv e.sys e.loopNow e.fastRing.unread e.aggregator.binance e.fastSeen
  deribit : FeedInv e.sys e.loopNow e.deribitRing.unread e.aggregator.deribit e.deribitSeen
  pruned : ∀ nowMs, e.phase = .ingestDeribit nowMs →
    e.aggregator.binance.getLast? = e.fastSeen.getLast?.filter (fun t => !isStale nowMs t)

lemma init_feedsInv : (machine cfg utcOffsetS boot).init.FeedsInv := by
  have hring : (SpscRing.init (by decide) : TickRing).unread = [] := SpscRing.init_unread _
  refine ⟨by simp [machine], le_rfl, ?_, ?_, by simp [machine]⟩
  · simp only [machine, hring]
    exact FeedInv.init _ _
  · simp only [machine, hring]
    exact FeedInv.init _ _

/-- Nothing of the feeds changes, except that time may pass. -/
structure SameFeeds (e e' : Engine) : Prop where
  sys : e.sys ≤ e'.sys
  fastRing : e'.fastRing = e.fastRing
  deribitRing : e'.deribitRing = e.deribitRing
  aggregator : e'.aggregator = e.aggregator
  fastSeen : e'.fastSeen = e.fastSeen
  deribitSeen : e'.deribitSeen = e.deribitSeen

lemma FeedsInv.same {e e' : Engine} (h : e.FeedsInv) (hs : SameFeeds e e')
    (hnow : e.loopNow ≤ e'.loopNow) (hclock : e'.loopNow ≤ e'.nowMs)
    (hphase : ∀ n, e'.phase = .ingestDeribit n → e.phase = .ingestDeribit n) : e'.FeedsInv := by
  refine ⟨h.sys.trans_le hs.sys, hclock, ?_, ?_, ?_⟩
  · rw [hs.fastRing, hs.aggregator, hs.fastSeen]
    exact h.fast.advance hs.sys hnow
  · rw [hs.deribitRing, hs.aggregator, hs.deribitSeen]
    exact h.deribit.advance hs.sys hnow
  · intro n hn
    rw [hs.aggregator, hs.fastSeen]
    exact h.pruned n (hphase n hn)

/-- A step of another thread that leaves the feeds alone. -/
lemma FeedsInv.elsewhere {e e' : Engine} (h : e.FeedsInv) (hs : SameFeeds e e')
    (hphase : e'.phase = e.phase) (hclock : e.nowMs ≤ e'.nowMs) : e'.FeedsInv := by
  apply h.same hs
  · unfold loopNow
    rw [hphase]
    exact LoopPhase.now_mono hclock e.phase
  · unfold loopNow
    rw [hphase]
    exact LoopPhase.now_le_of_le hclock h.clock
  · intro n hn
    exact hphase ▸ hn

lemma wait_nowMs (e : Engine) (ms : Nat) : e.nowMs ≤ ({ e with sys := e.sys + ms } : Engine).nowMs := by
  unfold nowMs
  cases e.origin with
  | none => simp
  | some o => simp

lemma fastTick_tsMs {cfg : Config} {sys : Int} {bid ask : ℚ} (t : Tick)
    (h : fastTick cfg sys bid ask = some t) : t.tsMs = sys := by
  unfold fastTick bybitTick at h
  split at h
  · split at h <;> cases h
    rfl
  · cases h
    rfl

lemma deribitTick_tsMs {sys : Int} {price : ℚ} (t : Tick) (h : deribitTick sys price = some t) :
    t.tsMs = sys := by
  unfold deribitTick at h
  split at h <;> cases h
  rfl

lemma ingestFast_feedsInv {e : Engine} (h : e.FeedsInv) {nowMs : Int}
    (hp : e.phase = .ingestFast nowMs) : (e.ingestFast nowMs).FeedsInv := by
  have hnow : e.loopNow = nowMs := by rw [loopNow, hp, LoopPhase.now]
  have hfast := h.fast
  have hderibit := h.deribit
  have hclock := h.clock
  rw [hnow] at hfast hderibit hclock
  cases hu : e.fastRing.unread with
  | nil =>
    rw [ingestFast_of_nil hu]
    refine ⟨h.sys, hclock, hfast.prune, hderibit, ?_⟩
    intro n hn
    cases hn
    exact hfast.newest
  | cons t rest =>
    rw [ingestFast_of_cons hu]
    have hpopped := (e.fastRing.pop_of_unread_cons hu).1
    rw [hu] at hfast
    refine ⟨h.sys, h.clock, ?_, h.deribit, ?_⟩
    · change FeedInv e.sys e.loopNow e.fastRing.pop.1.unread
        (ingestTick e.aggregator.binance nowMs t) (record e.fastSeen t)
      rw [hnow, hpopped]
      exact hfast.ingest
    · intro n hn
      exact absurd (hp.symm.trans hn) (by simp)

/-- `update` is about to return: its last ingest finds the ring empty. -/
lemma pruneDeribit_feedsInv {e : Engine} (h : e.FeedsInv) {nowMs : Int}
    (hp : e.phase = .ingestDeribit nowMs) :
    ({ e with aggregator := { e.aggregator with
        deribit := pruneOld e.aggregator.deribit nowMs } } : Engine).FeedsInv := by
  have hnow : e.loopNow = nowMs := by rw [loopNow, hp, LoopPhase.now]
  have hderibit := h.deribit.prune
  rw [hnow] at hderibit
  refine ⟨h.sys, h.clock, h.fast, ?_, h.pruned⟩
  exact hnow ▸ hderibit

lemma afterUpdate_feedsInv {e : Engine} (h : e.FeedsInv) {nowMs : Int}
    (hp : e.phase = .ingestDeribit nowMs) : (e.afterUpdate cfg utcOffsetS nowMs).FeedsInv := by
  have hnow : e.loopNow = nowMs := by rw [loopNow, hp, LoopPhase.now]
  unfold afterUpdate
  split
  · exact h.same ⟨le_rfl, rfl, rfl, rfl, rfl, rfl⟩ h.clock le_rfl (by simp)
  · exact h.same ⟨le_rfl, rfl, rfl, rfl, rfl, rfl⟩ hnow.le (hnow ▸ h.clock) (by simp)

lemma ingestDeribit_feedsInv {e : Engine} (h : e.FeedsInv) {nowMs : Int}
    (hp : e.phase = .ingestDeribit nowMs) : (e.ingestDeribit cfg utcOffsetS nowMs).FeedsInv := by
  cases hu : e.deribitRing.unread with
  | nil =>
    rw [ingestDeribit_of_nil hu]
    exact afterUpdate_feedsInv (pruneDeribit_feedsInv h hp) hp
  | cons t rest =>
    rw [ingestDeribit_of_cons hu]
    have hnow : e.loopNow = nowMs := by rw [loopNow, hp, LoopPhase.now]
    have hpopped := (e.deribitRing.pop_of_unread_cons hu).1
    have hderibit := h.deribit
    rw [hu, hnow] at hderibit
    refine ⟨h.sys, h.clock, h.fast, ?_, h.pruned⟩
    change FeedInv e.sys e.loopNow e.deribitRing.pop.1.unread
      (ingestTick e.aggregator.deribit nowMs t) (record e.deribitSeen t)
    rw [hnow, hpopped]
    exact hderibit.ingest

/-- The rest of an iteration leaves the feeds alone and goes back to the top of the loop. -/
lemma popQuote_sameFeeds (cfg : Config) (e : Engine) (nowMs : Int) (lead : ℚ) :
    SameFeeds e (e.popQuote cfg nowMs lead) ∧
      (e.popQuote cfg nowMs lead).loopNow = e.nowMs ∧
      (e.popQuote cfg nowMs lead).nowMs = e.nowMs ∧
      ∀ n, (e.popQuote cfg nowMs lead).phase ≠ .ingestDeribit n := by
  have hevaluate : ∀ (ring : QuoteRing) (q : BrokerQuote),
      let e' := ({ e with brokerRing := ring } : Engine).evaluateQuote cfg nowMs lead q
      SameFeeds e e' ∧ e'.loopNow = e.nowMs ∧ e'.nowMs = e.nowMs ∧
        ∀ n, e'.phase ≠ .ingestDeribit n := by
    intro ring q
    unfold evaluateQuote
    dsimp only
    split <;> exact ⟨⟨le_rfl, rfl, rfl, rfl, rfl, rfl⟩, rfl, rfl, by simp⟩
  unfold popQuote
  split
  · split
    · exact hevaluate _ _
    · exact ⟨⟨le_rfl, rfl, rfl, rfl, rfl, rfl⟩, rfl, rfl, by simp⟩
  · exact ⟨⟨le_rfl, rfl, rfl, rfl, rfl, rfl⟩, rfl, rfl, by simp⟩

lemma step_feedsInv {e e' : Engine} {a : Action} (h : e.FeedsInv)
    (hs : e.step cfg utcOffsetS a = some e') : e'.FeedsInv := by
  cases step_moves hs with
  | wait ms => exact h.elsewhere ⟨by simp, rfl, rfl, rfl, rfl, rfl⟩ rfl (e.wait_nowMs ms)
  | fastMessage bid ask =>
    exact ⟨h.sys, h.clock, h.fast.push h.sys fastTick_tsMs, h.deribit, h.pruned⟩
  | deribitMessage price =>
    exact ⟨h.sys, h.clock, h.fast, h.deribit.push h.sys deribitTick_tsMs, h.pruned⟩
  | brokerFrame q =>
    unfold brokerFrame
    split
    · exact h.elsewhere ⟨le_rfl, rfl, rfl, rfl, rfl, rfl⟩ rfl le_rfl
    · exact h
  | leave phase => exact h.same ⟨le_rfl, rfl, rfl, rfl, rfl, rfl⟩ h.clock le_rfl (by simp)
  | readClock phase =>
    have hnow : e.loopNow = e.nowMs := by
      rw [loopNow, phase]
      rfl
    exact h.same ⟨le_rfl, rfl, rfl, rfl, rfl, rfl⟩ hnow.le le_rfl (by simp)
  | ingestFast nowMs phase => exact ingestFast_feedsInv h phase
  | ingestDeribit nowMs phase => exact ingestDeribit_feedsInv h phase
  | popQuote nowMs lead phase =>
    obtain ⟨hsame, hnow, hclock, hphase⟩ := e.popQuote_sameFeeds cfg nowMs lead
    exact h.same hsame (hnow ▸ h.clock) (hnow.trans hclock.symm).le
      (fun n hn => absurd hn (hphase n))
  | submit signal phase => exact h.same ⟨le_rfl, rfl, rfl, rfl, rfl, rfl⟩ h.clock le_rfl (by simp)
  | session event fix hstep =>
    refine h.elsewhere ⟨le_rfl, rfl, rfl, rfl, rfl, rfl⟩ rfl ?_
    unfold nowMs
    dsimp only
    split <;> simp
  | _ => exact h.elsewhere ⟨le_rfl, rfl, rfl, rfl, rfl, rfl⟩ rfl le_rfl

theorem reachable_feedsInv {e : Engine} (h : (machine cfg utcOffsetS boot).Reachable e) :
    e.FeedsInv :=
  Machine.invariant _ init_feedsInv (fun _ _ _ _ hI hs => step_feedsInv hI hs) h

/-! ## What the age test guarantees -/

/-- The iteration that works with `nowMs` is about to return from `update`. -/
def Updating (e : Engine) (nowMs : Int) : Prop :=
  e.phase = .ingestDeribit nowMs ∧ e.deribitRing.unread = []

/-- The age of a tick, by the system clock, when `now_ms` returned `nowMs`. -/
def ageAt (e : Engine) (nowMs : Int) (t : Tick) : Int := nowMs + e.origin.getD e.sys - t.tsMs

/-- If the step returns from `update`, every tick whose price enters the lead is recent. -/
def LeadIsFresh (e : Engine) (a : Action) (e' : Engine) : Prop :=
  a = .strategy → ∀ nowMs, e.Updating nowMs →
    ∀ t ∈ e'.aggregator.entering, e.ageAt nowMs t ≤ CompileTime.kMaxTickAgeMs

/-- If the step returns from `update`, the newest tick received from each feed is recent, or is
older than the limit and the start of the process together, or has no price. -/
def FeedsInTime (e : Engine) (a : Action) (_ : Engine) : Prop :=
  a = .strategy → ∀ nowMs, e.Updating nowMs →
    ∀ t, e.fastSeen.getLast? = some t ∨ e.deribitSeen.getLast? = some t →
      e.ageAt nowMs t ≤ CompileTime.kMaxTickAgeMs ∨
        CompileTime.kMaxTickAgeMs + e.origin.getD e.sys < e.ageAt nowMs t ∨ t.mid ≤ 0

lemma update_aggregator {e e' : Engine} {nowMs : Int} (hu : e.Updating nowMs)
    (hs : e.strategyStep cfg utcOffsetS = some e') :
    e'.aggregator = { e.aggregator with deribit := pruneOld e.aggregator.deribit nowMs } := by
  unfold strategyStep at hs
  simp only [hu.1, Option.some.injEq] at hs
  rw [← hs, ingestDeribit_of_nil hu.2]
  unfold afterUpdate
  split <;> rfl

lemma leadIsFresh_iff {e e' : Engine} {a : Action} (h : e.FeedsInv)
    (hs : e.step cfg utcOffsetS a = some e') : LeadIsFresh e a e' ↔ FeedsInTime e a e' := by
  have hiff : a = .strategy → ∀ nowMs, e.Updating nowMs →
      ((∀ t ∈ e'.aggregator.entering, e.ageAt nowMs t ≤ CompileTime.kMaxTickAgeMs) ↔
        ∀ t, e.fastSeen.getLast? = some t ∨ e.deribitSeen.getLast? = some t →
          e.ageAt nowMs t ≤ CompileTime.kMaxTickAgeMs ∨
            CompileTime.kMaxTickAgeMs + e.origin.getD e.sys < e.ageAt nowMs t ∨ t.mid ≤ 0) := by
    rintro rfl nowMs hu
    have hnow : e.loopNow = nowMs := by rw [loopNow, hu.1, LoopPhase.now]
    have hfast := FeedInv.entering_fresh_iff
      (fun t ht => (h.fast.dated t (List.mem_append_left _ ht)).1) (h.pruned nowMs hu.1)
      (e.origin.getD e.sys)
    have hderibit := FeedInv.entering_fresh_iff
      (fun t ht => (h.deribit.dated t (List.mem_append_left _ ht)).1) (hnow ▸ h.deribit.newest)
      (e.origin.getD e.sys)
    rw [update_aggregator hu hs]
    simp only [entering, List.forall_mem_append, or_imp, forall_and]
    exact and_congr hfast hderibit
  constructor
  · intro hfresh ha nowMs hu
    exact (hiff ha nowMs hu).mp (hfresh ha nowMs hu)
  · intro hfeeds ha nowMs hu
    exact (hiff ha nowMs hu).mpr (hfeeds ha nowMs hu)

/-- In every run: every lead is built from ticks of the last 50 ms exactly when the feeds are in time
at every update. A feed that falls silent is used at whatever age its last tick has reached. -/
theorem leads_fresh_iff_feeds_in_time (cfg : Config) (utcOffsetS : Int) (boot : ℕ+)
    (run : List Action) :
    (machine cfg utcOffsetS boot).Always run LeadIsFresh ↔
      (machine cfg utcOffsetS boot).Always run FeedsInTime :=
  Machine.always_congr _ (fun _ _ _ hr hs => leadIsFresh_iff (reachable_feedsInv hr) hs) run

/-- One message, then ten seconds of silence, then the first iteration: its lead is that of the
message. -/
def silentFeed : List Action := [Action.fastMessage 102 102, .wait 10000] ++ List.replicate 4 .strategy

theorem silentFeed_lead_is_stale :
    ((machine {} 0 1700000000000).run (machine {} 0 1700000000000).init silentFeed).map
      (fun e => (e.aggregator.lead {} 0 0, e.aggregator.entering.map (e.ageAt 0))) =
        some (some 102, [10000]) := by
  decide +kernel

end Engine

end LatencyArb
