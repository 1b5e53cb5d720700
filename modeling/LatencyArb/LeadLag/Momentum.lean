import LatencyArb.LeadLag.Executor
import LatencyArb.Library.Rounding
import LatencyArb.Library.TimeWindow

/-!
# Momentum signals (`SignalGenerator`, `src/lead_lag.cpp`)

`steady_clock` counts nanoseconds up from its epoch. Prices, percentages and seconds are doubles, in an
arithmetic `A` that rounds. The buffer is a suffix of the ticks seen so far; `buf_eq` says which one, and a
decision on it is the decision on all of them.
-/

namespace LatencyArb

open Numeral

namespace LeadLag

/-- The fields of `Config` for the signal logic. -/
structure SignalConfig where
  windowSeconds : ℚ := 2
  thresholdPct : ℚ := Rounding.binary64.fl (1 / 20)
  cooldownSeconds : ℚ := 30

def nanosPerSecond : ℚ := 1000000000

/-- `steady_clock::time_point::min()` -/
def timePointMin : Int := -2 ^ 63

/-- Buffered ticks are pairs of a time and a price. -/
structure SignalGenerator where
  buf : List (Nat × ℚ) := []
  lastSignal : Int := timePointMin

namespace SignalGenerator

variable (A : Rounding) (cfg : SignalConfig)

/-- `keep_for`, for the comparison with a duration of whole nanoseconds. -/
def keepFor : ℚ := A.mul (A.add cfg.windowSeconds 1) nanosPerSecond

def windowNanos : ℚ := A.mul cfg.windowSeconds nanosPerSecond

def cooldownNanos : ℚ := A.mul cfg.cooldownSeconds nanosPerSecond

def beyondReach (now : Nat) (e : Nat × ℚ) : Bool := decide (keepFor A cfg < A.fl ((now : ℚ) - e.1))

def refPriceAt (buf : List (Nat × ℚ)) (cutoff : Int) : ℚ :=
  match buf.find? (fun e => decide (cutoff ≤ e.1)) with
  | some e => e.2
  | none => (buf.head?.map Prod.snd).getD 0

def inCooldown (lastSignal : Int) (now : Nat) : Bool :=
  if lastSignal = timePointMin then false
  else decide (A.fl ((now - lastSignal : Int) : ℚ) < cooldownNanos A cfg)

def signalFrom (ref : ℚ) (lastSignal : Int) (now : Nat) (price : ℚ) : Option Signal :=
  let changePct := A.changePct price ref
  if !inCooldown A cfg lastSignal now && decide (cfg.thresholdPct ≤ |changePct|) then
    some ⟨if 0 < changePct then bytesOf "buy" else bytesOf "sell", bytesOf "momentum", ref, changePct⟩
  else none

/-- `update` after the pruning, as far as the signal it returns. -/
def signalOn (buf : List (Nat × ℚ)) (lastSignal : Int) (now : Nat) (price : ℚ) : Option Signal :=
  if buf.length < 2 then none
  else
    let cutoff := now - truncZero (windowNanos A cfg)
    signalFrom A cfg (refPriceAt buf cutoff) lastSignal now price

def update (g : SignalGenerator) (now : Nat) (price : ℚ) : Option Signal × SignalGenerator :=
  let buf := (g.buf ++ [(now, price)]).dropWhile (beyondReach A cfg now)
  let signal := signalOn A cfg buf g.lastSignal now price
  (signal, ⟨buf, if signal.isSome then now else g.lastSignal⟩)

/-- The generator without its pruning loop. -/
def updateUnpruned (g : SignalGenerator) (now : Nat) (price : ℚ) : Option Signal × SignalGenerator :=
  let buf := g.buf ++ [(now, price)]
  let signal := signalOn A cfg buf g.lastSignal now price
  (signal, ⟨buf, if signal.isSome then now else g.lastSignal⟩)

/-! ## Histories -/

/-- The generator after the ticks, and the times of the signals it has emitted. -/
def history (ticks : List (Nat × ℚ)) : SignalGenerator × List Nat :=
  ticks.foldl (fun s e =>
    let r := update A cfg s.1 e.1 e.2
    (r.2, if r.1.isSome then s.2 ++ [e.1] else s.2)) ({}, [])

def unpruned (ticks : List (Nat × ℚ)) : SignalGenerator :=
  ticks.foldl (fun g e => (updateUnpruned A cfg g e.1 e.2).2) {}

/-- The earliest tick of the window that ends now. -/
def windowStart (ticks : List (Nat × ℚ)) (now : Nat) : Option (Nat × ℚ) :=
  ticks.find? (fun e => decide ((now : ℚ) - windowNanos A cfg ≤ e.1))

variable {A cfg}

lemma history_concat (ticks : List (Nat × ℚ)) (e : Nat × ℚ) :
    history A cfg (ticks ++ [e]) =
      (((history A cfg ticks).1.update A cfg e.1 e.2).2,
        if ((history A cfg ticks).1.update A cfg e.1 e.2).1.isSome then (history A cfg ticks).2 ++ [e.1]
        else (history A cfg ticks).2) := by
  rw [history, List.foldl_append, List.foldl_cons, List.foldl_nil, ← history]

lemma unpruned_concat (ticks : List (Nat × ℚ)) (e : Nat × ℚ) :
    unpruned A cfg (ticks ++ [e]) = ((unpruned A cfg ticks).updateUnpruned A cfg e.1 e.2).2 := by
  rw [unpruned, List.foldl_append, List.foldl_cons, List.foldl_nil, ← unpruned]

lemma beyondReach_mono {now now' : Nat} (h : now ≤ now') (e : Nat × ℚ)
    (he : beyondReach A cfg now e = true) : beyondReach A cfg now' e = true := by
  unfold beyondReach at he ⊢
  rw [decide_eq_true_eq] at he ⊢
  have hcast : (now : ℚ) ≤ now' := Nat.cast_le.mpr h
  exact he.trans_le (A.mono (sub_le_sub_right hcast _))

/-- The buffer holds the ticks seen so far but for the old ones in front. -/
lemma buf_eq (ticks : List (Nat × ℚ)) (e : Nat × ℚ)
    (hsorted : (ticks ++ [e]).Pairwise (fun a b => a.1 ≤ b.1)) :
    ((history A cfg ticks).1.buf ++ [e]).dropWhile (beyondReach A cfg e.1) =
      (ticks ++ [e]).dropWhile (beyondReach A cfg e.1) := by
  induction ticks using List.reverseRecOn generalizing e with
  | nil => rfl
  | append_singleton ticks b ih =>
    obtain ⟨hticks, -, hlast⟩ := List.pairwise_append.mp hsorted
    have hle : b.1 ≤ e.1 := hlast b (by simp) e (by simp)
    have hbuf : (history A cfg (ticks ++ [b])).1.buf =
        ((history A cfg ticks).1.buf ++ [b]).dropWhile (beyondReach A cfg b.1) := by
      rw [history_concat]
      rfl
    rw [hbuf, ih b hticks]
    exact dropWhile_dropWhile_append (fun t _ => beyondReach_mono hle t) _

/-! ## A decision on the buffer is the decision on the whole history -/

lemma nanos_pos : (0 : ℚ) < nanosPerSecond := by
  unfold nanosPerSecond
  norm_num

lemma windowNanos_nonneg (hwindow : 0 ≤ cfg.windowSeconds) : 0 ≤ windowNanos A cfg :=
  Rounding.fl_nonneg (mul_nonneg hwindow nanos_pos.le)

/-- The pruning leaves a margin, also after the rounding of the sum. -/
lemma windowNanos_le_keepFor (hdouble : A.Has cfg.windowSeconds) : windowNanos A cfg ≤ keepFor A cfg :=
  Rounding.mul_mono nanos_pos.le (Rounding.le_add hdouble zero_le_one)

lemma reaches_iff (hwindow : 0 ≤ cfg.windowSeconds) (now : Nat) (e : Nat × ℚ) :
    (now : Int) - truncZero (windowNanos A cfg) ≤ e.1 ↔ (now : ℚ) - windowNanos A cfg ≤ e.1 := by
  rw [truncZero, if_pos (windowNanos_nonneg hwindow)]
  calc (now : Int) - ⌊windowNanos A cfg⌋ ≤ e.1
      ↔ (now : Int) - e.1 ≤ ⌊windowNanos A cfg⌋ := by omega
    _ ↔ (now : ℚ) - e.1 ≤ windowNanos A cfg := by
      rw [Int.le_floor]
      push_cast
      rfl
    _ ↔ (now : ℚ) - windowNanos A cfg ≤ e.1 := by
      constructor <;> intro h <;> linarith

/-- What the size test and the fallback leave of a decision: the price at the start of the window. -/
lemma signalOn_eq (hwindow : 0 ≤ cfg.windowSeconds) (hthreshold : 0 < cfg.thresholdPct)
    (older : List (Nat × ℚ)) (lastSignal : Int) (now : Nat) {price : ℚ} (hprice : 0 < price) :
    ∃ ref, windowStart A cfg (older ++ [(now, price)]) now = some ref ∧
      signalOn A cfg (older ++ [(now, price)]) lastSignal now price =
        signalFrom A cfg ref.2 lastSignal now price := by
  have hnow : (now : ℚ) - windowNanos A cfg ≤ now := sub_le_self _ (windowNanos_nonneg hwindow)
  have hsome : (windowStart A cfg (older ++ [(now, price)]) now).isSome = true := by
    rw [windowStart, List.find?_isSome]
    exact ⟨(now, price), by simp, by simpa using hnow⟩
  obtain ⟨ref, href⟩ := Option.isSome_iff_exists.mp hsome
  refine ⟨ref, href, ?_⟩
  cases older with
  | nil =>
    obtain rfl : (now, price) = ref := by
      rw [List.nil_append, windowStart, List.find?_cons_of_pos (by simpa using hnow)] at href
      exact Option.some.inj href
    rw [signalOn, if_pos (by simp), signalFrom, Rounding.changePct_self hprice.ne']
    simp [hthreshold]
  | cons front rest =>
    have hfind : (front :: rest ++ [(now, price)]).find?
        (fun e => decide ((now : Int) - truncZero (windowNanos A cfg) ≤ e.1)) =
          some ref := by
      rw [← href, windowStart]
      congr 1
      funext e
      exact decide_eq_decide.mpr (reaches_iff hwindow now e)
    rw [signalOn, if_neg (by simp)]
    dsimp only
    rw [refPriceAt, hfind]

lemma not_beyondReach (hdouble : A.Has cfg.windowSeconds) (hwindow : 0 ≤ cfg.windowSeconds) (now : Nat)
    (price : ℚ) : beyondReach A cfg now (now, price) = false := by
  unfold beyondReach
  rw [decide_eq_false_iff_not, sub_self, Rounding.fl_zero, not_lt]
  exact (windowNanos_nonneg hwindow).trans (windowNanos_le_keepFor hdouble)

/-- A tick that is pruned is older than the window: rounding its age does not bring it back. -/
lemma windowStart_dropWhile (hdouble : A.Has cfg.windowSeconds) (ticks : List (Nat × ℚ)) (now : Nat) :
    windowStart A cfg (ticks.dropWhile (beyondReach A cfg now)) now = windowStart A cfg ticks now := by
  apply find?_dropWhile_of_expired
  intro e _ he
  unfold beyondReach at he
  rw [decide_eq_true_eq] at he
  rw [decide_eq_false_iff_not]
  intro hin
  have hage : A.fl ((now : ℚ) - e.1) ≤ windowNanos A cfg := by
    have hround := A.mono (by linarith : (now : ℚ) - e.1 ≤ windowNanos A cfg)
    have hsame : A.fl (windowNanos A cfg) = windowNanos A cfg := A.fl_fl _
    exact hsame ▸ hround
  exact absurd (he.trans_le hage) (windowNanos_le_keepFor hdouble).not_gt

/-- Pruning does not change a decision. -/
theorem signalOn_dropWhile (hdouble : A.Has cfg.windowSeconds) (hwindow : 0 ≤ cfg.windowSeconds)
    (hthreshold : 0 < cfg.thresholdPct) (ticks : List (Nat × ℚ)) (lastSignal : Int) (now : Nat) {price : ℚ}
    (hprice : 0 < price) :
    signalOn A cfg ((ticks ++ [(now, price)]).dropWhile (beyondReach A cfg now)) lastSignal now price =
      signalOn A cfg (ticks ++ [(now, price)]) lastSignal now price := by
  have hlast : ((ticks ++ [(now, price)]).dropWhile (beyondReach A cfg now)).getLast? =
      some (now, price) :=
    getLast?_dropWhile_of_fresh (by rw [List.getLast?_concat]) (not_beyondReach hdouble hwindow now price)
  obtain ⟨older, hbuf⟩ : ∃ older, (ticks ++ [(now, price)]).dropWhile (beyondReach A cfg now) =
      older ++ [(now, price)] := ⟨_, (List.dropLast_append_getLast? _ hlast).symm⟩
  obtain ⟨ref, href, hon⟩ := signalOn_eq hwindow hthreshold older lastSignal now hprice
  obtain ⟨ref', href', hon'⟩ := signalOn_eq hwindow hthreshold ticks lastSignal now hprice
  have hsame : ref = ref' := by
    rw [← hbuf, windowStart_dropWhile hdouble, href'] at href
    exact (Option.some.inj href).symm
  rw [hbuf, hon, hon', hsame]

/-! ## The cooldown -/

lemma update_lastSignal (g : SignalGenerator) (now : Nat) (price : ℚ) :
    (g.update A cfg now price).2.lastSignal =
      if (g.update A cfg now price).1.isSome then (now : Int) else g.lastSignal := rfl

/-- `last_signal_` is the time of the last signal emitted, if there was one. -/
lemma lastSignal_eq (ticks : List (Nat × ℚ)) :
    (history A cfg ticks).1.lastSignal =
      (history A cfg ticks).2.getLast?.elim timePointMin (fun t : Nat => (t : Int)) := by
  induction ticks using List.reverseRecOn with
  | nil => rfl
  | append_singleton ticks e ih =>
    simp only [history_concat, update_lastSignal]
    split
    · rw [List.getLast?_concat]
      rfl
    · exact ih

lemma emitted_sublist (ticks : List (Nat × ℚ)) :
    ((history A cfg ticks).2).Sublist (ticks.map Prod.fst) := by
  induction ticks using List.reverseRecOn with
  | nil => exact List.Sublist.refl []
  | append_singleton ticks e ih =>
    rw [history_concat, List.map_append, List.map_singleton]
    dsimp only
    split
    · exact ih.append (List.Sublist.refl [e.1])
    · exact ih.trans (List.sublist_append_left _ _)

lemma timePointMin_lt (t : Nat) : timePointMin < t := by
  unfold timePointMin
  omega

/-- The cooldown is over when every signal emitted so far is old enough. -/
lemma inCooldown_eq_false_iff (ticks : List (Nat × ℚ)) (now : Nat)
    (hsorted : ticks.Pairwise (fun a b => a.1 ≤ b.1)) :
    inCooldown A cfg (history A cfg ticks).1.lastSignal now = false ↔
      ∀ t ∈ (history A cfg ticks).2, cooldownNanos A cfg ≤ A.fl ((now : ℚ) - t) := by
  have htimes : (history A cfg ticks).2.Pairwise (· ≤ ·) :=
    (List.pairwise_map.mpr hsorted).sublist (emitted_sublist ticks)
  rw [lastSignal_eq]
  cases hl : (history A cfg ticks).2.getLast? with
  | none =>
    rw [List.getLast?_eq_none_iff] at hl
    simp [inCooldown, hl]
  | some last =>
    have hne : ((last : Nat) : Int) ≠ timePointMin := (timePointMin_lt last).ne'
    rw [Option.elim_some, inCooldown, if_neg hne, decide_eq_false_iff_not, not_lt]
    push_cast
    constructor
    · intro h t ht
      obtain ⟨earlier, hearlier⟩ : ∃ earlier, (history A cfg ticks).2 = earlier ++ [last] :=
        ⟨_, (List.dropLast_append_getLast? last hl).symm⟩
      have hle : t ≤ last := by
        rw [hearlier] at ht htimes
        obtain ht | ht := List.mem_append.mp ht
        · exact (List.pairwise_append.mp htimes).2.2 t ht last (List.mem_singleton_self last)
        · exact (List.mem_singleton.mp ht).le
      have hcast : (t : ℚ) ≤ last := Nat.cast_le.mpr hle
      exact h.trans (A.mono (sub_le_sub_left hcast _))
    · intro h
      exact h last (List.mem_of_getLast? hl)

/-! ## Signals -/

/-- The change of a price as the program computes it, without its sign. -/
def move (A : Rounding) (price ref : ℚ) : ℚ := A.mul |A.sub (A.div price ref) 1| 100

lemma signalFrom_isSome_iff (ref : ℚ) (lastSignal : Int) (now : Nat) (price : ℚ) :
    (signalFrom A cfg ref lastSignal now price).isSome = true ↔
      inCooldown A cfg lastSignal now = false ∧ cfg.thresholdPct ≤ move A price ref := by
  unfold signalFrom move
  dsimp only
  rw [Rounding.abs_changePct]
  split
  · rename_i h
    rw [Bool.and_eq_true, Bool.not_eq_true', decide_eq_true_eq] at h
    simp [h]
  · rename_i h
    rw [Bool.and_eq_true, Bool.not_eq_true', decide_eq_true_eq] at h
    simp [h]

/-- A change that reaches the threshold does not vanish, and then it has the sign of the move. -/
lemma signalFrom_direction (hthreshold : 0 < cfg.thresholdPct) {ref price : ℚ} {lastSignal : Int} {now : Nat}
    {s : Signal} (href : 0 < ref) (hs : signalFrom A cfg ref lastSignal now price = some s) :
    s.direction = if ref < price then bytesOf "buy" else bytesOf "sell" := by
  unfold signalFrom at hs
  dsimp only at hs
  split at hs
  · rename_i h
    rw [Bool.and_eq_true, decide_eq_true_eq] at h
    have hne : A.changePct price ref ≠ 0 := by
      intro hzero
      rw [hzero, abs_zero] at h
      exact absurd h.2 hthreshold.not_ge
    obtain rfl := Option.some.inj hs
    exact if_congr (Rounding.changePct_pos_iff href hne) rfl rfl
  · cases hs

/-- The generator that never prunes sees the whole history and has the same cooldown. -/
lemma unpruned_eq (hdouble : A.Has cfg.windowSeconds) (hwindow : 0 ≤ cfg.windowSeconds)
    (hthreshold : 0 < cfg.thresholdPct) (ticks : List (Nat × ℚ))
    (hsorted : ticks.Pairwise (fun a b => a.1 ≤ b.1)) (hprices : ∀ e ∈ ticks, 0 < e.2) :
    (unpruned A cfg ticks).buf = ticks ∧
      (unpruned A cfg ticks).lastSignal = (history A cfg ticks).1.lastSignal := by
  induction ticks using List.reverseRecOn with
  | nil => exact ⟨rfl, rfl⟩
  | append_singleton ticks e ih =>
    obtain ⟨hbuf, hlast⟩ := ih (List.pairwise_append.mp hsorted).1
      (fun t ht => hprices t (List.mem_append_left _ ht))
    have hprice : 0 < e.2 := hprices e (by simp)
    have hsame := signalOn_dropWhile hdouble hwindow hthreshold ticks (history A cfg ticks).1.lastSignal e.1 hprice
    rw [unpruned_concat, history_concat]
    refine ⟨by rw [updateUnpruned, hbuf], ?_⟩
    dsimp only [updateUnpruned, update]
    rw [hbuf, hlast, buf_eq ticks e hsorted, ← hsame]

/-- For every history of ticks with positive prices at nondecreasing times, and every call in it, in whatever
arithmetic the doubles have: a signal is emitted exactly when the cooldown of every earlier signal is over and
the price has moved by the threshold since the earliest tick of the window in the whole history; it says buy
exactly when the price has risen; and a generator that never prunes returns the same. -/
theorem signals_eq_definition (A : Rounding) (cfg : SignalConfig) (hdouble : A.Has cfg.windowSeconds)
    (hwindow : 0 ≤ cfg.windowSeconds) (hthreshold : 0 < cfg.thresholdPct) (ticks : List (Nat × ℚ))
    (hsorted : ticks.Pairwise (fun a b => a.1 ≤ b.1)) (hprices : ∀ e ∈ ticks, 0 < e.2)
    (pre : List (Nat × ℚ)) (now : Nat) (price : ℚ) (hpre : pre ++ [(now, price)] <+: ticks) :
    ∃ ref, windowStart A cfg (pre ++ [(now, price)]) now = some ref ∧
      (((history A cfg pre).1.update A cfg now price).1.isSome = true ↔
        (∀ t ∈ (history A cfg pre).2, cooldownNanos A cfg ≤ A.fl ((now : ℚ) - t)) ∧
          cfg.thresholdPct ≤ move A price ref.2) ∧
      (∀ s, ((history A cfg pre).1.update A cfg now price).1 = some s →
        s.direction = if ref.2 < price then bytesOf "buy" else bytesOf "sell") ∧
      ((history A cfg pre).1.update A cfg now price).1 =
        ((unpruned A cfg pre).updateUnpruned A cfg now price).1 := by
  have hsorted' := hsorted.sublist hpre.sublist
  have hprices' : ∀ e ∈ pre ++ [(now, price)], 0 < e.2 := fun e he => hprices e (hpre.subset he)
  have hprice : 0 < price := hprices' (now, price) (by simp)
  obtain ⟨ref, href, hon⟩ := signalOn_eq hwindow hthreshold pre (history A cfg pre).1.lastSignal now hprice
  have hrefpos : 0 < ref.2 := hprices' ref (List.mem_of_find?_eq_some href)
  have hfull : ((history A cfg pre).1.update A cfg now price).1 =
      signalOn A cfg (pre ++ [(now, price)]) (history A cfg pre).1.lastSignal now price := by
    rw [← signalOn_dropWhile hdouble hwindow hthreshold pre _ now hprice, ← buf_eq pre (now, price) hsorted']
    rfl
  obtain ⟨hbuf, hlast⟩ := unpruned_eq hdouble hwindow hthreshold pre (List.pairwise_append.mp hsorted').1
    (fun t ht => hprices' t (List.mem_append_left _ ht))
  refine ⟨ref, href, ?_, ?_, ?_⟩
  · rw [hfull, hon, signalFrom_isSome_iff,
      inCooldown_eq_false_iff pre now (List.pairwise_append.mp hsorted').1]
  · intro s hs
    rw [hfull, hon] at hs
    exact signalFrom_direction hthreshold hrefpos hs
  · rw [hfull, updateUnpruned, hbuf, hlast]

/-- Three ticks a second apart, the last of them one percent up. -/
def risingTicks : List (Nat × ℚ) := [(0, 100), (1000000000, 100), (2000000000, 101)]

theorem risingTicks_buy :
    ((history .binary64 {} (risingTicks.take 2)).1.update .binary64 {} 2000000000 101).1.map Signal.direction =
        some (bytesOf "buy") ∧
      ∃ ref, windowStart .binary64 {} (risingTicks.take 2 ++ [(2000000000, 101)]) 2000000000 = some ref ∧
        (((history .binary64 {} (risingTicks.take 2)).1.update .binary64 {} 2000000000 101).1.isSome = true ↔
          (∀ t ∈ (history .binary64 {} (risingTicks.take 2)).2,
            cooldownNanos .binary64 {} ≤ Rounding.binary64.fl (((2000000000 : Nat) : ℚ) - t)) ∧
            Rounding.binary64.fl (1 / 20) ≤ move .binary64 101 ref.2) := by
  obtain ⟨ref, href, hiff, -⟩ := signals_eq_definition .binary64 {} (by decide +kernel) (by norm_num)
    (by decide +kernel) risingTicks (by decide) (by decide +kernel) (risingTicks.take 2) 2000000000 101
    (by decide)
  exact ⟨by decide +kernel, ref, href, hiff⟩

def halfPercent : SignalConfig := { thresholdPct := 1 / 2 }

def shortWindow : SignalConfig := { windowSeconds := Rounding.binary64.fl (3 / 10) }

def shortCooldown : SignalConfig := { cooldownSeconds := Rounding.binary64.fl (1 / 10) }

/-- In binary64 the roundings decide. At a threshold of half a percent the rise from 200 to 201 is missed. A
window of 0.3 s reaches a tick that is 0.3 s old, although the double is less, and the rise since that tick is
a signal. A cooldown of 0.1 s is over 0.1 s after a signal, although the double is more. -/
theorem rounding_decides :
    (([(0, 200), (1000000000, 201)] : List (Nat × ℚ)).find? (fun e =>
        decide (1000000000 - halfPercent.windowSeconds * nanosPerSecond ≤ (e.1 : ℚ))) = some (0, 200) ∧
      halfPercent.thresholdPct ≤ |201 / 200 - 1| * 100 ∧ (history .binary64 halfPercent [(0, 200)]).2 = [] ∧
      ((history .binary64 halfPercent [(0, 200)]).1.update .binary64 halfPercent 1000000000 201).1 = none) ∧
    (([(0, 100), (1, 100 + 1 / 32), (300000000, 100 + 1 / 16)] : List (Nat × ℚ)).find? (fun e =>
        decide (300000000 - shortWindow.windowSeconds * nanosPerSecond ≤ (e.1 : ℚ))) = some (1, 100 + 1 / 32) ∧
      |(100 + 1 / 16) / (100 + 1 / 32) - 1| * 100 < shortWindow.thresholdPct ∧
      ((history .binary64 shortWindow [(0, 100), (1, 100 + 1 / 32)]).1.update .binary64 shortWindow 300000000
        (100 + 1 / 16)).1.isSome = true) ∧
    ((history .binary64 shortCooldown [(0, 100), (100000000, 101)]).2 = [100000000] ∧
      (200000000 : ℚ) - 100000000 < shortCooldown.cooldownSeconds * nanosPerSecond ∧
      ((history .binary64 shortCooldown [(0, 100), (100000000, 101)]).1.update .binary64 shortCooldown 200000000
        103).1.isSome = true) := by
  decide +kernel

end SignalGenerator

end LeadLag

end LatencyArb
