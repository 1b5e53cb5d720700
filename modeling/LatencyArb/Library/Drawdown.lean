import Mathlib

/-!
# Running peaks and drawdowns

The values of a curve are seen one after the other. A tracker keeps the running peak, the deepest
drop below a running peak, and the peak from which that drop was reached first.
-/

namespace LatencyArb

namespace Drawdown

variable {α : Type*} [LinearOrder α]

/-- The highest value of the curve up to the index `j`. -/
def PeakAt (curve : List α) (j : Nat) (p : α) : Prop := IsGreatest {e | ∃ i ≤ j, curve[i]? = some e} p

section Order

variable {curve : List α} {e p : α} {j : Nat}

lemma peakAt_append (hj : j < curve.length) : PeakAt (curve ++ [e]) j p ↔ PeakAt curve j p := by
  have hsame : ∀ i ≤ j, (curve ++ [e])[i]? = curve[i]? := by
    intro i hi
    exact List.getElem?_append_left (by omega)
  have hset : {v | ∃ i ≤ j, (curve ++ [e])[i]? = some v} = {v | ∃ i ≤ j, curve[i]? = some v} := by
    ext v
    constructor <;> rintro ⟨i, hi, hv⟩
    · exact ⟨i, hi, hsame i hi ▸ hv⟩
    · exact ⟨i, hi, (hsame i hi).symm ▸ hv⟩
  rw [PeakAt, PeakAt, hset]

lemma PeakAt.append (h : PeakAt curve (curve.length - 1) p) :
    PeakAt (curve ++ [e]) curve.length (max p e) := by
  constructor
  · obtain he | he := le_total p e
    · rw [max_eq_right he]
      exact ⟨curve.length, le_rfl, by simp⟩
    · rw [max_eq_left he]
      obtain ⟨i, hi, hv⟩ := h.1
      have hlt : i < curve.length := (List.getElem?_eq_some_iff.mp hv).1
      exact ⟨i, hlt.le, by rw [List.getElem?_append_left hlt, hv]⟩
  · rintro v ⟨i, -, hv⟩
    by_cases hlt : i < curve.length
    · rw [List.getElem?_append_left hlt] at hv
      exact (h.2 ⟨i, by omega, hv⟩).trans (le_max_left _ _)
    · rw [List.getElem?_append_right (by omega), List.getElem?_singleton] at hv
      split at hv <;> cases hv
      exact le_max_right _ _

end Order

variable [AddCommGroup α]

/-- The drops from a value of the curve to a later one. -/
def drops (curve : List α) : Set α :=
  {d | ∃ (i j : Nat) (e f : α), i ≤ j ∧ curve[i]? = some e ∧ curve[j]? = some f ∧ d = e - f}

/-- The drop `d` is reached from the running peak `p`, and at no earlier index. -/
def FirstReached (curve : List α) (d p : α) : Prop :=
  ∃ j f, curve[j]? = some f ∧ PeakAt curve j p ∧ p - f = d ∧
    ∀ i < j, ∀ e q, curve[i]? = some e → PeakAt curve i q → q - e ≠ d

structure Tracker (α : Type*) where
  peak : α
  worst : α
  top : α

namespace Tracker

def start (e : α) : Tracker α := ⟨e, 0, e⟩

def observe (t : Tracker α) (e : α) : Tracker α :=
  let peak := max t.peak e
  if t.worst < peak - e then ⟨peak, peak - e, peak⟩ else { t with peak := peak }

end Tracker

/-- The tracker has seen exactly the values of the curve. -/
structure Records (curve : List α) (t : Tracker α) : Prop where
  peak : PeakAt curve (curve.length - 1) t.peak
  worst : IsGreatest (drops curve) t.worst
  top : FirstReached curve t.worst t.top

variable {curve : List α} {t : Tracker α} {e : α}

lemma records_start (e : α) : Records [e] (Tracker.start e) := by
  have hvalue : ∀ (i : Nat) (v : α), [e][i]? = some v → v = e := by
    intro i v hv
    rw [List.getElem?_singleton] at hv
    split at hv <;> cases hv
    rfl
  have hpeak : PeakAt [e] 0 e := by
    refine ⟨⟨0, le_rfl, rfl⟩, ?_⟩
    rintro v ⟨i, -, hv⟩
    exact (hvalue i v hv).le
  refine ⟨hpeak, ⟨⟨0, 0, e, e, le_rfl, rfl, rfl, (sub_self e).symm⟩, ?_⟩, ?_⟩
  · rintro d ⟨i, j, v, w, -, hv, hw, rfl⟩
    rw [hvalue i v hv, hvalue j w hw, sub_self]
    exact le_rfl
  · exact ⟨0, e, rfl, hpeak, sub_self e, fun i hi => absurd hi (Nat.not_lt_zero i)⟩

omit [LinearOrder α] in
lemma mem_drops_append {d : α} (hd : d ∈ drops curve) : d ∈ drops (curve ++ [e]) := by
  obtain ⟨i, j, v, w, hij, hv, hw, rfl⟩ := hd
  have hi : i < curve.length := (List.getElem?_eq_some_iff.mp hv).1
  have hj : j < curve.length := (List.getElem?_eq_some_iff.mp hw).1
  exact ⟨i, j, v, w, hij, by rw [List.getElem?_append_left hi, hv],
    by rw [List.getElem?_append_left hj, hw], rfl⟩

lemma FirstReached.append {d p : α} (h : FirstReached curve d p) :
    FirstReached (curve ++ [e]) d p := by
  obtain ⟨j, f, hf, hp, hd, hfirst⟩ := h
  have hj : j < curve.length := (List.getElem?_eq_some_iff.mp hf).1
  refine ⟨j, f, by rw [List.getElem?_append_left hj, hf], (peakAt_append hj).mpr hp, hd, ?_⟩
  intro i hi v q hv hq
  rw [List.getElem?_append_left (by omega)] at hv
  exact hfirst i hi v q hv ((peakAt_append (by omega)).mp hq)

variable [IsOrderedAddMonoid α]

lemma drops_append (h : Records curve t) {d : α} (hd : d ∈ drops (curve ++ [e])) :
    d ≤ max t.worst (max t.peak e - e) := by
  obtain ⟨i, j, v, w, hij, hv, hw, rfl⟩ := hd
  by_cases hj : j < curve.length
  · rw [List.getElem?_append_left hj] at hw
    rw [List.getElem?_append_left (by omega)] at hv
    exact (h.worst.2 ⟨i, j, v, w, hij, hv, hw, rfl⟩).trans (le_max_left _ _)
  · have hlen : j < (curve ++ [e]).length := (List.getElem?_eq_some_iff.mp hw).1
    rw [List.length_append, List.length_singleton] at hlen
    have hjeq : j = curve.length := by omega
    have hwe : w = e := by simpa [hjeq] using hw.symm
    have hpeak := (h.peak.append (e := e)).2 ⟨i, by omega, hv⟩
    rw [hwe]
    exact (sub_le_sub_right hpeak e).trans (le_max_right _ _)

/-- The step lemma: a tracker that has seen the curve and observes one more value has seen the longer
curve. -/
theorem Records.observe (h : Records curve t) (e : α) : Records (curve ++ [e]) (t.observe e) := by
  have hpeak : PeakAt (curve ++ [e]) ((curve ++ [e]).length - 1) (max t.peak e) := by
    rw [List.length_append, List.length_singleton, Nat.add_sub_cancel]
    exact h.peak.append
  have hnew : max t.peak e - e ∈ drops (curve ++ [e]) := by
    obtain ⟨i, hi, hv⟩ := hpeak.1
    rw [List.length_append, List.length_singleton, Nat.add_sub_cancel] at hi
    exact ⟨i, curve.length, _, e, hi, hv, by simp, rfl⟩
  unfold Tracker.observe
  dsimp only
  split
  case isTrue hdeeper =>
    refine ⟨hpeak, ⟨hnew, ?_⟩, ?_⟩
    · intro d hd
      exact (drops_append h hd).trans (max_le hdeeper.le le_rfl)
    · refine ⟨curve.length, e, by simp, ?_, rfl, ?_⟩
      · rw [List.length_append, List.length_singleton, Nat.add_sub_cancel] at hpeak
        exact hpeak
      · intro i hi v q hv hq hsame
        rw [List.getElem?_append_left hi] at hv
        obtain ⟨k, hk, hqk⟩ := ((peakAt_append hi).mp hq).1
        have hle : q - v ≤ t.worst := h.worst.2 ⟨k, i, q, v, hk, hqk, hv, rfl⟩
        exact absurd hsame (hle.trans_lt hdeeper).ne
  case isFalse hshallower =>
    refine ⟨hpeak, ⟨mem_drops_append h.worst.1, ?_⟩, h.top.append⟩
    intro d hd
    exact (drops_append h hd).trans (max_le le_rfl (not_lt.mp hshallower))

end Drawdown

end LatencyArb
