import Mathlib

/-!
# A slot for one item

A slot is filled while it is empty, and emptied by taking its item or by clearing it. What is taken is
what was put last, and nothing has happened to the slot in between.
-/

namespace LatencyArb

inductive SlotEvent (α : Type) where
  | put (x : α)
  | take (x : α)
  | clear
  | idle

namespace Slot

variable {α : Type}

inductive Step : Option α → SlotEvent α → Option α → Prop
  | put (x : α) : Step none (.put x) (some x)
  | take (x : α) : Step (some x) (.take x) none
  | clear (s : Option α) : Step s .clear none
  | idle (s : Option α) : Step s .idle s

inductive Run : Option α → List (SlotEvent α) → Option α → Prop
  | nil (s : Option α) : Run s [] s
  | cons {s t u : Option α} {event : SlotEvent α} {events : List (SlotEvent α)}
      (step : Step s event t) (rest : Run t events u) : Run s (event :: events) u

/-- The item put at `i` is in the slot before the event at `n`. -/
structure InFlight (events : List (SlotEvent α)) (n i : Nat) : Prop where
  put : ∃ x, events[i]? = some (.put x)
  before : i < n
  kept : ∀ k, i < k → k < n → events[k]? ≠ some .clear ∧ ∀ x, events[k]? ≠ some (.take x)

/-- The last item put before the event at `n` is that put at `i`. -/
structure LastPut (events : List (SlotEvent α)) (n i : Nat) : Prop where
  put : ∃ x, events[i]? = some (.put x)
  before : i < n
  last : ∀ k, i < k → k < n → ∀ x, events[k]? ≠ some (.put x)

variable {events : List (SlotEvent α)} {s t : Option α}

lemma LastPut.unique {n i i' : Nat} (h : LastPut events n i) (h' : LastPut events n i') : i = i' := by
  obtain ⟨x, hx⟩ := h.put
  obtain ⟨x', hx'⟩ := h'.put
  rcases lt_trichotomy i i' with hlt | heq | hlt
  · exact absurd hx' (h.last i' hlt h'.before x')
  · exact heq
  · exact absurd hx (h'.last i hlt h.before x)

/-- What is in flight is decided by the events before. -/
lemma inFlight_take {n i : Nat} :
    InFlight (events.take n) n i ↔ InFlight events n i := by
  have hfrom : ∀ k < n, (events.take n)[k]? = events[k]? := fun k hk => List.getElem?_take_of_lt hk
  constructor
  · intro h
    have hbefore := h.before
    refine ⟨by rw [← hfrom i hbefore]; exact h.put, hbefore, ?_⟩
    intro k hik hkn
    rw [← hfrom k hkn]
    exact h.kept k hik hkn
  · intro h
    have hbefore := h.before
    refine ⟨by rw [hfrom i hbefore]; exact h.put, hbefore, ?_⟩
    intro k hik hkn
    rw [hfrom k hkn]
    exact h.kept k hik hkn

/-- A full slot that nothing empties sees idle events only. -/
lemma Run.idle_of_full {x : α} {n : Nat} (h : Run (some x) events s)
    (hkept : ∀ k < n, events[k]? ≠ some .clear ∧ ∀ y, events[k]? ≠ some (.take y)) {k : Nat}
    (hk : k < n) (hlt : k < events.length) : events[k]? = some .idle := by
  induction events generalizing n k with
  | nil => cases hlt
  | cons event events ih =>
    cases h with
    | cons step rest =>
      have hzero := hkept 0 (by omega)
      cases step with
      | take => exact absurd rfl (hzero.2 x)
      | clear => exact absurd rfl hzero.1
      | idle =>
        cases k with
        | zero => rfl
        | succ k =>
          have hlater : ∀ m < n - 1, events[m]? ≠ some .clear ∧ ∀ y, events[m]? ≠ some (.take y) :=
            fun m hm => hkept (m + 1) (by omega)
          exact ih rest hlater (by omega) (by simpa using hlt)

lemma Run.split (h : Run s events t) (n : Nat) : ∃ u, Run s (events.take n) u ∧ Run u (events.drop n) t := by
  induction h generalizing n with
  | nil s => exact ⟨s, by simpa using .nil s, by simpa using .nil s⟩
  | cons step rest ih =>
    cases n with
    | zero => exact ⟨_, .nil _, .cons step rest⟩
    | succ n =>
      obtain ⟨u, hfront, hback⟩ := ih n
      exact ⟨u, .cons step hfront, hback⟩

/-- The step of a run at one of its events. -/
lemma Run.at (h : Run s events t) {n : Nat} {event : SlotEvent α} (hn : events[n]? = some event) :
    ∃ u v, Run s (events.take n) u ∧ Step u event v ∧ Run v (events.drop (n + 1)) t := by
  obtain ⟨u, hfront, hback⟩ := h.split n
  obtain ⟨hlt, hat⟩ := List.getElem?_eq_some_iff.mp hn
  rw [List.drop_eq_getElem_cons hlt, hat] at hback
  cases hback with
  | cons step rest => exact ⟨u, _, hfront, step, rest⟩

/-- An item in the slot has been put into it, and nothing has happened to the slot since. -/
lemma Run.exists_inFlight {x : α} (h : Run none events (some x)) :
    ∃ i, events[i]? = some (.put x) ∧ InFlight events events.length i := by
  induction events using List.reverseRecOn generalizing x with
  | nil => cases h
  | append_singleton events event ih =>
    obtain ⟨u, v, hfront, step, rest⟩ := h.at (List.getElem?_concat_length)
    rw [List.take_left] at hfront
    rw [List.drop_eq_nil_of_le (by simp)] at rest
    cases rest
    cases step with
    | put =>
      refine ⟨events.length, List.getElem?_concat_length, ⟨x, List.getElem?_concat_length⟩, by simp, ?_⟩
      intro k hk hlt
      rw [List.length_append, List.length_singleton] at hlt
      omega
    | idle =>
      obtain ⟨i, hi, hflight⟩ := ih hfront
      have hbefore := hflight.before
      refine ⟨i, ?_, ⟨x, ?_⟩, ?_, ?_⟩
      · rw [List.getElem?_append_left hbefore, hi]
      · rw [List.getElem?_append_left hbefore, hi]
      · rw [List.length_append]
        omega
      · intro k hk hlt
        rw [List.length_append, List.length_singleton] at hlt
        by_cases hlast : k = events.length
        · rw [hlast, List.getElem?_concat_length]
          simp
        · rw [List.getElem?_append_left (by omega)]
          exact hflight.kept k hk (by omega)

/-- Between the put of an item that is in flight and now the slot sees idle events only. -/
lemma InFlight.idle (h : Run none events s) {n i : Nat} (hflight : InFlight events n i) {k : Nat}
    (hik : i < k) (hkn : k < n) (hlt : k < events.length) : events[k]? = some .idle := by
  obtain ⟨x, hx⟩ := hflight.put
  obtain ⟨u, v, -, step, rest⟩ := h.at hx
  cases step with
  | put =>
    have hkept : ∀ m < n - (i + 1), (events.drop (i + 1))[m]? ≠ some .clear ∧
        ∀ y, (events.drop (i + 1))[m]? ≠ some (.take y) := by
      intro m hm
      rw [List.getElem?_drop]
      exact hflight.kept (i + 1 + m) (by omega) (by omega)
    have hidle := rest.idle_of_full hkept (by omega : k - (i + 1) < n - (i + 1))
      (by rw [List.length_drop]; omega)
    rw [List.getElem?_drop] at hidle
    rwa [Nat.add_sub_cancel' hik] at hidle

lemma Run.eq_of_idle (h : Run s events t) (hidle : ∀ k < events.length, events[k]? = some .idle) : t = s := by
  induction h with
  | nil s => rfl
  | cons step rest ih =>
    cases step with
    | idle => exact ih (fun k hk => hidle (k + 1) (by simpa using hk))
    | _ => simpa using hidle 0 (by simp)

/-- The item in flight is in the slot. -/
lemma InFlight.full {n i : Nat} {x : α} (h : Run none (events.take n) s) (hflight : InFlight events n i)
    (hn : n ≤ events.length) (hx : events[i]? = some (.put x)) : s = some x := by
  have hlength := List.length_take_of_le hn
  have hbefore := hflight.before
  rw [← inFlight_take] at hflight
  rw [← List.getElem?_take_of_lt hbefore] at hx
  generalize events.take n = front at *
  obtain ⟨u, v, -, step, rest⟩ := h.at hx
  cases step with
  | put =>
    apply rest.eq_of_idle
    intro k hk
    rw [List.length_drop] at hk
    rw [List.getElem?_drop]
    exact hflight.idle h (by omega) (by omega) (by omega)

lemma InFlight.lastPut (h : Run none events s) {n i : Nat} (hflight : InFlight events n i) :
    LastPut events n i := by
  refine ⟨hflight.put, hflight.before, ?_⟩
  intro k hik hkn x hput
  obtain ⟨hlt, -⟩ := List.getElem?_eq_some_iff.mp hput
  rw [hflight.idle h hik hkn hlt] at hput
  cases hput

/-- At most one item is in flight. -/
theorem inFlight_unique (h : Run none events s) {n i i' : Nat} (hi : InFlight events n i)
    (hi' : InFlight events n i') : i = i' := (hi.lastPut h).unique (hi'.lastPut h)

/-- What is taken is the item in flight. -/
theorem take_inFlight (h : Run none events s) {n : Nat} {x : α} (hn : events[n]? = some (.take x)) :
    ∃ i, events[i]? = some (.put x) ∧ InFlight events n i := by
  obtain ⟨u, v, hfront, step, -⟩ := h.at hn
  obtain ⟨hlt, -⟩ := List.getElem?_eq_some_iff.mp hn
  cases step with
  | take =>
    obtain ⟨i, hi, hflight⟩ := hfront.exists_inFlight
    rw [List.length_take_of_le hlt.le, inFlight_take] at hflight
    rw [List.getElem?_take_of_lt hflight.before] at hi
    exact ⟨i, hi, hflight⟩

/-- No item is taken twice. -/
theorem taken_once (h : Run none events s) {i j j' : Nat} (hj : LastPut events j i)
    (hj' : LastPut events j' i) (htake : ∃ x, events[j]? = some (.take x))
    (htake' : ∃ x, events[j']? = some (.take x)) : j = j' := by
  have hnot : ∀ {j j' : Nat}, LastPut events j i → LastPut events j' i →
      (∃ x, events[j]? = some (.take x)) → (∃ x, events[j']? = some (.take x)) → ¬j < j' := by
    rintro j j' hj hj' ⟨x, hx⟩ ⟨x', hx'⟩ hlt
    obtain ⟨i', -, hflight⟩ := take_inFlight h hx'
    obtain rfl := (hflight.lastPut h).unique hj'
    exact (hflight.kept j hj.before hlt).2 x hx
  have hforth := hnot hj hj' htake htake'
  have hback := hnot hj' hj htake' htake
  omega

end Slot

end LatencyArb
