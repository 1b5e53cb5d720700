import Mathlib

/-!
# Searching a text for a pattern

`findSub` is `std::string::find` from the beginning of the text.
-/

namespace LatencyArb

variable {α : Type} [DecidableEq α]

/-- The first position at which the pattern stands. -/
def findSub (pattern : List α) : List α → Option Nat
  | [] => if pattern = [] then some 0 else none
  | x :: xs =>
    if pattern.isPrefixOf (x :: xs) then some 0 else (findSub pattern xs).map (· + 1)

variable {pattern text : List α}

lemma findSub_start (h : pattern <+: text) : findSub pattern text = some 0 := by
  cases text with
  | nil => simp [findSub, List.prefix_nil.mp h]
  | cons x xs => simp [findSub, h]

lemma findSub_cons {x : α} (h : ¬pattern <+: x :: text) :
    findSub pattern (x :: text) = (findSub pattern text).map (· + 1) := by
  simp [findSub, h]

/-- A found pattern stands where it is found, and nowhere before. -/
lemma findSub_spec {i : Nat} (h : findSub pattern text = some i) :
    pattern <+: text.drop i ∧ i + pattern.length ≤ text.length ∧
      ∀ j < i, ¬pattern <+: text.drop j := by
  induction text generalizing i with
  | nil =>
    by_cases hp : pattern = []
    · simp only [findSub, hp, if_true, Option.some.injEq] at h
      simp [← h, hp]
    · simp [findSub, hp] at h
  | cons x xs ih =>
    by_cases hp : pattern <+: x :: xs
    · rw [findSub_start hp, Option.some.injEq] at h
      subst h
      exact ⟨hp, by simpa using hp.length_le, by simp⟩
    · rw [findSub_cons hp] at h
      obtain ⟨k, hk, rfl⟩ := Option.map_eq_some_iff.mp h
      obtain ⟨hstart, hle, hfirst⟩ := ih hk
      refine ⟨hstart, by simp only [List.length_cons]; omega, ?_⟩
      intro j hj
      cases j with
      | zero => exact hp
      | succ j => exact hfirst j (by omega)

/-- Where the pattern does not stand at the first positions the search may skip them. -/
lemma findSub_drop {k : Nat} (h : ∀ j < k, ¬pattern <+: text.drop j) (hk : k ≤ text.length) :
    findSub pattern text = (findSub pattern (text.drop k)).map (· + k) := by
  induction k generalizing text with
  | zero => simp
  | succ k ih =>
    cases text with
    | nil => simp at hk
    | cons x xs =>
      rw [findSub_cons (h 0 (Nat.succ_pos k)), List.drop_succ_cons,
        ih (fun j hj => h (j + 1) (Nat.succ_lt_succ hj)) (Nat.le_of_succ_le_succ hk), Option.map_map]
      rfl

lemma findSub_eq_some {i : Nat} (hi : pattern <+: text.drop i) (hle : i ≤ text.length)
    (hfirst : ∀ j < i, ¬pattern <+: text.drop j) : findSub pattern text = some i := by
  rw [findSub_drop hfirst hle, findSub_start hi]
  simp

lemma not_prefix_of_findSub_none (h : findSub pattern text = none) (j : Nat) :
    ¬pattern <+: text.drop j := by
  intro hj
  induction text generalizing j with
  | nil =>
    rw [List.drop_nil, List.prefix_nil] at hj
    simp [findSub, hj] at h
  | cons x xs ih =>
    by_cases hp : pattern <+: x :: xs
    · simp [findSub_start hp] at h
    · rw [findSub_cons hp, Option.map_eq_none_iff] at h
      cases j with
      | zero => exact hp hj
      | succ j => exact ih h j hj

/-- Where the pattern stands somewhere it is found there or before. -/
lemma exists_findSub_le {j : Nat} (h : pattern <+: text.drop j) : ∃ i ≤ j, findSub pattern text = some i := by
  match hf : findSub pattern text with
  | none => exact absurd h (not_prefix_of_findSub_none hf j)
  | some i => exact ⟨i, not_lt.mp (fun hlt => (findSub_spec hf).2.2 j hlt h), rfl⟩

omit [DecidableEq α] in
/-- A pattern that fits into the text is not made a prefix by what follows. -/
lemma prefix_of_append {later : List α} {j : Nat} (h : pattern <+: (text ++ later).drop j)
    (hfits : j + pattern.length ≤ text.length) : pattern <+: text.drop j := by
  rw [List.drop_append_of_le_length (by omega)] at h
  exact List.prefix_of_prefix_length_le h (List.prefix_append _ _) (by rw [List.length_drop]; omega)

/-- What is found stays the first occurrence, whatever follows. -/
lemma findSub_append {i : Nat} (h : findSub pattern text = some i) (later : List α) :
    findSub pattern (text ++ later) = some i := by
  obtain ⟨hstart, hle, hfirst⟩ := findSub_spec h
  apply findSub_eq_some
  · rw [List.drop_append_of_le_length (by omega)]
    exact hstart.trans (List.prefix_append _ _)
  · rw [List.length_append]
    omega
  · intro j hj hp
    exact hfirst j hj (prefix_of_append hp (by omega))

/-- What is found only with what follows reaches into it. -/
lemma length_lt_of_findSub_append {later : List α} {i : Nat} (hnone : findSub pattern text = none)
    (h : findSub pattern (text ++ later) = some i) : text.length < i + pattern.length := by
  by_contra hfits
  exact not_prefix_of_findSub_none hnone i (prefix_of_append (findSub_spec h).1 (by omega))

/-- What is found within the text does not need what follows. -/
lemma findSub_of_append {later : List α} {i : Nat} (h : findSub pattern (text ++ later) = some i)
    (hfits : i + pattern.length ≤ text.length) : findSub pattern text = some i := by
  match hf : findSub pattern text with
  | none =>
    have hlt := length_lt_of_findSub_append hf h
    omega
  | some j =>
    rw [findSub_append hf later] at h
    exact h

omit [DecidableEq α] in
/-- An item under the pattern is an item of the pattern. -/
lemma mem_of_prefix_drop {x : α} {i j : Nat} (h : pattern <+: text.drop j) (hx : text[i]? = some x)
    (hle : j ≤ i) (hlt : i < j + pattern.length) : x ∈ pattern := by
  obtain ⟨rest, hrest⟩ := h
  have hat : (text.drop j)[i - j]? = some x := by
    rw [List.getElem?_drop, Nat.add_sub_cancel' hle]
    exact hx
  rw [← hrest, List.getElem?_append_left (by omega)] at hat
  exact List.mem_of_getElem? hat

/-- The search for a single item. -/
lemma findSub_singleton_none {x : α} (h : x ∉ text) : findSub [x] text = none := by
  match hf : findSub [x] text with
  | none => rfl
  | some i =>
    obtain ⟨⟨rest, hrest⟩, -, -⟩ := findSub_spec hf
    have hmem : x ∈ text.drop i := by
      rw [← hrest]
      exact List.mem_cons_self
    exact absurd (List.mem_of_mem_drop hmem) h

/-- Nothing before the first occurrence of an item is that item. -/
lemma notMem_take_of_findSub {x : α} {i : Nat} (h : findSub [x] text = some i) : x ∉ text.take i := by
  intro hmem
  obtain ⟨j, hj, hx⟩ := List.getElem_of_mem hmem
  rw [List.length_take] at hj
  rw [List.getElem_take] at hx
  refine (findSub_spec h).2.2 j (by omega) ?_
  rw [List.drop_eq_getElem_cons (by omega), hx]
  exact ⟨_, rfl⟩

lemma findSub_singleton_append {x : α} (h : x ∉ text) (rest : List α) :
    findSub [x] (text ++ x :: rest) = some text.length := by
  apply findSub_eq_some
  · rw [List.drop_left]
    exact List.prefix_append [x] rest
  · simp
  · intro j hj hat
    have hin : [x] <+: text.drop j := prefix_of_append hat (by simpa using hj)
    exact h (List.mem_of_mem_drop (hin.subset (List.mem_singleton_self x)))

lemma findSub_singleton_some {x : α} (h : x ∈ text) : ∃ i, findSub [x] text = some i := by
  match hf : findSub [x] text with
  | some i => exact ⟨i, rfl⟩
  | none =>
    obtain ⟨i, hi, hx⟩ := List.getElem_of_mem h
    refine absurd ?_ (not_prefix_of_findSub_none hf i)
    rw [List.drop_eq_getElem_cons hi, hx]
    exact ⟨_, rfl⟩

end LatencyArb
