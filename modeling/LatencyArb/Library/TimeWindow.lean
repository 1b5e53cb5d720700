import Mathlib

/-!
# Windows of recent items

A consumer records every item it sees, keeps a window of the recent ones and drops expired items
from the front of the window. Items expire oldest first, but an item may already be expired when
it is seen, and then it never enters the window.
-/

namespace LatencyArb

variable {T : Type} {expired expired' : T → Bool} {window seen : List T} {item : T}

/-- No item of the list expires before an earlier one. -/
def OldestFirst (expired : T → Bool) (seen : List T) : Prop :=
  seen.Pairwise (fun a b => expired b = true → expired a = true)

lemma OldestFirst.all_expired (h : OldestFirst expired (seen ++ [item]))
    (hitem : expired item = true) : ∀ t ∈ seen ++ [item], expired t = true := by
  intro t ht
  obtain ht | ht := List.mem_append.mp ht
  · exact (List.pairwise_append.mp h).2.2 t ht item (List.mem_singleton_self item) hitem
  · rw [List.mem_singleton.mp ht]
    exact hitem

/-- The newest item of the window is the newest one seen, unless every item seen has expired. -/
structure Tracks (expired : T → Bool) (window seen : List T) : Prop where
  subset : window ⊆ seen
  newest : window.getLast? = seen.getLast? ∨ ∀ t ∈ seen, expired t = true

lemma Tracks.nil : Tracks expired ([] : List T) [] := ⟨fun _ h => h, .inl rfl⟩

lemma Tracks.mono (h : Tracks expired window seen)
    (hmono : ∀ t ∈ seen, expired t = true → expired' t = true) : Tracks expired' window seen := by
  refine ⟨h.subset, ?_⟩
  obtain heq | hall := h.newest
  · exact .inl heq
  · exact .inr (fun t ht => hmono t ht (hall t ht))

lemma Tracks.keep (h : Tracks expired window seen) (item : T) :
    Tracks expired (window ++ [item]) (seen ++ [item]) := by
  refine ⟨?_, .inl (by rw [List.getLast?_concat, List.getLast?_concat])⟩
  intro t ht
  obtain ht | ht := List.mem_append.mp ht
  · exact List.mem_append_left _ (h.subset ht)
  · exact List.mem_append_right _ ht

lemma Tracks.skip (h : Tracks expired window seen) (hseen : OldestFirst expired (seen ++ [item]))
    (hitem : expired item = true) : Tracks expired window (seen ++ [item]) :=
  ⟨List.subset_append_of_subset_left _ h.subset, .inr (hseen.all_expired hitem)⟩

lemma dropWhile_of_all_expired (h : ∀ t ∈ window, expired t = true) :
    window.dropWhile expired = [] := by
  rw [List.dropWhile_eq_nil_iff]
  exact h

lemma getLast?_dropWhile_of_fresh (h : window.getLast? = some item) (hitem : expired item = false) :
    (window.dropWhile expired).getLast? = some item := by
  obtain ⟨older, rfl⟩ : ∃ older, window = older ++ [item] :=
    ⟨window.dropLast, (List.dropLast_append_getLast? item h).symm⟩
  rw [List.dropWhile_append]
  split
  · rw [List.dropWhile_cons_of_neg (by simp [hitem])]
    rfl
  · rw [List.getLast?_concat]

/-- After the expired items are dropped from the front of a window that tracks `seen`, its newest
item is the newest item seen if that one has not expired, and else it is empty. -/
theorem Tracks.getLast?_dropWhile (h : Tracks expired window seen)
    (hseen : OldestFirst expired seen) :
    (window.dropWhile expired).getLast? = seen.getLast?.filter (fun t => !expired t) := by
  have hempty : (∀ t ∈ seen, expired t = true) → (window.dropWhile expired).getLast? = none := by
    intro hall
    rw [dropWhile_of_all_expired (fun t ht => hall t (h.subset ht))]
    rfl
  induction seen using List.reverseRecOn with
  | nil =>
    rw [hempty (by simp)]
    rfl
  | append_singleton older item _ =>
    rw [List.getLast?_concat, Option.filter_some]
    by_cases hitem : expired item = true
    · rw [hempty (hseen.all_expired hitem), hitem]
      rfl
    · have hfresh : expired item = false := by simpa using hitem
      rw [hfresh]
      apply getLast?_dropWhile_of_fresh _ hfresh
      obtain heq | hall := h.newest
      · rw [heq, List.getLast?_concat]
      · exact absurd (hall item (List.mem_append_right _ (List.mem_singleton_self item))) hitem

lemma Tracks.dropWhile (h : Tracks expired window seen) (hseen : OldestFirst expired seen) :
    Tracks expired (window.dropWhile expired) seen := by
  refine ⟨fun t ht => h.subset ((List.dropWhile_sublist _).subset ht), ?_⟩
  rw [h.getLast?_dropWhile hseen]
  induction seen using List.reverseRecOn with
  | nil => exact .inl rfl
  | append_singleton older item _ =>
    by_cases hitem : expired item = true
    · exact .inr (hseen.all_expired hitem)
    · left
      rw [List.getLast?_concat, Option.filter_some, if_pos (by simpa using hitem)]

/-! ## Items that expire in any order -/

/-- Expired items that were dropped before the later items came would be dropped now as well. -/
lemma dropWhile_dropWhile_append (h : ∀ t ∈ seen, expired t = true → expired' t = true)
    (later : List T) :
    (seen.dropWhile expired ++ later).dropWhile expired' = (seen ++ later).dropWhile expired' := by
  induction seen with
  | nil => rfl
  | cons item rest ih =>
    by_cases hitem : expired item = true
    · have hnow := h item List.mem_cons_self hitem
      rw [List.dropWhile_cons_of_pos hitem, List.cons_append, List.dropWhile_cons_of_pos hnow]
      exact ih (fun t ht => h t (List.mem_cons_of_mem item ht))
    · rw [List.dropWhile_cons_of_neg hitem]

/-- What is dropped from the front was not to be found. -/
lemma find?_dropWhile_of_expired {wanted : T → Bool}
    (h : ∀ t ∈ seen, expired t = true → wanted t = false) :
    (seen.dropWhile expired).find? wanted = seen.find? wanted := by
  induction seen with
  | nil => rfl
  | cons item rest ih =>
    by_cases hitem : expired item = true
    · rw [List.dropWhile_cons_of_pos hitem, List.find?_cons_of_neg (by simp [h item List.mem_cons_self hitem])]
      exact ih (fun t ht => h t (List.mem_cons_of_mem item ht))
    · rw [List.dropWhile_cons_of_neg hitem]

lemma mem_dropWhile_of_fresh (hmem : item ∈ seen) (hitem : expired item = false) :
    item ∈ seen.dropWhile expired := by
  rw [← List.takeWhile_append_dropWhile (p := expired) (l := seen)] at hmem
  obtain htaken | hleft := List.mem_append.mp hmem
  · rw [List.mem_takeWhile_imp htaken] at hitem
    cases hitem
  · exact hleft

lemma dropWhile_concat_of_fresh (hitem : expired item = false) :
    (seen ++ [item]).dropWhile expired = seen.dropWhile expired ++ [item] := by
  have hkeep : [item].dropWhile expired = [item] := List.dropWhile_cons_of_neg (by simp [hitem])
  rw [List.dropWhile_append, hkeep]
  split
  · rename_i hnil
    rw [List.isEmpty_iff.mp hnil, List.nil_append]
  · rfl

/-- The newest item survives as long as any item is left in front of it. -/
theorem getLast?_dropWhile_eq_some_iff :
    (seen.dropWhile expired).getLast? = some item ↔
      seen.getLast? = some item ∧ ∃ t ∈ seen, expired t = false := by
  have hnil : seen.dropWhile expired = [] ↔ ∀ t ∈ seen, expired t = true := List.dropWhile_eq_nil_iff
  have hsplit : seen.takeWhile expired ++ seen.dropWhile expired = seen := List.takeWhile_append_dropWhile
  by_cases hall : ∀ t ∈ seen, expired t = true
  · rw [hnil.mpr hall]
    constructor
    · intro h
      cases h
    · rintro ⟨-, t, ht, hfresh⟩
      rw [hall t ht] at hfresh
      cases hfresh
  · have hlast : (seen.dropWhile expired).getLast? = seen.getLast? := by
      conv_rhs => rw [← hsplit]
      rw [List.getLast?_append_of_ne_nil _ (fun h => hall (hnil.mp h))]
    have hsome : ∃ t ∈ seen, expired t = false := by
      simpa using hall
    rw [hlast, and_iff_left hsome]

end LatencyArb
