import Mathlib

/-!
# Processes that read events in order of time

Events that carry a time are handled one by one, and what the handling of an event adds to a log is
stamped with the time of the event. Two recordings that hold the same events up to some time then give
logs that agree up to that time, whatever the rest of the recordings is.
-/

namespace LatencyArb

namespace Online

section Sorted

variable {α : Type} {p : α → Bool}

/-- In a list in order, what comes before a bound is a front of the list. -/
lemma filter_append_rest {r : α → α → Prop} (hdown : ∀ a b, r a b → p b = true → p a = true) {l : List α}
    (hl : l.Pairwise r) : l.filter p ++ l.filter (fun a => !p a) = l := by
  induction l with
  | nil => rfl
  | cons a l ih =>
    have hrest := ih hl.tail
    cases ha : p a with
    | true => rw [List.filter_cons_of_pos ha, List.filter_cons_of_neg (by simp [ha]), List.cons_append, hrest]
    | false =>
      have hnone : l.filter p = [] := by
        rw [List.filter_eq_nil_iff]
        intro b hb hpb
        have hpa := hdown a b (List.rel_of_pairwise_cons hl hb) hpb
        rw [ha] at hpa
        cases hpa
      rw [hnone, List.nil_append] at hrest
      rw [List.filter_cons_of_neg (by simp [ha]), hnone, List.nil_append, List.filter_cons_of_pos (by simp [ha]),
        hrest]

/-- Choosing from two lists in order and merging them can be done in either order. -/
lemma filter_merge {le : α → α → Bool} (htrans : ∀ a b c, le a b = true → le b c = true → le a c = true)
    {xs ys : List α} (hxs : xs.Pairwise (fun a b => le a b = true)) (hys : ys.Pairwise (fun a b => le a b = true)) :
    (xs.merge ys le).filter p = (xs.filter p).merge (ys.filter p) le := by
  induction xs generalizing ys with
  | nil => simp
  | cons x xs ih =>
    induction ys with
    | nil => simp
    | cons y ys ih' =>
      rw [List.cons_merge_cons]
      by_cases hle : le x y = true
      · rw [if_pos hle, List.filter_cons, ih hxs.tail hys]
        cases hx : p x with
        | false => rw [if_neg Bool.false_ne_true, List.filter_cons_of_neg (a := x) (by simp [hx])]
        | true =>
          have hfirst : ∀ z ∈ ((y :: ys).filter p).head?, le x z = true := by
            intro z hz
            have hmem := (List.mem_filter.mp (List.mem_of_mem_head? hz)).1
            obtain rfl | hmem := List.mem_cons.mp hmem
            · exact hle
            · exact htrans x y z hle (List.rel_of_pairwise_cons hys hmem)
          rw [if_pos rfl, List.filter_cons_of_pos (a := x) hx]
          cases hzs : (y :: ys).filter p with
          | nil => simp
          | cons z zs =>
            rw [hzs] at hfirst
            rw [List.cons_merge_cons, if_pos (hfirst z rfl)]
      · rw [if_neg hle, List.filter_cons, ih' hys.tail]
        cases hy : p y with
        | false => rw [if_neg Bool.false_ne_true, List.filter_cons_of_neg (a := y) (by simp [hy])]
        | true =>
          have hfirst : ∀ z ∈ ((x :: xs).filter p).head?, ¬le z y = true := by
            intro z hz hzy
            have hmem := (List.mem_filter.mp (List.mem_of_mem_head? hz)).1
            obtain rfl | hmem := List.mem_cons.mp hmem
            · exact hle hzy
            · exact hle (htrans x z y (List.rel_of_pairwise_cons hxs hmem) hzy)
          rw [if_pos rfl, List.filter_cons_of_pos (a := y) hy]
          cases hzs : (x :: xs).filter p with
          | nil => simp
          | cons z zs =>
            rw [hzs] at hfirst
            rw [List.cons_merge_cons, if_neg (hfirst z rfl)]

end Sorted

section Runs

variable {σ ε τ : Type} {step : σ → ε → σ} {time : ε → ℤ} (log : σ → List τ) (stamp : τ → ℤ)

/-- The log only grows, by entries of the times of the events. -/
lemma log_foldl (hstep : ∀ s e, ∃ new, log (step s e) = log s ++ new ∧ ∀ x ∈ new, stamp x = time e)
    (P : ℤ → Prop) (es : List ε) (hes : ∀ e ∈ es, P (time e)) (s : σ) :
    ∃ new, log (es.foldl step s) = log s ++ new ∧ ∀ x ∈ new, P (stamp x) := by
  induction es generalizing s with
  | nil => exact ⟨[], (List.append_nil _).symm, by simp⟩
  | cons e es ih =>
    obtain ⟨new, hlog, hnew⟩ := hstep s e
    obtain ⟨later, hlater, hstamps⟩ := ih (fun e' he' => hes e' (List.mem_cons_of_mem e he')) (step s e)
    refine ⟨new ++ later, ?_, ?_⟩
    · rw [List.foldl_cons, hlater, hlog, List.append_assoc]
    · intro x hx
      obtain hx | hx := List.mem_append.mp hx
      · rw [hnew x hx]
        exact hes e List.mem_cons_self
      · exact hstamps x hx

/-- Two recordings in order of time that hold the same events up to `T` are handled alike up to `T`. -/
theorem logs_agree (T : ℤ)
    (hstep : ∀ s e, ∃ new, log (step s e) = log s ++ new ∧ ∀ x ∈ new, stamp x = time e) {es es' : List ε}
    (hes : es.Pairwise (fun a b => time a ≤ time b)) (hes' : es'.Pairwise (fun a b => time a ≤ time b))
    (hsame : es.filter (fun e => decide (time e ≤ T)) = es'.filter (fun e => decide (time e ≤ T))) (s : σ) :
    ∃ past rest rest', log (es.foldl step s) = log s ++ past ++ rest ∧
      log (es'.foldl step s) = log s ++ past ++ rest' ∧ (∀ x ∈ past, stamp x ≤ T) ∧
      ∀ x ∈ rest ++ rest', T < stamp x := by
  have hdown : ∀ a b : ε, time a ≤ time b → decide (time b ≤ T) = true → decide (time a ≤ T) = true :=
    fun a b hab hb => decide_eq_true (hab.trans (of_decide_eq_true hb))
  have hlate : ∀ l : List ε, ∀ e ∈ l.filter (fun e => !decide (time e ≤ T)), T < time e := by
    intro l e he
    simpa using (List.mem_filter.mp he).2
  have hearly : ∀ e ∈ es.filter (fun e => decide (time e ≤ T)), time e ≤ T := by
    intro e he
    exact of_decide_eq_true (List.mem_filter.mp he).2
  obtain ⟨past, hpast, hpasts⟩ := log_foldl log stamp hstep (· ≤ T) _ hearly s
  obtain ⟨rest, hrest, hrests⟩ := log_foldl log stamp hstep (T < ·) _ (hlate es)
    ((es.filter (fun e => decide (time e ≤ T))).foldl step s)
  obtain ⟨rest', hrest', hrests'⟩ := log_foldl log stamp hstep (T < ·) _ (hlate es')
    ((es.filter (fun e => decide (time e ≤ T))).foldl step s)
  refine ⟨past, rest, rest', ?_, ?_, hpasts, ?_⟩
  · rw [← hpast, ← hrest, ← List.foldl_append, filter_append_rest hdown hes]
  · rw [← hpast, ← hrest', hsame, ← List.foldl_append, filter_append_rest hdown hes']
  · intro x hx
    obtain hx | hx := List.mem_append.mp hx
    · exact hrests x hx
    · exact hrests' x hx

end Runs

end Online

end LatencyArb
