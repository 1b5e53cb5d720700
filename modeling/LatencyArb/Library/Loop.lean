import Mathlib

/-!
# While loops

A loop whose body is a partial step, run with fuel, and the states in which it takes a step.
-/

namespace LatencyArb

namespace Loop

variable {σ : Type} (body : σ → Option σ)

def run : Nat → σ → σ
  | 0, s => s
  | fuel + 1, s =>
    match body s with
    | none => s
    | some t => run fuel t

/-- The states in which the body is executed, in order. -/
def visits : Nat → σ → List σ
  | 0, _ => []
  | fuel + 1, s =>
    match body s with
    | none => []
    | some t => s :: visits fuel t

variable {body}

/-- Enough fuel for a measure that the body lowers, wherever the invariant holds, runs the loop to its
end. -/
theorem run_terminates_within {I : σ → Prop} (μ : σ → Nat)
    (hbody : ∀ s t, I s → body s = some t → I t ∧ μ t < μ s) {fuel : Nat} {s : σ} (hs : I s)
    (hfuel : μ s ≤ fuel) : body (run body fuel s) = none := by
  induction fuel generalizing s with
  | zero =>
    rw [run]
    cases hb : body s with
    | none => rfl
    | some t =>
      have hlt := (hbody s t hs hb).2
      omega
  | succ fuel ih =>
    rw [run]
    cases hb : body s with
    | none => exact hb
    | some t =>
      obtain ⟨ht, hlt⟩ := hbody s t hs hb
      exact ih ht (by omega)

/-- Enough fuel for a measure that the body lowers runs the loop to its end. -/
theorem run_terminates (μ : σ → Nat) (hbody : ∀ s t, body s = some t → μ t < μ s) {fuel : Nat} {s : σ}
    (hfuel : μ s ≤ fuel) : body (run body fuel s) = none :=
  run_terminates_within (I := fun _ => True) μ (fun s t _ h => ⟨trivial, hbody s t h⟩) trivial hfuel

/-- The invariant rule, for the final state and for every state visited: only the steps that the loop
takes must keep the invariant. -/
theorem run_invariant_along {I : σ → Prop} {s : σ} (hs : I s) {fuel : Nat}
    (hbody : ∀ t ∈ visits body fuel s, ∀ u, I t → body t = some u → I u) :
    I (run body fuel s) ∧ ∀ t ∈ visits body fuel s, I t := by
  induction fuel generalizing s with
  | zero => exact ⟨hs, by simp [visits]⟩
  | succ fuel ih =>
    rw [visits] at hbody ⊢
    rw [run]
    cases hb : body s with
    | none => exact ⟨hs, by simp⟩
    | some t =>
      rw [hb] at hbody
      have ht : I t := hbody s (List.mem_cons_self ..) t hs hb
      obtain ⟨hfinal, hall⟩ := ih ht (fun u hu => hbody u (List.mem_cons_of_mem _ hu))
      refine ⟨hfinal, ?_⟩
      intro u hu
      obtain rfl | hu := List.mem_cons.mp hu
      · exact hs
      · exact hall u hu

theorem run_invariant {I : σ → Prop} (hbody : ∀ s t, I s → body s = some t → I t) {s : σ} (hs : I s)
    (fuel : Nat) : I (run body fuel s) ∧ ∀ t ∈ visits body fuel s, I t :=
  run_invariant_along hs (fun t _ u => hbody t u)

/-- When the body adds one to a quantity in the states marked by `p`, and nothing in the others, the
loop adds the number of marked states visited. -/
theorem run_count {I : σ → Prop} (quantity : σ → Int) {p : σ → Bool}
    (hbody : ∀ s t, I s → body s = some t → I t ∧ quantity t = quantity s + (p s).toNat) {s : σ}
    (hs : I s) (fuel : Nat) :
    quantity (run body fuel s) = quantity s + (visits body fuel s).countP p := by
  induction fuel generalizing s with
  | zero => simp [run, visits]
  | succ fuel ih =>
    rw [run, visits]
    cases hb : body s with
    | none => simp
    | some t =>
      obtain ⟨ht, hstep⟩ := hbody s t hs hb
      dsimp only
      rw [ih ht, hstep, List.countP_cons]
      cases p s
      · simp
      · simp
        omega

/-- When the body appends to a log what each state emits, the log of the final state is the log of the
first followed by what the visited states emit. -/
theorem run_log {α : Type} {I : σ → Prop} (log emit : σ → List α)
    (hbody : ∀ s t, I s → body s = some t → I t ∧ log t = log s ++ emit s) {s : σ} (hs : I s)
    (fuel : Nat) : log (run body fuel s) = log s ++ (visits body fuel s).flatMap emit := by
  induction fuel generalizing s with
  | zero => simp [run, visits]
  | succ fuel ih =>
    rw [run, visits]
    cases hb : body s with
    | none => simp
    | some t =>
      obtain ⟨ht, hstep⟩ := hbody s t hs hb
      dsimp only
      rw [ih ht, hstep, List.flatMap_cons, List.append_assoc]

/-- A map of the states that commutes with the body, wherever the invariant holds, commutes with the
loop. -/
theorem run_map {τ : Type} {body' : τ → Option τ} {I : σ → Prop} (f : σ → τ)
    (hinv : ∀ s t, I s → body s = some t → I t)
    (hbody : ∀ s, I s → body' (f s) = (body s).map f) {s : σ} (hs : I s) (fuel : Nat) :
    run body' fuel (f s) = f (run body fuel s) := by
  induction fuel generalizing s with
  | zero => rfl
  | succ fuel ih =>
    rw [run, run, hbody s hs]
    cases hb : body s with
    | none => rfl
    | some t => exact ih (hinv s t hs hb)

/-- Two loops that a map of the states relates as long as `P` holds. Either it relates them to the end, or
a state without `P` is visited and they part for good. -/
theorem run_map_until {τ : Type} {body' : τ → Option τ} {P : σ → Prop} {Q : σ → τ → Prop} (f : σ → τ)
    (hend : ∀ s, body s = none → body' (f s) = none)
    (hstep : ∀ s t, P s → body s = some t → body' (f s) = some (f t))
    (hpart : ∀ s t, ¬P s → body s = some t → ∃ t', body' (f s) = some t' ∧ Q t t')
    (hleft : ∀ s t u, Q s u → body s = some t → Q t u)
    (hright : ∀ s u v, Q s u → body' u = some v → Q s v) (fuel : Nat) (s : σ) :
    ((∀ t ∈ visits body fuel s, P t) ∧ run body' fuel (f s) = f (run body fuel s)) ∨
      ((∃ t ∈ visits body fuel s, ¬P t) ∧ Q (run body fuel s) (run body' fuel (f s))) := by
  have hparted : ∀ t u, Q t u → ∀ n, Q (run body n t) (run body' n u) := by
    intro t u hq n
    have hrun : Q (run body n t) u :=
      (run_invariant (I := fun t => Q t u) (fun t v h hv => hleft t v u h hv) hq n).1
    exact (run_invariant (I := fun u => Q (run body n t) u) (fun u v h hv => hright _ u v h hv) hrun n).1
  induction fuel generalizing s with
  | zero => exact .inl ⟨by simp [visits], rfl⟩
  | succ fuel ih =>
    rw [visits, run, run]
    cases hb : body s with
    | none =>
      rw [hend s hb]
      exact .inl ⟨by simp, rfl⟩
    | some t =>
      by_cases hs : P s
      · rw [hstep s t hs hb]
        obtain ⟨hall, hrun⟩ | ⟨⟨u, hu, hno⟩, hq⟩ := ih t
        · exact .inl ⟨List.forall_mem_cons.mpr ⟨hs, hall⟩, hrun⟩
        · exact .inr ⟨⟨u, List.mem_cons_of_mem _ hu, hno⟩, hq⟩
      · obtain ⟨t', hb', hq⟩ := hpart s t hs hb
        rw [hb']
        exact .inr ⟨⟨s, List.mem_cons_self .., hs⟩, hparted t t' hq fuel⟩

end Loop

end LatencyArb
