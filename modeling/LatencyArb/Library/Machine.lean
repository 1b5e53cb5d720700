import Mathlib

/-!
# Machines, components and their runs

Two notions of program used throughout. A `Machine` takes guarded steps under labels, so
that a list of labels is an interleaving of its threads. A `Component` answers every call,
so that a list of calls is a history of one object.
-/

namespace LatencyArb

/-- A deterministic machine; `step s a` is `none` where the label `a` is not enabled. -/
structure Machine (σ α : Type) where
  init : σ
  step : σ → α → Option σ

namespace Machine

variable {σ α : Type} (M : Machine σ α)

def run (s : σ) (as : List α) : Option σ := as.foldlM M.step s

@[simp] lemma run_nil (s : σ) : M.run s [] = some s := rfl

@[simp] lemma run_cons (s : σ) (a : α) (as : List α) :
    M.run s (a :: as) = (M.step s a).bind (fun t => M.run t as) := by
  simp [run, List.foldlM_cons, bind]

lemma run_append (s : σ) (as bs : List α) :
    M.run s (as ++ bs) = (M.run s as).bind (fun t => M.run t bs) := by
  simp [run, List.foldlM_append, bind]

lemma run_trans {s t u : σ} {as bs : List α} (h : M.run s as = some t) (h' : M.run t bs = some u) :
    M.run s (as ++ bs) = some u := by
  rw [run_append, h, Option.bind_some, h']

lemma run_concat_eq_some {s u : σ} {as : List α} {a : α} :
    M.run s (as ++ [a]) = some u ↔ ∃ t, M.run s as = some t ∧ M.step t a = some u := by
  simp only [run_append, run_cons, run_nil, Option.bind_eq_some_iff]
  simp

/-- The invariant rule for the runs from a state. -/
lemma run_keeps {I : σ → Prop} (hstep : ∀ s a t, I s → M.step s a = some t → I t) {s t : σ}
    {as : List α} (hs : I s) (hrun : M.run s as = some t) : I t := by
  induction as generalizing s with
  | nil =>
    simp only [run_nil, Option.some.injEq] at hrun
    exact hrun ▸ hs
  | cons a as ih =>
    rw [run_cons] at hrun
    obtain ⟨u, hu, hrest⟩ := Option.bind_eq_some_iff.mp hrun
    exact ih (hstep s a u hs hu) hrest

/-- Where no step adds to the work that is left and a counted step takes one unit off it, so many counted
steps take off so many units, whatever steps stand between them. -/
lemma run_work_le {I : σ → Prop} {ok : α → Prop} {own : α → Bool} {work : σ → Nat}
    (hstep : ∀ s a t, I s → ok a → M.step s a = some t →
      I t ∧ work t ≤ work s - (if own a = true then 1 else 0))
    {s t : σ} {as : List α} (hs : I s) (hok : ∀ a ∈ as, ok a) (hrun : M.run s as = some t) :
    work t ≤ work s - as.countP own := by
  induction as generalizing s with
  | nil =>
    simp only [run_nil, Option.some.injEq] at hrun
    rw [← hrun]
    exact le_rfl
  | cons a as ih =>
    rw [run_cons] at hrun
    obtain ⟨u, hu, hrest⟩ := Option.bind_eq_some_iff.mp hrun
    obtain ⟨hnext, hone⟩ := hstep s a u hs (hok a List.mem_cons_self) hu
    have hlater := ih hnext (fun b hb => hok b (List.mem_cons_of_mem a hb)) hrest
    rw [List.countP_cons]
    omega

/-- Where every step lowers a rank, a run takes no more steps than the rank allows. -/
lemma run_rank_le {I : σ → Prop} {ok : α → Prop} {rank : σ → Nat}
    (hstep : ∀ s a t, I s → ok a → M.step s a = some t → I t ∧ rank t < rank s) {s t : σ} {as : List α} (hs : I s)
    (hok : ∀ a ∈ as, ok a) (hrun : M.run s as = some t) : I t ∧ as.length + rank t ≤ rank s := by
  induction as generalizing s with
  | nil =>
    simp only [run_nil, Option.some.injEq] at hrun
    obtain rfl := hrun
    exact ⟨hs, by simp⟩
  | cons a as ih =>
    rw [run_cons] at hrun
    obtain ⟨u, hu, hrest⟩ := Option.bind_eq_some_iff.mp hrun
    obtain ⟨hnext, hless⟩ := hstep s a u hs (hok a List.mem_cons_self) hu
    obtain ⟨hend, hlength⟩ := ih hnext (fun b hb => hok b (List.mem_cons_of_mem a hb)) hrest
    refine ⟨hend, ?_⟩
    rw [List.length_cons]
    omega

def Reachable (s : σ) : Prop := ∃ as, M.run M.init as = some s

/-- Every step of the interleaving `as` satisfies `P`. -/
def Always (as : List α) (P : σ → α → σ → Prop) : Prop :=
  ∀ pre a s t, pre ++ [a] <+: as → M.run M.init pre = some s → M.step s a = some t → P s a t

lemma Always.of_prefix {M : Machine σ α} {as bs : List α} {P : σ → α → σ → Prop}
    (h : M.Always bs P) (hp : as <+: bs) : M.Always as P :=
  fun pre a s t hpre hs ht => h pre a s t (hpre.trans hp) hs ht

lemma always_mem (as : List α) : M.Always as (fun _ a _ => a ∈ as) :=
  fun _ _ _ _ hpre _ _ => hpre.subset (List.mem_append_right _ (List.mem_singleton_self _))

/-- The invariant rule for runs whose steps all satisfy a condition. -/
theorem invariant_of_always {I : σ → Prop} {C : σ → α → σ → Prop} (h0 : I M.init)
    (hstep : ∀ s a t, M.Reachable s → I s → M.step s a = some t → C s a t → I t)
    {as : List α} (hC : M.Always as C) {t : σ} (hrun : M.run M.init as = some t) : I t := by
  induction as using List.reverseRecOn generalizing t with
  | nil => simp only [run_nil, Option.some.injEq] at hrun; exact hrun ▸ h0
  | append_singleton as a ih =>
    obtain ⟨s, hs, ht⟩ := M.run_concat_eq_some.mp hrun
    have hI := ih (hC.of_prefix (List.prefix_append as [a])) hs
    exact hstep s a t ⟨as, hs⟩ hI ht (hC as a s t List.prefix_rfl hs ht)

theorem invariant {I : σ → Prop} (h0 : I M.init)
    (hstep : ∀ s a t, M.Reachable s → I s → M.step s a = some t → I t) {t : σ}
    (ht : M.Reachable t) : I t := by
  obtain ⟨as, hrun⟩ := ht
  exact M.invariant_of_always (C := fun _ _ _ => True) h0
    (fun s a t hr hI hs _ => hstep s a t hr hI hs) (fun _ _ _ _ _ _ _ => trivial) hrun

theorem always_congr {P Q : σ → α → σ → Prop}
    (h : ∀ s a t, M.Reachable s → M.step s a = some t → (P s a t ↔ Q s a t)) (as : List α) :
    M.Always as P ↔ M.Always as Q := by
  constructor
  · intro hP pre a s t hpre hs ht
    exact (h s a t ⟨pre, hs⟩ ht).mp (hP pre a s t hpre hs ht)
  · intro hQ pre a s t hpre hs ht
    exact (h s a t ⟨pre, hs⟩ ht).mpr (hQ pre a s t hpre hs ht)

lemma always_concat {P : σ → α → σ → Prop} {as : List α} {a : α} :
    M.Always (as ++ [a]) P ↔
      M.Always as P ∧ ∀ s t, M.run M.init as = some s → M.step s a = some t → P s a t := by
  constructor
  · intro h
    refine ⟨h.of_prefix (List.prefix_append as [a]), ?_⟩
    intro s t hs ht
    exact h as a s t List.prefix_rfl hs ht
  · rintro ⟨h, hlast⟩ pre b s t hpre hs ht
    rcases List.prefix_concat_iff.mp hpre with heq | hpre
    · obtain ⟨rfl, hb⟩ := List.append_inj' heq rfl
      obtain rfl := List.singleton_inj.mp hb
      exact hlast s t hs ht
    · exact h pre b s t hpre hs ht

/-- Where `C` keeps the invariant that makes it equivalent to `P`, a run satisfies the one at every
step exactly when it satisfies the other. -/
theorem always_iff_along {I : σ → Prop} {P C : σ → α → σ → Prop} (h0 : I M.init)
    (hkeep : ∀ s a t, M.Reachable s → I s → M.step s a = some t → C s a t → I t)
    (hiff : ∀ s a t, M.Reachable s → I s → M.step s a = some t → (P s a t ↔ C s a t))
    (as : List α) : M.Always as P ↔ M.Always as C := by
  induction as using List.reverseRecOn with
  | nil => constructor <;> exact fun _ pre a s t hpre => by simp at hpre
  | append_singleton as a ih =>
    rw [always_concat, always_concat, ih]
    apply and_congr_right
    intro hC
    apply forall_congr'
    intro s
    apply forall_congr'
    intro t
    apply imp_congr_right
    intro hs
    apply imp_congr_right
    intro ht
    exact hiff s a t ⟨as, hs⟩ (M.invariant_of_always h0 hkeep hC hs) ht

/-- The machine with a record of what its steps put out. -/
def recorded {β : Type} (out : σ → α → List β) : Machine (σ × List β) α where
  init := (M.init, [])
  step s a := (M.step s.1 a).map (fun t => (t, s.2 ++ out s.1 a))

section Recorded

variable {M} {β : Type} {out : σ → α → List β}

lemma recorded_step {s t : σ × List β} {a : α} (h : (M.recorded out).step s a = some t) :
    M.step s.1 a = some t.1 ∧ t.2 = s.2 ++ out s.1 a := by
  obtain ⟨u, hu, rfl⟩ := Option.map_eq_some_iff.mp h
  exact ⟨hu, rfl⟩

end Recorded

/-- Runs `as` from `s` and checks `C` before every step. -/
def checks (C : σ → α → Bool) (s : σ) : List α → Bool
  | [] => true
  | a :: as =>
    match M.step s a with
    | none => true
    | some t => C s a && checks C t as

lemma holds_of_checks {C : σ → α → Bool} {s t : σ} {as pre : List α} {a : α}
    (h : M.checks C s as = true) (hpre : pre ++ [a] <+: as) (ht : M.run s pre = some t)
    (hstep : (M.step t a).isSome = true) : C t a = true := by
  induction as generalizing s pre with
  | nil => simp at hpre
  | cons b as ih =>
    cases pre with
    | nil =>
      obtain ⟨rfl, -⟩ := List.cons_prefix_cons.mp hpre
      simp only [run_nil, Option.some.injEq] at ht
      subst ht
      obtain ⟨u, hu⟩ := Option.isSome_iff_exists.mp hstep
      simp only [checks, hu, Bool.and_eq_true] at h
      exact h.1
    | cons c pre =>
      obtain ⟨rfl, hrest⟩ := List.cons_prefix_cons.mp hpre
      rw [run_cons] at ht
      obtain ⟨u, hu, ht⟩ := Option.bind_eq_some_iff.mp ht
      simp only [checks, hu, Bool.and_eq_true] at h
      exact ih h.2 hrest ht

theorem always_of_checks {C : σ → α → Bool} {as : List α} (h : M.checks C M.init as = true) :
    M.Always as (fun s a _ => C s a = true) := by
  intro pre a s t hpre hs ht
  exact M.holds_of_checks h hpre hs (by rw [ht]; rfl)

end Machine

structure Component (σ α β : Type) where
  init : σ
  step : σ → α → σ × β

namespace Component

variable {σ τ α β : Type} (C : Component σ α β) (D : Component τ α β)

/-- The state after a history of calls, and the replies in order. -/
def exec (s : σ) : List α → σ × List β
  | [] => (s, [])
  | a :: as => ((exec (C.step s a).1 as).1, (C.step s a).2 :: (exec (C.step s a).1 as).2)

def Along (ok : σ → α → Prop) (s : σ) : List α → Prop
  | [] => True
  | a :: as => ok s a ∧ Along ok (C.step s a).1 as

/-- Forward simulation: as long as the calls are `ok` for the specification `D`, the relation
is kept and the replies are the same. -/
theorem exec_simulates {R : σ → τ → Prop} {ok : τ → α → Prop}
    (hstep : ∀ s t a, R s t → ok t a →
      R (C.step s a).1 (D.step t a).1 ∧ (C.step s a).2 = (D.step t a).2)
    {s : σ} {t : τ} {as : List α} (hR : R s t) (hok : D.Along ok t as) :
    R (C.exec s as).1 (D.exec t as).1 ∧ (C.exec s as).2 = (D.exec t as).2 := by
  induction as generalizing s t with
  | nil => exact ⟨hR, rfl⟩
  | cons a as ih =>
    obtain ⟨hnext, hreply⟩ := hstep s t a hR hok.1
    obtain ⟨hfinal, hreplies⟩ := ih hnext hok.2
    exact ⟨hfinal, by simp only [exec, hreply, hreplies]⟩

/-- When a call that is not `ok` leaves two states that are unrelated and that every further
call tells apart, then the histories on which `C` and `D` agree are exactly the `ok` ones. -/
theorem exec_agrees_iff {R : σ → τ → Prop} {ok : τ → α → Prop}
    (hstep : ∀ s t a, R s t → ok t a →
      R (C.step s a).1 (D.step t a).1 ∧ (C.step s a).2 = (D.step t a).2)
    (hsplit : ∀ s t a, R s t → ¬ok t a → ¬R (C.step s a).1 (D.step t a).1 ∧
      ∀ b, (C.step (C.step s a).1 b).2 ≠ (D.step (D.step t a).1 b).2)
    {s : σ} {t : τ} (as : List α) (hR : R s t) :
    (R (C.exec s as).1 (D.exec t as).1 ∧ (C.exec s as).2 = (D.exec t as).2) ↔ D.Along ok t as := by
  constructor
  · intro h
    induction as generalizing s t with
    | nil => trivial
    | cons a as ih =>
      simp only [exec, List.cons.injEq] at h
      by_cases hok : ok t a
      · exact ⟨hok, ih (hstep s t a hR hok).1 ⟨h.1, h.2.2⟩⟩
      · exfalso
        obtain ⟨hapart, hreply⟩ := hsplit s t a hR hok
        cases as with
        | nil => exact hapart h.1
        | cons b bs =>
          have heq := h.2.2
          simp only [exec, List.cons.injEq] at heq
          exact hreply b heq.1
  · exact C.exec_simulates D hstep hR

end Component

end LatencyArb
