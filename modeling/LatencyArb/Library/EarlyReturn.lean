import Mathlib

/-!
# Functions that return early

The body of a function as passages that follow each other, each of which may end the function.
-/

namespace LatencyArb

/-- Whether the function goes on behind the passage, and the state after it. -/
abbrev Passage (σ : Type) := σ → Bool × σ

namespace Passage

variable {σ : Type}

def andThen (f g : Passage σ) : Passage σ := fun s => if (f s).1 then g (f s).2 else f s

/-- A passage that does not return. -/
def always (f : σ → σ) : Passage σ := fun s => (true, f s)

/-- The passages one after the other. -/
def all : List (Passage σ) → Passage σ
  | [] => always id
  | f :: fs => f.andThen (all fs)

/-- An invariant that holds wherever the passage ends. -/
def Keeps (I : σ → Prop) (f : Passage σ) : Prop := ∀ s, I s → I (f s).2

variable {I : σ → Prop} {f g : Passage σ}

lemma Keeps.andThen (hf : Keeps I f) (hg : Keeps I g) : Keeps I (f.andThen g) := by
  intro s hs
  unfold Passage.andThen
  split
  · exact hg _ (hf s hs)
  · exact hf s hs

lemma Keeps.always {f : σ → σ} (hf : ∀ s, I s → I (f s)) : Keeps I (Passage.always f) := hf

/-- The invariant rule. -/
theorem Keeps.all {fs : List (Passage σ)} (h : ∀ f ∈ fs, Keeps I f) : Keeps I (Passage.all fs) := by
  induction fs with
  | nil => exact Keeps.always (fun s hs => hs)
  | cons f fs ih =>
    obtain ⟨hf, hfs⟩ := List.forall_mem_cons.mp h
    exact hf.andThen (ih hfs)

variable {α ρ : Type} {V : σ → ρ → Prop}

/-- A passage ends as a computation in `Except` does, which it shows in its state. -/
def Follows (V : σ → ρ → Prop) (r : Bool × σ) : Except ρ ρ → Prop
  | .ok out => r.1 = true ∧ V r.2 out
  | .error out => r.1 = false ∧ V r.2 out

/-- The refinement rule. -/
theorem Follows.andThen {s : σ} {x : Except ρ α} {k : α → Except ρ ρ}
    (herror : ∀ e, x = .error e → (f s).1 = false ∧ V (f s).2 e)
    (hok : ∀ a, x = .ok a → (f s).1 = true ∧ Follows V (g (f s).2) (k a)) :
    Follows V (f.andThen g s) (x >>= k) := by
  cases x with
  | error e =>
    obtain ⟨hstop, hshown⟩ := herror e rfl
    have hrun : f.andThen g s = f s := by
      unfold Passage.andThen
      rw [hstop]
      rfl
    rw [hrun]
    exact ⟨hstop, hshown⟩
  | ok a =>
    obtain ⟨hgoes, hrest⟩ := hok a rfl
    have hrun : f.andThen g s = g (f s).2 := if_pos hgoes
    rw [hrun]
    exact hrest

end Passage

end LatencyArb
