import Mathlib

/-!
# Files that streams append to

A stream keeps what is written in a buffer. The lines of a file are counted with those in the buffer of its
stream; the flushed ones are the front of them that outlives the stream.
-/

namespace LatencyArb

/-- The files `φ` and the streams opened on them. -/
structure AppendStreams (φ α : Type) where
  lines : φ → List α
  flushed : φ → List α
  isOpen : φ → Bool := fun _ => false

namespace AppendStreams

variable {φ α : Type} [DecidableEq φ] (s : AppendStreams φ α)

def openFile (f : φ) : AppendStreams φ α := { s with isOpen := Function.update s.isOpen f true }

def write (f : φ) (line : α) : AppendStreams φ α :=
  { s with lines := Function.update s.lines f (s.lines f ++ [line]) }

def close (f : φ) : AppendStreams φ α :=
  { s with flushed := Function.update s.flushed f (s.lines f), isOpen := Function.update s.isOpen f false }

omit [DecidableEq φ] in
/-- Flushes the streams that are open. -/
def flush : AppendStreams φ α := { s with flushed := fun f => if s.isOpen f then s.lines f else s.flushed f }

/-- Nothing waits in a buffer that no stream will flush. -/
def Settled : Prop := ∀ f, s.isOpen f = false → s.flushed f = s.lines f

variable {s} {f g : φ}

lemma lines_write_self (s : AppendStreams φ α) (f : φ) (line : α) :
    (s.write f line).lines f = s.lines f ++ [line] :=
  Function.update_self ..

lemma lines_write_of_ne (s : AppendStreams φ α) (hgf : g ≠ f) (line : α) :
    (s.write f line).lines g = s.lines g :=
  Function.update_of_ne hgf ..

lemma isOpen_openFile_self (s : AppendStreams φ α) (f : φ) : (s.openFile f).isOpen f = true :=
  Function.update_self ..

lemma isOpen_openFile_of_ne (s : AppendStreams φ α) (hgf : g ≠ f) : (s.openFile f).isOpen g = s.isOpen g :=
  Function.update_of_ne hgf ..

lemma isOpen_close_self (s : AppendStreams φ α) (f : φ) : (s.close f).isOpen f = false := Function.update_self ..

lemma isOpen_close_of_ne (s : AppendStreams φ α) (hgf : g ≠ f) : (s.close f).isOpen g = s.isOpen g :=
  Function.update_of_ne hgf ..

lemma Settled.openFile (h : s.Settled) (f : φ) : (s.openFile f).Settled := by
  intro g hg
  by_cases hgf : g = f
  · rw [hgf, isOpen_openFile_self] at hg
    cases hg
  · exact h g ((isOpen_openFile_of_ne s hgf).symm.trans hg)

lemma Settled.write (h : s.Settled) (hopen : s.isOpen f = true) (line : α) : (s.write f line).Settled := by
  intro g hg
  have hgf : g ≠ f := by
    rintro rfl
    exact Bool.eq_false_iff.mp hg hopen
  rw [lines_write_of_ne s hgf]
  exact h g hg

lemma Settled.close (h : s.Settled) (f : φ) : (s.close f).Settled := by
  intro g hg
  show Function.update s.flushed f (s.lines f) g = s.lines g
  by_cases hgf : g = f
  · rw [hgf, Function.update_self]
  · rw [Function.update_of_ne hgf]
    exact h g ((isOpen_close_of_ne s hgf).symm.trans hg)

omit [DecidableEq φ] in
/-- A flush leaves no line in a buffer. -/
lemma Settled.flushed_flush (h : s.Settled) : s.flush.flushed = s.lines := by
  funext f
  show (if s.isOpen f then s.lines f else s.flushed f) = s.lines f
  split_ifs with hopen
  · rfl
  · exact h f (Bool.eq_false_iff.mpr hopen)

end AppendStreams

end LatencyArb
