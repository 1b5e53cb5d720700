import Mathlib

/-!
# A queue with one write under way

Frames are pushed to a queue and pumped out of it one at a time; the one under way stays at the head
until its write completes. So the frames handed over are the frames pushed, in their order.
-/

namespace LatencyArb

structure WriteQueue (φ : Type) where
  queue : List φ
  writing : Bool
  handed : List φ
  pushed : List φ

namespace WriteQueue

variable {φ : Type} (q : WriteQueue φ)

/-- The frames not handed over yet. -/
def waiting : List φ := if q.writing then q.queue.tail else q.queue

def pump : WriteQueue φ :=
  if q.writing then q
  else
    match q.queue with
    | [] => q
    | f :: _ => { q with writing := true, handed := q.handed ++ [f] }

def push (f : φ) : WriteQueue φ := { q with queue := q.queue ++ [f], pushed := q.pushed ++ [f] }

/-- The end of the write under way. -/
def complete : WriteQueue φ := { q with writing := false, queue := q.queue.tail }

structure Sound (q : WriteQueue φ) : Prop where
  fifo : q.handed ++ q.waiting = q.pushed
  busy : q.writing = true → q.queue ≠ []

/-- No frame waits while no write is under way. -/
def Flowing : Prop := q.writing = true ∨ q.queue = []

variable {q}

lemma pump_of_writing (h : q.writing = true) : q.pump = q := if_pos h

lemma pump_of_nil (h : q.queue = []) : q.pump = q := by
  unfold pump
  split
  · rfl
  · simp [h]

lemma pump_of_cons {f : φ} {rest : List φ} (h : q.writing = false) (hq : q.queue = f :: rest) :
    q.pump = { q with writing := true, handed := q.handed ++ [f] } := by
  simp [pump, h, hq]

lemma pump_flowing (q : WriteQueue φ) : q.pump.Flowing := by
  by_cases hw : q.writing = true
  · rw [pump_of_writing hw]
    exact .inl hw
  · match hq : q.queue with
    | [] =>
      rw [pump_of_nil hq]
      exact .inr hq
    | f :: rest =>
      rw [pump_of_cons (Bool.not_eq_true _ ▸ hw) hq]
      exact .inl rfl

lemma Sound.pump (h : q.Sound) : q.pump.Sound := by
  by_cases hw : q.writing = true
  · rwa [pump_of_writing hw]
  · match hq : q.queue with
    | [] => rwa [pump_of_nil hq]
    | f :: rest =>
      rw [Bool.not_eq_true] at hw
      rw [pump_of_cons hw hq]
      have hfifo := h.fifo
      simp only [waiting, hw, hq, Bool.false_eq_true, if_false] at hfifo
      constructor
      · simp [waiting, hq, ← hfifo]
      · simp [hq]

lemma Sound.push (h : q.Sound) (f : φ) : (q.push f).Sound := by
  have hfifo := h.fifo
  constructor
  · show q.handed ++ waiting _ = q.pushed ++ [f]
    rw [← hfifo, List.append_assoc]
    unfold waiting WriteQueue.push
    by_cases hw : q.writing = true
    · simp [hw, List.tail_append_of_ne_nil (h.busy hw)]
    · simp [hw]
  · simp [WriteQueue.push]

lemma Sound.complete (h : q.Sound) (hw : q.writing = true) : q.complete.Sound := by
  have hfifo := h.fifo
  constructor
  · simpa [waiting, WriteQueue.complete, hw] using hfifo
  · simp [WriteQueue.complete]

lemma Sound.handed_prefix (h : q.Sound) : q.handed <+: q.pushed := ⟨_, h.fifo⟩

end WriteQueue

end LatencyArb
