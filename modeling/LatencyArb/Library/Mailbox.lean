import Mathlib

/-!
# A mailbox with one consumer

Producers append to a queue and go on. One consumer takes items out, one at a time or all at once, and
handles what it has taken item by item. What it has handled is the front of what was put in, in order.
-/

namespace LatencyArb

/-- `batch` is what the consumer has taken and not yet handled; the last two fields record the run. -/
structure Mailbox (φ : Type) where
  queue : List φ := []
  batch : List φ := []
  handled : List φ := []
  pushed : List φ := []

namespace Mailbox

variable {φ : Type} (m : Mailbox φ)

def push (item : φ) : Mailbox φ := { m with queue := m.queue ++ [item], pushed := m.pushed ++ [item] }

/-- The consumer, with nothing in hand, takes everything. -/
def drain : Mailbox φ := { m with queue := [], batch := m.queue }

/-- The consumer, with nothing in hand, takes the first item. -/
def take : Mailbox φ := { m with queue := m.queue.tail, batch := m.queue.take 1 }

/-- The consumer handles the first item in its hand. -/
def handle : Mailbox φ := { m with batch := m.batch.tail, handled := m.handled ++ m.batch.take 1 }

/-- Nothing is lost, altered, repeated or overtaken. -/
def Sound : Prop := m.handled ++ m.batch ++ m.queue = m.pushed

variable {m}

lemma sound_empty : ({} : Mailbox φ).Sound := rfl

lemma Sound.push (h : m.Sound) (item : φ) : (m.push item).Sound := by
  unfold Sound at h
  show m.handled ++ m.batch ++ (m.queue ++ [item]) = m.pushed ++ [item]
  rw [← List.append_assoc, h]

lemma Sound.drain (h : m.Sound) (hbatch : m.batch = []) : m.drain.Sound := by
  unfold Sound at h
  rw [hbatch, List.append_nil] at h
  show m.handled ++ m.queue ++ [] = m.pushed
  rw [List.append_nil, h]

lemma Sound.take (h : m.Sound) (hbatch : m.batch = []) : m.take.Sound := by
  unfold Sound at h
  rw [hbatch, List.append_nil] at h
  show m.handled ++ m.queue.take 1 ++ m.queue.tail = m.pushed
  rw [List.append_assoc, ← List.drop_one, List.take_append_drop, h]

lemma Sound.handle (h : m.Sound) : m.handle.Sound := by
  unfold Sound at h
  show m.handled ++ m.batch.take 1 ++ m.batch.tail ++ m.queue = m.pushed
  rw [List.append_assoc m.handled, ← List.drop_one, List.take_append_drop, h]

/-- What has been handled is the front of what was put in. -/
lemma Sound.handled_prefix (h : m.Sound) : m.handled <+: m.pushed := by
  unfold Sound at h
  exact ⟨m.batch ++ m.queue, by rw [← List.append_assoc, h]⟩

lemma Sound.length_eq (h : m.Sound) : m.handled.length + m.batch.length + m.queue.length = m.pushed.length := by
  unfold Sound at h
  rw [← List.length_append, ← List.length_append, h]

/-- Once the consumer has handled that many items, these are the first that were put in. -/
lemma Sound.prefix_handled {first : List φ} (h : m.Sound) (hpushed : first <+: m.pushed)
    (hlength : first.length ≤ m.handled.length) : first <+: m.handled :=
  List.prefix_of_prefix_length_le hpushed h.handled_prefix hlength

lemma length_handle (hbatch : m.batch ≠ []) : m.handle.handled.length = m.handled.length + 1 ∧
    m.handle.batch.length + 1 = m.batch.length := by
  obtain ⟨item, rest, hitems⟩ := List.exists_cons_of_ne_nil hbatch
  unfold handle
  rw [hitems]
  simp

end Mailbox

end LatencyArb
