import LatencyArb.Library.Machine

/-!
# Bounded queues that drop their oldest item

The reference object for a buffer whose writer never blocks: a FIFO of at most `bound` items
in which a push on a full queue makes room by discarding the oldest one.
-/

namespace LatencyArb

inductive QueueCall (T : Type) where
  | push (item : T)
  | pop
  deriving DecidableEq, Repr

inductive QueueReply (T : Type) where
  | pushed (kept : Bool)  -- false when a push had to discard an item
  | popped (item : Option T)
  deriving DecidableEq, Repr

/-- A FIFO, oldest item first, that never holds more than `bound` items. -/
structure DropOldest (T : Type) (bound : Nat) where
  items : List T
  length_le : items.length ≤ bound

namespace DropOldest

variable {T : Type} {bound : Nat}

def empty : DropOldest T bound := ⟨[], Nat.zero_le _⟩

def push (q : DropOldest T bound) (item : T) : DropOldest T bound × Bool :=
  if h : q.items.length < bound then
    (⟨q.items ++ [item], by rw [List.length_append, List.length_singleton]; omega⟩, true)
  else
    (⟨(q.items ++ [item]).tail, by
      rw [List.length_tail, List.length_append, List.length_singleton]
      have := q.length_le
      omega⟩, false)

def pop (q : DropOldest T bound) : DropOldest T bound × Option T :=
  (⟨q.items.tail, by rw [List.length_tail]; have := q.length_le; omega⟩, q.items.head?)

def component : Component (DropOldest T bound) (QueueCall T) (QueueReply T) where
  init := empty
  step
    | q, .push item => ((q.push item).1, .pushed (q.push item).2)
    | q, .pop => (q.pop.1, .popped q.pop.2)

/-- The final state and the replies of a history of calls on an empty queue. -/
def history (bound : Nat) (calls : List (QueueCall T)) : DropOldest T bound × List (QueueReply T) :=
  component.exec empty calls

@[simp] lemma step_push (q : DropOldest T bound) (item : T) :
    component.step q (.push item) = ((q.push item).1, .pushed (q.push item).2) := rfl

@[simp] lemma step_pop (q : DropOldest T bound) :
    component.step q .pop = (q.pop.1, .popped q.items.head?) := rfl

@[simp] lemma pop_items (q : DropOldest T bound) : q.pop.1.items = q.items.tail := rfl

lemma push_of_lt (q : DropOldest T bound) (item : T) (h : q.items.length < bound) :
    (q.push item).1.items = q.items ++ [item] ∧ (q.push item).2 = true := by
  simp [push, h]

lemma push_of_full (q : DropOldest T bound) (item : T) (h : ¬q.items.length < bound) :
    (q.push item).1.items = (q.items ++ [item]).tail ∧ (q.push item).2 = false := by
  simp [push, h]

def Fits (q : DropOldest T bound) : QueueCall T → Prop
  | .push _ => q.items.length < bound
  | .pop => True

/-- Counting only: starting with `n` items kept, no push of the history meets `bound` of them. -/
def NoOverflow (bound : Nat) : Nat → List (QueueCall T) → Prop
  | _, [] => True
  | n, .push _ :: calls => n < bound ∧ NoOverflow bound (n + 1) calls
  | n, .pop :: calls => NoOverflow bound (n - 1) calls

theorem along_fits_iff (q : DropOldest T bound) (calls : List (QueueCall T)) :
    component.Along Fits q calls ↔ NoOverflow bound q.items.length calls := by
  induction calls generalizing q with
  | nil => rfl
  | cons call calls ih =>
    cases call with
    | push item =>
      simp only [Component.Along, NoOverflow, Fits]
      apply and_congr_right
      intro h
      rw [ih, step_push, (q.push_of_lt item h).1, List.length_append, List.length_singleton]
    | pop =>
      simp only [Component.Along, NoOverflow, Fits, true_and]
      rw [ih, step_pop, pop_items, List.length_tail]

end DropOldest

end LatencyArb
