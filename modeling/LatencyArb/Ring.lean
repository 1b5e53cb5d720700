import LatencyArb.Library.BoundedQueue
import Mathlib

/-!
# The single-producer single-consumer ring (`include/llm/ring.h`)

`head` is the next slot to write and `tail` the next slot to read; both are masked, so a
ring never holds `capacity` items. `unread` is the list between them, and the two operations
are described by what they do to it.
-/

namespace LatencyArb

/-- `SpscRing<T, Capacity>`; the field `isPow2` is the class's first `static_assert`. -/
structure SpscRing (T : Type) (capacity : Nat) where
  head : Fin capacity
  tail : Fin capacity
  slots : Fin capacity → T
  isPow2 : capacity &&& (capacity - 1) = 0

namespace SpscRing

variable {T : Type} {capacity : Nat}

def kMask (capacity : Nat) : Nat := capacity - 1

/-- `(i + 1) & kMask` -/
def next (i : Fin capacity) : Fin capacity :=
  ⟨(i.val + 1) &&& kMask capacity, by
    have hi := i.isLt
    have hle : (i.val + 1) &&& kMask capacity ≤ kMask capacity := Nat.and_le_right
    simp only [kMask] at hle ⊢
    omega⟩

def init [Inhabited T] [NeZero capacity] (isPow2 : capacity &&& (capacity - 1) = 0) :
    SpscRing T capacity := ⟨0, 0, fun _ => default, isPow2⟩

def push (r : SpscRing T capacity) (item : T) : SpscRing T capacity × Bool :=
  let next := next r.head
  let dropped := decide (next = r.tail)
  ({ r with slots := Function.update r.slots r.head item, head := next }, !dropped)

def pop (r : SpscRing T capacity) : SpscRing T capacity × Option T :=
  if r.tail = r.head then (r, none)
  else ({ r with tail := next r.tail }, some (r.slots r.tail))

/-- `(head - tail) & kMask`, the subtraction being one of 64-bit `std::size_t`. -/
def size (r : SpscRing T capacity) : Nat :=
  ((r.head.val + 2 ^ 64 - r.tail.val) % 2 ^ 64) &&& kMask capacity

def component [Inhabited T] [NeZero capacity] (isPow2 : capacity &&& (capacity - 1) = 0) :
    Component (SpscRing T capacity) (QueueCall T) (QueueReply T) where
  init := init isPow2
  step
    | r, .push item => ((r.push item).1, .pushed (r.push item).2)
    | r, .pop => (r.pop.1, .popped r.pop.2)

@[simp] lemma step_push [Inhabited T] [NeZero capacity] (hpow : capacity &&& (capacity - 1) = 0)
    (r : SpscRing T capacity) (item : T) :
    (component hpow).step r (.push item) = ((r.push item).1, .pushed (r.push item).2) := rfl

@[simp] lemma step_pop [Inhabited T] [NeZero capacity] (hpow : capacity &&& (capacity - 1) = 0)
    (r : SpscRing T capacity) :
    (component hpow).step r .pop = (r.pop.1, .popped r.pop.2) := rfl

def count (r : SpscRing T capacity) : Nat := (r.head + capacity - r.tail) % capacity

def slotAt (r : SpscRing T capacity) (k : Nat) : Fin capacity :=
  ⟨(r.tail + k) % capacity, Nat.mod_lt _ r.tail.pos⟩

/-- The items pushed and not yet popped, oldest first. -/
def unread (r : SpscRing T capacity) : List T :=
  (List.range r.count).map (fun k => r.slots (r.slotAt k))

lemma next_val (hpow : capacity &&& (capacity - 1) = 0) (i : Fin capacity) :
    (next i).val = (i.val + 1) % capacity := by
  obtain ⟨k, hk⟩ := (Nat.and_sub_one_eq_zero_iff_isPowerOfTwo i.pos.ne').mp hpow
  simp only [next, kMask, hk, Nat.and_two_pow_sub_one_eq_mod]

lemma mod_of_lt_two_mul {x n : Nat} (h : x < 2 * n) : x % n = if x < n then x else x - n := by
  split
  · exact Nat.mod_eq_of_lt ‹_›
  · rw [Nat.mod_eq_sub_mod (by omega), Nat.mod_eq_of_lt (by omega)]

lemma next_val_ite (hpow : capacity &&& (capacity - 1) = 0) (i : Fin capacity) :
    (next i).val = if i.val + 1 < capacity then i.val + 1 else 0 := by
  have hi := i.isLt
  rw [next_val hpow, mod_of_lt_two_mul (by omega)]
  split <;> omega

lemma count_ite (r : SpscRing T capacity) :
    r.count = if r.tail.val ≤ r.head.val then r.head.val - r.tail.val
      else r.head.val + capacity - r.tail.val := by
  have hh := r.head.isLt
  have ht := r.tail.isLt
  rw [count, mod_of_lt_two_mul (by omega)]
  split <;> split <;> omega

lemma slotAt_val (r : SpscRing T capacity) {k : Nat} (hk : k < capacity) :
    (r.slotAt k).val = if r.tail.val + k < capacity then r.tail.val + k
      else r.tail.val + k - capacity := by
  have ht := r.tail.isLt
  exact mod_of_lt_two_mul (by omega)

lemma count_lt (r : SpscRing T capacity) : r.count < capacity := Nat.mod_lt _ r.tail.pos

lemma size_eq_count (hword : capacity ∣ 2 ^ 64) (r : SpscRing T capacity) :
    r.size = r.count := by
  have hh := r.head.isLt
  have ht := r.tail.isLt
  obtain ⟨k, hk⟩ := (Nat.and_sub_one_eq_zero_iff_isPowerOfTwo r.tail.pos.ne').mp r.isPow2
  obtain ⟨m, hm⟩ := hword
  have hpos : m ≠ 0 := by
    rintro rfl
    simp at hm
  obtain ⟨n, rfl⟩ := Nat.exists_eq_succ_of_ne_zero hpos
  have hmask : ∀ x, x &&& kMask capacity = x % capacity := by
    intro x
    simp only [kMask, hk, Nat.and_two_pow_sub_one_eq_mod]
  have hwrap : r.head.val + 2 ^ 64 - r.tail.val =
      (r.head.val + capacity - r.tail.val) + capacity * n := by
    rw [hm, Nat.mul_succ]
    omega
  rw [size, hmask, Nat.mod_mod_of_dvd _ ⟨n.succ, hm⟩, hwrap, Nat.add_mul_mod_self_left, count]

@[simp] lemma unread_length (r : SpscRing T capacity) : r.unread.length = r.count := by
  simp [unread]

lemma init_unread [Inhabited T] [NeZero capacity] (hpow : capacity &&& (capacity - 1) = 0) :
    (init hpow : SpscRing T capacity).unread = [] := by
  simp [unread, init, count_ite]

lemma head_eq_tail_iff (r : SpscRing T capacity) : r.tail = r.head ↔ r.count = 0 := by
  have hh := r.head.isLt
  have ht := r.tail.isLt
  rw [count_ite, Fin.ext_iff]
  split <;> omega

lemma next_head_eq_tail_iff (r : SpscRing T capacity) :
    next r.head = r.tail ↔ r.count = capacity - 1 := by
  have hh := r.head.isLt
  have ht := r.tail.isLt
  rw [count_ite, Fin.ext_iff, next_val_ite r.isPow2]
  split <;> split <;> omega

/-- The slot that is written next holds no unread item. -/
lemma slotAt_ne_head (r : SpscRing T capacity) {k : Nat} (hk : k < r.count) :
    r.slotAt k ≠ r.head := by
  intro he
  have hlt := r.count_lt
  have hval := congrArg Fin.val he
  have hh := r.head.isLt
  have ht := r.tail.isLt
  rw [slotAt_val r (by omega)] at hval
  rw [count_ite] at hk hlt
  split at hval <;> split at hk <;> omega

@[simp] lemma push_head (r : SpscRing T capacity) (item : T) :
    (r.push item).1.head = next r.head := rfl

@[simp] lemma push_tail (r : SpscRing T capacity) (item : T) :
    (r.push item).1.tail = r.tail := rfl

@[simp] lemma push_slots (r : SpscRing T capacity) (item : T) :
    (r.push item).1.slots = Function.update r.slots r.head item := rfl

@[simp] lemma push_slotAt (r : SpscRing T capacity) (item : T) (k : Nat) :
    (r.push item).1.slotAt k = r.slotAt k := rfl

theorem push_unread (r : SpscRing T capacity) (item : T) (h : r.count < capacity - 1) :
    (r.push item).1.unread = r.unread ++ [item] ∧ (r.push item).2 = true := by
  have hh := r.head.isLt
  have ht := r.tail.isLt
  have hroom : next r.head ≠ r.tail := fun he => by
    rw [next_head_eq_tail_iff] at he
    omega
  refine ⟨?_, by simp [push, hroom]⟩
  have hcount : (r.push item).1.count = r.count + 1 := by
    have hn : ¬(next r.head).val = r.tail.val := fun he => hroom (Fin.ext he)
    have hv := next_val_ite r.isPow2 r.head
    rw [count_ite, count_ite, push_head, push_tail]
    split at hv <;> split <;> split <;> omega
  have hlast : r.slotAt r.count = r.head := by
    apply Fin.ext
    rw [slotAt_val r (by omega), count_ite]
    split <;> split <;> omega
  simp only [unread, hcount, push_slots, push_slotAt, List.range_succ, List.map_append,
    List.map_cons, List.map_nil, hlast, Function.update_self]
  congr 1
  apply List.map_congr_left
  intro k hk
  rw [Function.update_of_ne (r.slotAt_ne_head (List.mem_range.mp hk))]

/-- A push on a full ring moves `head` onto `tail`: the ring is then read as empty, and the
`capacity - 1` unread items and the new one are all lost. -/
theorem push_full_unread (r : SpscRing T capacity) (item : T) (h : ¬r.count < capacity - 1) :
    (r.push item).1.unread = [] ∧ (r.push item).2 = false := by
  have hlt := r.count_lt
  have hfull : next r.head = r.tail := (next_head_eq_tail_iff r).mpr (by omega)
  have hcount : (r.push item).1.count = 0 := by
    rw [← head_eq_tail_iff]
    exact hfull.symm
  exact ⟨by rw [unread, hcount]; rfl, by simp [push, hfull]⟩

theorem pop_of_unread_nil (r : SpscRing T capacity) (h : r.unread = []) : r.pop = (r, none) := by
  have hzero : r.count = 0 := by rw [← unread_length, h, List.length_nil]
  rw [pop, if_pos ((head_eq_tail_iff r).mpr hzero)]

theorem pop_of_unread_cons (r : SpscRing T capacity) {item : T} {rest : List T}
    (h : r.unread = item :: rest) : r.pop.1.unread = rest ∧ r.pop.2 = some item := by
  have hh := r.head.isLt
  have ht := r.tail.isLt
  have hlt := r.count_lt
  have hpos : r.count ≠ 0 := by rw [← unread_length, h, List.length_cons]; omega
  have hne : r.tail ≠ r.head := fun he => hpos ((head_eq_tail_iff r).mp he)
  have hpop : r.pop = ({ r with tail := next r.tail }, some (r.slots r.tail)) := by
    rw [pop, if_neg hne]
  have hhead : r.pop.1.head = r.head := by rw [hpop]
  have htail : r.pop.1.tail = next r.tail := by rw [hpop]
  have hslots : r.pop.1.slots = r.slots := by rw [hpop]
  have hv := next_val_ite r.isPow2 r.tail
  have hcount : r.count = r.pop.1.count + 1 := by
    have hn : r.tail.val ≠ r.head.val := fun he => hne (Fin.ext he)
    rw [count_ite, count_ite, hhead, htail]
    split at hv <;> split <;> split <;> omega
  have hzero : r.slotAt 0 = r.tail := by
    apply Fin.ext
    rw [slotAt_val r (by omega)]
    split <;> omega
  have hshift : ∀ k, k + 1 < capacity → r.pop.1.slotAt k = r.slotAt (k + 1) := by
    intro k hk
    apply Fin.ext
    rw [slotAt_val _ (by omega), slotAt_val _ hk, htail]
    split at hv <;> split <;> split <;> omega
  have hlist : r.unread = r.slots r.tail :: r.pop.1.unread := by
    rw [unread, hcount, List.range_succ_eq_map, List.map_cons, List.map_map, hzero, unread, hslots]
    congr 1
    apply List.map_congr_left
    intro k hk
    rw [List.mem_range] at hk
    rw [hshift k (by omega), Function.comp_apply]
  rw [hlist, List.cons.injEq] at h
  exact ⟨h.2, by rw [hpop, ← h.1]⟩

/-! ## Comparison with the queue that drops its oldest item -/

def Holds (r : SpscRing T capacity) (q : DropOldest T (capacity - 1)) : Prop :=
  r.unread = q.items

lemma two_pow_isPow2 (k : Nat) : 2 ^ (k + 1) &&& (2 ^ (k + 1) - 1) = 0 := by
  rw [Nat.and_sub_one_eq_zero_iff_isPowerOfTwo (Nat.two_pow_pos _).ne']
  exact ⟨k + 1, rfl⟩

def history [Inhabited T] (k : Nat) (calls : List (QueueCall T)) :
    SpscRing T (2 ^ (k + 1)) × List (QueueReply T) :=
  (component (two_pow_isPow2 k)).exec (init (two_pow_isPow2 k)) calls

lemma step_holds [Inhabited T] [NeZero capacity] (hpow : capacity &&& (capacity - 1) = 0)
    (r : SpscRing T capacity) (q : DropOldest T (capacity - 1)) (call : QueueCall T)
    (h : Holds r q) (hfits : q.Fits call) :
    Holds ((component hpow).step r call).1 (DropOldest.component.step q call).1 ∧
      ((component hpow).step r call).2 = (DropOldest.component.step q call).2 := by
  have hcount : r.count = q.items.length := by rw [← unread_length, h]
  cases call with
  | push item =>
    obtain ⟨hring, hkept⟩ := r.push_unread item (hcount ▸ hfits)
    obtain ⟨hqueue, hkept'⟩ := q.push_of_lt item hfits
    rw [step_push, DropOldest.step_push, hkept, hkept']
    exact ⟨by rw [Holds, hring, hqueue, h], rfl⟩
  | pop =>
    rw [step_pop, DropOldest.step_pop]
    cases hi : q.items with
    | nil =>
      rw [r.pop_of_unread_nil (h.trans hi), Holds, DropOldest.pop_items, hi]
      exact ⟨h.trans hi, rfl⟩
    | cons item rest =>
      obtain ⟨hring, hitem⟩ := r.pop_of_unread_cons (h.trans hi)
      rw [Holds, DropOldest.pop_items, hi, hring, hitem]
      exact ⟨rfl, rfl⟩

/-- After an overflow the ring is empty while the queue is full, and any call shows it. -/
lemma step_splits [Inhabited T] [NeZero capacity] (hpow : capacity &&& (capacity - 1) = 0)
    (h2 : 2 ≤ capacity) (r : SpscRing T capacity) (q : DropOldest T (capacity - 1))
    (call : QueueCall T) (h : Holds r q) (hfits : ¬q.Fits call) :
    ¬Holds ((component hpow).step r call).1 (DropOldest.component.step q call).1 ∧
      ∀ next, ((component hpow).step ((component hpow).step r call).1 next).2 ≠
        (DropOldest.component.step (DropOldest.component.step q call).1 next).2 := by
  have hcount : r.count = q.items.length := by rw [← unread_length, h]
  cases call with
  | pop => exact absurd trivial hfits
  | push item =>
    simp only [DropOldest.Fits] at hfits
    obtain ⟨hring, -⟩ := r.push_full_unread item (hcount ▸ hfits)
    obtain ⟨hqueue, -⟩ := q.push_of_full item hfits
    have hempty : (r.push item).1.count = 0 := by rw [← unread_length, hring, List.length_nil]
    have hlen : (q.push item).1.items.length = q.items.length := by
      rw [hqueue, List.length_tail, List.length_append, List.length_singleton]
      omega
    rw [step_push, DropOldest.step_push]
    refine ⟨fun he => ?_, ?_⟩
    · have hl := congrArg List.length he
      rw [unread_length, hempty, hlen] at hl
      omega
    · rintro (next | _)
      · have hone := (r.push item).1.push_unread next (by omega)
        have htwo := (q.push item).1.push_of_full next (by omega)
        simp [hone.2, htwo.2]
      · rw [step_pop, DropOldest.step_pop, pop_of_unread_nil _ hring]
        cases hi : (q.push item).1.items with
        | nil => rw [hi, List.length_nil] at hlen; omega
        | cons kept rest => simp

/-- For every capacity `2 ^ (k + 1)` and every history of complete calls: the ring answers and
holds what a queue that drops its oldest item answers and keeps, exactly when no push of the
history finds `capacity - 1` items unread. -/
theorem history_agrees_iff_noOverflow [Inhabited T] (k : Nat) (calls : List (QueueCall T)) :
    ((history k calls).1.unread = (DropOldest.history (2 ^ (k + 1) - 1) calls).1.items ∧
      (history k calls).2 = (DropOldest.history (2 ^ (k + 1) - 1) calls).2) ↔
      DropOldest.NoOverflow (2 ^ (k + 1) - 1) 0 calls := by
  have h2 : 2 ≤ 2 ^ (k + 1) := Nat.le_self_pow (by omega) 2
  have hfit := DropOldest.along_fits_iff
    (DropOldest.empty : DropOldest T (2 ^ (k + 1) - 1)) calls
  refine Iff.trans ?_ hfit
  exact Component.exec_agrees_iff _ _ (R := Holds) (step_holds (two_pow_isPow2 k))
    (step_splits (two_pow_isPow2 k) h2) calls (init_unread (two_pow_isPow2 k))

/-- Four pushes on a ring of four slots, then a pop: the queue that drops its oldest item
returns the second item, the ring returns nothing. -/
theorem history_overflow_empties_ring :
    (history 1 [.push 1, .push 2, .push 3, .push 4, .pop]).2.getLast? = some (.popped none) ∧
    (DropOldest.history 3 [.push 1, .push 2, .push 3, .push 4, .pop]).2.getLast? =
      some (.popped (some 2)) := by
  decide

end SpscRing

end LatencyArb
