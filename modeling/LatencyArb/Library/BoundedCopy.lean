import LatencyArb.Library.Loop
import LatencyArb.Library.ReceiveBuffer

/-!
# Copying up to a delimiter

A loop that copies bytes of a memory into a buffer, until it comes to a delimiter, to the end of the bytes it
may read, or to the last place of the buffer, which it leaves for a terminator. Of the memory all bytes have
a value; the loop keeps the indices that it reads and those that it writes.
-/

namespace LatencyArb

/-- The bytes of a memory from `p` on, in front of `len`. -/
def window (mem : Nat → UInt8) (len p : Nat) : List UInt8 := (List.range' p (len - p)).map mem

section Window

variable {mem : Nat → UInt8} {len p : Nat}

lemma window_end (h : len ≤ p) : window mem len p = [] := by
  unfold window
  rw [Nat.sub_eq_zero_of_le h]
  rfl

lemma window_cons (h : p < len) : window mem len p = mem p :: window mem len (p + 1) := by
  have hlen : len - p = len - (p + 1) + 1 := by omega
  unfold window
  rw [hlen, List.range'_succ, List.map_cons]

lemma length_window : (window mem len p).length = len - p := by
  unfold window
  rw [List.length_map, List.length_range']

lemma drop_window (n : Nat) : (window mem len p).drop n = window mem len (p + n) := by
  unfold window
  rw [← List.map_drop, List.drop_range', Nat.mul_one, Nat.sub_sub]

end Window

structure Copying (size : Nat) where
  p : Nat
  n : Nat := 0
  buf : Vector UInt8 size
  reads : List Nat := []
  writes : List Nat := []

namespace Copying

variable {size : Nat} (mem : Nat → UInt8) (len : Nat) (delim : UInt8)

/-- The condition of the loop, which reads a byte unless the end is reached. -/
def test (c : Copying size) : Bool × Copying size :=
  if c.p < len then
    (decide (mem c.p ≠ delim ∧ c.n < size - 1), { c with reads := c.reads ++ [c.p] })
  else (false, c)

/-- `buf[n++] = *p++`. -/
def put (c : Copying size) : Copying size where
  p := c.p + 1
  n := c.n + 1
  buf := c.buf.setIfInBounds c.n (mem c.p)
  reads := c.reads ++ [c.p]
  writes := c.writes ++ [c.n]

def step (c : Copying size) : Option (Copying size) :=
  if (c.test mem len delim).1 then some ((c.test mem len delim).2.put mem) else none

/-- The loop, with the test at which it ends. It takes fewer steps than the buffer has places. -/
def run (c : Copying size) : Copying size :=
  ((Loop.run (step mem len delim) size c).test mem len delim).2

variable {mem len delim}

section

variable {c d : Copying size}

@[simp] lemma test_p : (c.test mem len delim).2.p = c.p := by
  unfold test
  split <;> rfl

@[simp] lemma test_n : (c.test mem len delim).2.n = c.n := by
  unfold test
  split <;> rfl

@[simp] lemma test_buf : (c.test mem len delim).2.buf = c.buf := by
  unfold test
  split <;> rfl

@[simp] lemma test_writes : (c.test mem len delim).2.writes = c.writes := by
  unfold test
  split <;> rfl

lemma test_iff : (c.test mem len delim).1 = true ↔ c.p < len ∧ mem c.p ≠ delim ∧ c.n < size - 1 := by
  unfold test
  by_cases hp : c.p < len
  · simp [hp]
  · simp [hp]

lemma step_eq_some : step mem len delim c = some d ↔
    (c.p < len ∧ mem c.p ≠ delim ∧ c.n < size - 1) ∧ (c.test mem len delim).2.put mem = d := by
  rw [← test_iff]
  unfold step
  by_cases htest : (c.test mem len delim).1 = true
  · simp [htest]
  · simp [htest]

lemma step_eq_none : step mem len delim c = none ↔ ¬(c.p < len ∧ mem c.p ≠ delim ∧ c.n < size - 1) := by
  rw [← test_iff]
  unfold step
  by_cases htest : (c.test mem len delim).1 = true
  · simp [htest]
  · simp [htest]

/-- The loop comes to its end. -/
theorem run_ends : step mem len delim (Loop.run (step mem len delim) size c) = none := by
  apply Loop.run_terminates (fun c => size - c.n)
  · intro c d h
    obtain ⟨⟨-, -, hn⟩, rfl⟩ := step_eq_some.mp h
    show size - ((c.test mem len delim).2.n + 1) < size - c.n
    rw [test_n]
    omega
  · exact Nat.sub_le size c.n

/-- What is read and written lies inside the memory and inside the buffer, where a place is left. -/
structure Sound (len : Nat) (c : Copying size) : Prop where
  p_le : c.p ≤ len
  n_lt : c.n < size
  reads : ∀ i ∈ c.reads, i < len
  writes : ∀ i ∈ c.writes, i < size

lemma Sound.test (h : Sound len c) : Sound len (c.test mem len delim).2 where
  p_le := by
    rw [test_p]
    exact h.p_le
  n_lt := by
    rw [test_n]
    exact h.n_lt
  reads := by
    unfold Copying.test
    split
    · rename_i hp
      show ∀ i ∈ c.reads ++ [c.p], i < len
      rw [List.forall_mem_append, List.forall_mem_singleton]
      exact ⟨h.reads, hp⟩
    · exact h.reads
  writes := by
    rw [test_writes]
    exact h.writes

lemma Sound.put (h : Sound len c) (hp : c.p < len) (hn : c.n < size - 1) : Sound len (c.put mem) where
  p_le := hp
  n_lt := by
    show c.n + 1 < size
    omega
  reads := by
    show ∀ i ∈ c.reads ++ [c.p], i < len
    rw [List.forall_mem_append, List.forall_mem_singleton]
    exact ⟨h.reads, hp⟩
  writes := by
    show ∀ i ∈ c.writes ++ [c.n], i < size
    rw [List.forall_mem_append, List.forall_mem_singleton]
    exact ⟨h.writes, h.n_lt⟩

lemma Sound.step (h : Sound len c) (hstep : step mem len delim c = some d) : Sound len d := by
  obtain ⟨⟨hp, -, hn⟩, rfl⟩ := step_eq_some.mp hstep
  apply h.test.put
  · rw [test_p]
    exact hp
  · rw [test_n]
    exact hn

theorem Sound.run (h : Sound len c) : Sound len (c.run mem len delim) :=
  (Loop.run_invariant (fun _ _ hc hstep => hc.step hstep) h size).1.test

end

/-! ## What is copied -/

/-- The bytes in front of the delimiter for which there is a place. -/
def field (size : Nat) (delim : UInt8) (bytes : List UInt8) : List UInt8 :=
  (bytes.takeWhile (fun b => decide (b ≠ delim))).take (size - 1)

/-- The loop, begun in `c`, has come to `d` with these bytes copied. -/
structure Copied (mem : Nat → UInt8) (len : Nat) (delim : UInt8) (c d : Copying size) (done : List UInt8) :
    Prop where
  bytes : window mem len c.p = done ++ window mem len d.p
  clean : ∀ b ∈ done, b ≠ delim
  p_eq : d.p = c.p + done.length
  n_eq : d.n = done.length
  fits : done.length ≤ size - 1
  buf_eq : d.buf = blit done c.buf

variable {c d e : Copying size} {done : List UInt8}

lemma Copied.step (h : Copied mem len delim c d done) (hstep : step mem len delim d = some e) :
    Copied mem len delim c e (done ++ [mem d.p]) := by
  obtain ⟨⟨hp, hdelim, hn⟩, rfl⟩ := step_eq_some.mp hstep
  have hlength := h.n_eq
  constructor
  · show window mem len c.p = done ++ [mem d.p] ++ window mem len ((d.test mem len delim).2.p + 1)
    rw [test_p, List.append_assoc, List.singleton_append, ← window_cons hp]
    exact h.bytes
  · rw [List.forall_mem_append, List.forall_mem_singleton]
    exact ⟨h.clean, hdelim⟩
  · show (d.test mem len delim).2.p + 1 = _
    rw [test_p, h.p_eq, List.length_append, List.length_singleton, Nat.add_assoc]
  · show (d.test mem len delim).2.n + 1 = _
    rw [test_n, h.n_eq, List.length_append, List.length_singleton]
  · rw [List.length_append, List.length_singleton]
    omega
  · show (d.test mem len delim).2.buf.setIfInBounds (d.test mem len delim).2.n
      (mem (d.test mem len delim).2.p) = _
    rw [test_buf, test_n, test_p, h.buf_eq, h.n_eq, blit_concat (by omega)]

/-- Where the loop ends the field has been copied. -/
lemma Copied.eq_field (h : Copied mem len delim c d done) (hend : Copying.step mem len delim d = none) :
    done = field size delim (window mem len c.p) := by
  have hclean : ∀ b ∈ done, decide (b ≠ delim) = true := fun b hb => decide_eq_true (h.clean b hb)
  have hlength := h.n_eq
  have hfits := h.fits
  unfold field
  rw [h.bytes, List.takeWhile_append_of_pos hclean]
  by_cases hp : d.p < len
  · by_cases hdelim : mem d.p = delim
    · rw [window_cons hp, List.takeWhile_cons_of_neg (by simpa using hdelim), List.append_nil,
        List.take_of_length_le hfits]
    · have hn : ¬d.n < size - 1 := fun hn => step_eq_none.mp hend ⟨hp, hdelim, hn⟩
      rw [List.take_left' (by omega)]
  · rw [window_end (not_lt.mp hp), List.takeWhile_nil, List.append_nil, List.take_of_length_le hfits]

/-- What the loop copies, and where it leaves the pointers. -/
theorem run_copies (hn : c.n = 0) :
    (c.run mem len delim).p = c.p + (field size delim (window mem len c.p)).length ∧
      (c.run mem len delim).n = (field size delim (window mem len c.p)).length ∧
      (c.run mem len delim).buf = blit (field size delim (window mem len c.p)) c.buf := by
  have hstart : Copied mem len delim c c [] := by
    refine ⟨rfl, by simp, rfl, hn, Nat.zero_le _, ?_⟩
    exact blit_nil.symm
  obtain ⟨done, hdone⟩ := (Loop.run_invariant (I := fun d => ∃ done, Copied mem len delim c d done)
    (fun _ _ ⟨done, hd⟩ hstep => ⟨_, hd.step hstep⟩) ⟨[], hstart⟩ size).1
  rw [← hdone.eq_field run_ends]
  unfold run
  rw [test_p, test_n, test_buf]
  exact ⟨hdone.p_eq, hdone.n_eq, hdone.buf_eq⟩

end Copying

end LatencyArb
