import Mathlib

/-!
# Messages received into a buffer

A receive call copies what there is room for of a message, but returns the size of the whole message. A
caller that takes this size for the end of the copied bytes may go beyond its buffer.
-/

namespace LatencyArb

/-- A receive call: for the next message, if there is one, and the room that is offered, what it returns and
the bytes it copies to the front of the buffer. -/
abbrev Receive := Option (List UInt8) → Nat → Int × List UInt8

namespace Receive

/-- What an `int` says of a size. -/
def sizeOf (msg : List UInt8) : Nat := min msg.length (2 ^ 31 - 1)

/-- The documented behaviour of the call. -/
structure Documented (recv : Receive) : Prop where
  message : ∀ msg room, recv (some msg) room = ((sizeOf msg : Int), msg.take room)
  failure : ∀ room, (recv none room).1 = -1 ∧ (recv none room).2.length ≤ room

/-- The call that copies nothing when it fails. -/
def exact : Receive
  | some msg, room => ((sizeOf msg : Int), msg.take room)
  | none, _ => (-1, [])

lemma exact_documented : exact.Documented where
  message _ _ := rfl
  failure _ := ⟨rfl, Nat.zero_le _⟩

lemma sizeOf_le_iff {msg : List UInt8} {bound : Nat} (h : bound < 2 ^ 31 - 1) :
    sizeOf msg ≤ bound ↔ msg.length ≤ bound := by
  unfold sizeOf
  omega

lemma sizeOf_eq {msg : List UInt8} {bound : Nat} (hbound : bound < 2 ^ 31 - 1) (h : msg.length ≤ bound) :
    sizeOf msg = msg.length := by
  unfold sizeOf
  omega

end Receive

/-! ## The buffer -/

variable {size : Nat}

/-- The bytes replace the front of the buffer. -/
def blit (bytes : List UInt8) (buf : Vector UInt8 size) : Vector UInt8 size :=
  ⟨((bytes ++ buf.toList.drop bytes.length).take size).toArray, by
    rw [List.size_toArray, List.length_take, List.length_append, List.length_drop, Vector.length_toList]
    omega⟩

lemma toList_blit {bytes : List UInt8} (h : bytes.length ≤ size) (buf : Vector UInt8 size) :
    (blit bytes buf).toList = bytes ++ buf.toList.drop bytes.length := by
  show (bytes ++ buf.toList.drop bytes.length).take size = _
  apply List.take_of_length_le
  rw [List.length_append, List.length_drop, Vector.length_toList]
  omega

lemma blit_nil {buf : Vector UInt8 size} : blit [] buf = buf := by
  rw [← Vector.toList_inj, toList_blit (Nat.zero_le _)]
  rfl

/-- One more byte is written behind the others. -/
lemma blit_concat {bytes : List UInt8} {b : UInt8} (h : bytes.length < size) {buf : Vector UInt8 size} :
    (blit bytes buf).setIfInBounds bytes.length b = blit (bytes ++ [b]) buf := by
  have hrest : bytes.length < buf.toList.length := by simpa using h
  have hboth : (bytes ++ [b]).length ≤ size := by
    rw [List.length_append, List.length_singleton]
    exact h
  rw [← Vector.toList_inj, Vector.toList_setIfInBounds, toList_blit h.le, toList_blit hboth,
    List.set_append_right _ _ le_rfl, Nat.sub_self, List.drop_eq_getElem_cons hrest, List.set_cons_zero,
    List.length_append, List.length_singleton, List.append_assoc, List.singleton_append]

/-- A NUL at the end of the copied bytes leaves them in front of it. -/
lemma toList_terminated {bytes : List UInt8} (h : bytes.length < size) (buf : Vector UInt8 size) :
    ∃ rest, ((blit bytes buf).setIfInBounds bytes.length 0).toList = bytes ++ 0 :: rest := by
  refine ⟨buf.toList.drop (bytes.length + 1), ?_⟩
  rw [blit_concat h, toList_blit (by simpa using h), List.length_append, List.length_singleton,
    List.append_assoc, List.singleton_append]

end LatencyArb
