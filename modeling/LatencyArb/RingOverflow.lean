import LatencyArb.Ring

/-!
# What a ring hands out over a history with overflows

A push on a full ring loses everything unread, so later reads go on from later pushes only.
The items popped, followed by those unread at the end, are therefore a subsequence of the items
pushed.
-/

namespace LatencyArb

namespace SpscRing

variable {T : Type} {capacity : Nat}

def pushed (calls : List (QueueCall T)) : List T :=
  calls.filterMap (fun
    | .push item => some item
    | .pop => none)

/-- The items handed out by the pops that succeeded. -/
def popped (replies : List (QueueReply T)) : List T :=
  replies.filterMap (fun
    | .pushed _ => none
    | .popped item => item)

@[simp] lemma pushed_push (item : T) (calls : List (QueueCall T)) :
    pushed (.push item :: calls) = item :: pushed calls := rfl

@[simp] lemma pushed_pop (calls : List (QueueCall T)) : pushed (.pop :: calls) = pushed calls := rfl

@[simp] lemma popped_pushed (kept : Bool) (replies : List (QueueReply T)) :
    popped (.pushed kept :: replies) = popped replies := rfl

@[simp] lemma popped_none (replies : List (QueueReply T)) :
    popped (.popped none :: replies) = popped replies := rfl

@[simp] lemma popped_some (item : T) (replies : List (QueueReply T)) :
    popped (.popped (some item) :: replies) = item :: popped replies := rfl

section Exec

variable [Inhabited T] [NeZero capacity] (hpow : capacity &&& (capacity - 1) = 0)

theorem exec_sublist (r : SpscRing T capacity) (calls : List (QueueCall T)) :
    (popped ((component hpow).exec r calls).2 ++ ((component hpow).exec r calls).1.unread).Sublist
      (r.unread ++ pushed calls) := by
  induction calls generalizing r with
  | nil =>
    rw [Component.exec, pushed, popped, List.filterMap_nil, List.filterMap_nil, List.nil_append,
      List.append_nil]
  | cons call calls ih =>
    cases call with
    | push item =>
      have hrest := ih (r.push item).1
      rw [Component.exec, step_push, popped_pushed, pushed_push]
      by_cases hroom : r.count < capacity - 1
      · rw [(r.push_unread item hroom).1, List.append_assoc] at hrest
        exact hrest
      · rw [(r.push_full_unread item hroom).1, List.nil_append] at hrest
        have hlater := (hrest.cons item).trans (List.sublist_append_right r.unread _)
        exact hlater
    | pop =>
      rw [Component.exec, step_pop, pushed_pop]
      cases hunread : r.unread with
      | nil =>
        have hrest := ih r
        rw [hunread] at hrest
        rw [r.pop_of_unread_nil hunread, popped_none]
        exact hrest
      | cons item rest =>
        obtain ⟨htail, hitem⟩ := r.pop_of_unread_cons hunread
        have hrest := ih r.pop.1
        rw [htail] at hrest
        rw [hitem, popped_some, List.cons_append, List.cons_append]
        exact hrest.cons_cons item

/-- Reading on from any state hands out the unread items, oldest first, and then nothing. -/
theorem exec_pops (r : SpscRing T capacity) (n : Nat) :
    popped ((component hpow).exec r (List.replicate n .pop)).2 = r.unread.take n := by
  induction n generalizing r with
  | zero => simp [Component.exec, popped]
  | succ n ih =>
    rw [List.replicate_succ, Component.exec, step_pop]
    cases hunread : r.unread with
    | nil =>
      have hrest := ih r
      rw [r.pop_of_unread_nil hunread, popped_none, hrest, hunread, List.take_nil, List.take_nil]
    | cons item rest =>
      obtain ⟨htail, hitem⟩ := r.pop_of_unread_cons hunread
      rw [hitem, popped_some, ih r.pop.1, htail, List.take_succ_cons]

end Exec

lemma dvd_word {k : Nat} (hk : k < 64) : 2 ^ (k + 1) ∣ 2 ^ 64 := Nat.pow_dvd_pow 2 (by omega)

/-- For every capacity `2 ^ (k + 1)` of a `std::size_t` and every history of complete calls: the
items popped sit at strictly increasing places among the items pushed, and `size` is the number of
further pops that succeed, however many are tried. -/
theorem history_pops_in_push_order [Inhabited T] (k : Nat) (hk : k < 63)
    (calls : List (QueueCall T)) :
    (∃ place : Fin (popped (history k calls).2).length → Fin (pushed calls).length,
      StrictMono place ∧ ∀ i, (popped (history k calls).2).get i = (pushed calls).get (place i)) ∧
    ∀ n, (popped ((component (two_pow_isPow2 k)).exec (history k calls).1
      (List.replicate n .pop)).2).length = min n (history k calls).1.size := by
  constructor
  · have hsub := exec_sublist (two_pow_isPow2 k) (init (two_pow_isPow2 k)) calls
    rw [init_unread, List.nil_append] at hsub
    have hpopped : (popped (history k calls).2).Sublist (pushed calls) :=
      (List.sublist_append_left _ _).trans hsub
    obtain ⟨place, hplace⟩ := List.sublist_iff_exists_fin_orderEmbedding_get_eq.mp hpopped
    exact ⟨place, place.strictMono, hplace⟩
  · intro n
    rw [exec_pops, List.length_take, unread_length, size_eq_count (dvd_word (by omega))]

/-- Four slots: the fourth push loses the first four items, and the pop hands out the fifth. -/
theorem history_pops_in_push_order_four_slots :
    popped (history 1 [.push 1, .push 2, .push 3, .push 4, .push 5, .pop]).2 = [5] ∧
    (∃ place : Fin (popped (history 1 [.push 1, .push 2, .push 3, .push 4, .push 5, .pop]).2).length →
        Fin (pushed [.push 1, .push 2, .push 3, .push 4, .push 5, .pop]).length,
      StrictMono place ∧ ∀ i,
        (popped (history 1 [.push 1, .push 2, .push 3, .push 4, .push 5, .pop]).2).get i =
          (pushed [.push 1, .push 2, .push 3, .push 4, .push 5, .pop]).get (place i)) :=
  ⟨by decide, (history_pops_in_push_order 1 (by decide)
    [.push 1, .push 2, .push 3, .push 4, .push 5, .pop]).1⟩

end SpscRing

end LatencyArb
