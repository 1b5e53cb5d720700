import Mathlib

/-!
# Frames behind their length

A frame is a header of fixed width that says a length, and a payload of that length. The frames arrive in
pieces that need not end where a frame ends, and the stream may be cut anywhere.
-/

namespace LatencyArb

variable {α : Type}

/-- Reads `n` items from what arrives piece by piece. -/
def readExactly : Nat → List (List α) → Option (List α × List (List α))
  | n, [] => if n = 0 then some ([], []) else none
  | n, piece :: pieces =>
    if n ≤ piece.length then some (piece.take n, piece.drop n :: pieces)
    else (readExactly (n - piece.length) pieces).map (fun r => (piece ++ r.1, r.2))

/-- The cuts between the pieces do not matter. -/
lemma readExactly_of_le {n : Nat} {pieces : List (List α)} (h : n ≤ pieces.flatten.length) :
    ∃ rest, readExactly n pieces = some (pieces.flatten.take n, rest) ∧ rest.flatten = pieces.flatten.drop n := by
  induction pieces generalizing n with
  | nil =>
    obtain rfl : n = 0 := Nat.le_zero.mp h
    exact ⟨[], rfl, rfl⟩
  | cons piece pieces ih =>
    rw [List.flatten_cons, List.length_append] at h
    rw [readExactly, List.flatten_cons]
    by_cases hpiece : n ≤ piece.length
    · rw [if_pos hpiece, List.take_append_of_le_length hpiece, List.drop_append_of_le_length hpiece]
      exact ⟨_, rfl, List.flatten_cons⟩
    · obtain ⟨rest, hread, hrest⟩ := ih (by omega : n - piece.length ≤ pieces.flatten.length)
      have hlong : piece.length ≤ n := (not_le.mp hpiece).le
      rw [if_neg hpiece, hread, Option.map_some, List.take_append, List.drop_append,
        List.take_of_length_le hlong, List.drop_of_length_le hlong, List.nil_append]
      exact ⟨rest, rfl, hrest⟩

lemma readExactly_of_lt {n : Nat} {pieces : List (List α)} (h : pieces.flatten.length < n) :
    readExactly n pieces = none := by
  induction pieces generalizing n with
  | nil => exact if_neg (by omega)
  | cons piece pieces ih =>
    rw [List.flatten_cons, List.length_append] at h
    rw [readExactly, if_neg (by omega), ih (by omega), Option.map_none]

/-- Headers of one width, each of which says a length below the bound. -/
structure LengthPrefix (α : Type) where
  width : Nat
  bound : Nat
  header : Nat → List α
  size : List α → Nat
  accepts : Nat → Bool
  width_pos : 0 < width
  length_header : ∀ n, (header n).length = width
  size_header : ∀ n, n < bound → size (header n) = n

namespace LengthPrefix

variable (P : LengthPrefix α)

def frame (payload : List α) : List α := P.header payload.length ++ payload

/-- Reads a header and, where it accepts the length, the payload. -/
def readFrame (pieces : List (List α)) : Option (List α × List (List α)) :=
  (readExactly P.width pieces).bind (fun head =>
    if P.accepts (P.size head.1) then readExactly (P.size head.1) head.2 else none)

/-- The payloads of so many calls, up to the first that fails. -/
def readMany : Nat → List (List α) → List (List α)
  | 0, _ => []
  | calls + 1, pieces =>
    match P.readFrame pieces with
    | none => []
    | some (payload, rest) => payload :: readMany calls rest

/-- The payloads whose frames lie within the first `k` items, up to the first that is not accepted. -/
def whole : Nat → List (List α) → List (List α)
  | _, [] => []
  | k, payload :: payloads =>
    if P.accepts payload.length = true ∧ P.width + payload.length ≤ k then
      payload :: whole (k - (P.width + payload.length)) payloads
    else []

variable {P} {payload : List α} {payloads pieces : List (List α)} {k : Nat}

lemma readFrame_of_lt (h : pieces.flatten.length < P.width) : P.readFrame pieces = none := by
  unfold readFrame
  rw [readExactly_of_lt h]
  rfl

/-- What a call makes of a stream that is cut behind the header of a frame. -/
lemma readFrame_header {later : List α} (hsize : payload.length < P.bound)
    (hpieces : pieces.flatten = P.header payload.length ++ later) :
    (P.accepts payload.length = true → payload.length ≤ later.length →
      ∃ rest, P.readFrame pieces = some (later.take payload.length, rest) ∧
        rest.flatten = later.drop payload.length) ∧
    (P.accepts payload.length = false ∨ later.length < payload.length → P.readFrame pieces = none) := by
  have hwidth := P.length_header payload.length
  have hroom : P.width ≤ pieces.flatten.length := by
    rw [hpieces, List.length_append]
    omega
  obtain ⟨rest, hread, hrest⟩ := readExactly_of_le hroom
  rw [hpieces, ← hwidth, List.take_left] at hread
  rw [hpieces, ← hwidth, List.drop_left] at hrest
  unfold readFrame
  rw [← hwidth, hread, Option.bind_some]
  dsimp only
  rw [P.size_header payload.length hsize]
  constructor
  · intro haccepts hlater
    rw [if_pos haccepts, ← hrest]
    exact readExactly_of_le (hrest ▸ hlater)
  · rintro (hrejects | hshort)
    · rw [if_neg (Bool.eq_false_iff.mp hrejects)]
    · split
      · exact readExactly_of_lt (hrest ▸ hshort)
      · rfl

/-- However the stream arrives and wherever it is cut, the calls return the payloads that lie in it whole. -/
theorem readMany_eq (hsizes : ∀ payload ∈ payloads, payload.length < P.bound)
    (hpieces : pieces.flatten = (payloads.flatMap P.frame).take k) (calls : Nat) :
    P.readMany calls pieces = (P.whole k payloads).take calls := by
  induction calls generalizing payloads pieces k with
  | zero => rfl
  | succ calls ih =>
    rw [readMany]
    cases payloads with
    | nil =>
      rw [List.flatMap_nil, List.take_nil] at hpieces
      rw [readFrame_of_lt (by rw [hpieces]; exact P.width_pos)]
      rfl
    | cons payload payloads =>
      rw [List.forall_mem_cons] at hsizes
      have hwidth := P.length_header payload.length
      rw [List.flatMap_cons, frame, List.append_assoc] at hpieces
      rw [whole]
      by_cases hhead : P.width ≤ k
      · rw [List.take_append, List.take_of_length_le (by omega), hwidth] at hpieces
        obtain ⟨hsome, hnone⟩ := readFrame_header hsizes.1 hpieces
        by_cases hframe : P.accepts payload.length = true ∧ P.width + payload.length ≤ k
        · have hlater : payload.length ≤ ((payload ++ payloads.flatMap P.frame).take (k - P.width)).length := by
            rw [List.length_take, List.length_append]
            omega
          obtain ⟨rest, hread, hrest⟩ := hsome hframe.1 hlater
          rw [List.take_take, min_eq_left (by omega), List.take_left] at hread
          rw [List.drop_take, List.drop_left, Nat.sub_sub] at hrest
          rw [if_pos hframe, hread]
          dsimp only
          rw [ih hsizes.2 hrest, List.take_succ_cons]
        · have hrejected : P.accepts payload.length = false ∨
              ((payload ++ payloads.flatMap P.frame).take (k - P.width)).length < payload.length := by
            by_cases haccepts : P.accepts payload.length = true
            · have hcut : ¬P.width + payload.length ≤ k := fun hle => hframe ⟨haccepts, hle⟩
              right
              rw [List.length_take]
              omega
            · exact .inl (Bool.eq_false_iff.mpr haccepts)
          rw [if_neg hframe, hnone hrejected]
          rfl
      · have hshort : pieces.flatten.length < P.width := by
          rw [hpieces, List.length_take]
          omega
        rw [if_neg (by omega), readFrame_of_lt hshort]
        rfl

end LengthPrefix

end LatencyArb
