import LatencyArb.Library.LengthPrefix

/-!
# The frames of the cTrader stream (`send_frame` and `read_frame` of `src/ctrader_executor.cpp`)

A serialized message goes out behind its length in four bytes, the highest first.
-/

namespace LatencyArb

namespace CTrader

/-- The bytes `hdr[0]` to `hdr[3]`. -/
def frameHeader (n : Nat) : List UInt8 :=
  [UInt8.ofNat (n >>> 24), UInt8.ofNat (n >>> 16), UInt8.ofNat (n >>> 8), UInt8.ofNat n]

/-- The length that four bytes say. -/
def frameLength : List UInt8 → Nat
  | [b0, b1, b2, b3] => b0.toNat <<< 24 ||| b1.toNat <<< 16 ||| b2.toNat <<< 8 ||| b3.toNat
  | _ => 0

/-- The sanity cap of `read_frame`. -/
def acceptsLength (n : Nat) : Bool := decide (n ≠ 0 ∧ n ≤ 1 <<< 20)

/-- What `send_frame` writes: the length as a `uint32_t`, and so many bytes. -/
def sendFrame (payload : List UInt8) : List UInt8 :=
  frameHeader (payload.length % 2 ^ 32) ++ payload.take (payload.length % 2 ^ 32)

/-- `read_frame` on what arrives; `none` where it leaves `ok` false. -/
def readFrame (arriving : List (List UInt8)) : Option (List UInt8 × List (List UInt8)) :=
  (readExactly 4 arriving).bind (fun len =>
    if acceptsLength (frameLength len.1) then readExactly (frameLength len.1) len.2 else none)

/-- The payloads of so many calls of `read_frame`, up to the first that fails. -/
def readFrames : Nat → List (List UInt8) → List (List UInt8)
  | 0, _ => []
  | calls + 1, arriving =>
    match readFrame arriving with
    | none => []
    | some (payload, rest) => payload :: readFrames calls rest

/-! ## The length in four bytes -/

lemma frameLength_eq (b0 b1 b2 b3 : UInt8) : frameLength [b0, b1, b2, b3] =
    2 ^ 24 * b0.toNat + (2 ^ 16 * b1.toNat + (2 ^ 8 * b2.toNat + b3.toNat)) := by
  have h1 := b1.toNat_lt
  have h2 := b2.toNat_lt
  have h3 := b3.toNat_lt
  have hlow : 2 ^ 8 * b2.toNat + b3.toNat = b2.toNat <<< 8 ||| b3.toNat := by
    rw [Nat.two_pow_add_eq_or_of_lt (by omega), Nat.shiftLeft_eq, Nat.mul_comm]
  have hmiddle : 2 ^ 16 * b1.toNat + (2 ^ 8 * b2.toNat + b3.toNat) =
      b1.toNat <<< 16 ||| (b2.toNat <<< 8 ||| b3.toNat) := by
    rw [Nat.two_pow_add_eq_or_of_lt (by omega), Nat.shiftLeft_eq, Nat.mul_comm, hlow]
  rw [Nat.two_pow_add_eq_or_of_lt (by omega), hmiddle, frameLength, Nat.shiftLeft_eq, Nat.mul_comm]
  simp only [Nat.or_assoc]

lemma frameLength_frameHeader {n : Nat} (h : n < 2 ^ 32) : frameLength (frameHeader n) = n := by
  unfold frameHeader
  rw [frameLength_eq]
  simp only [UInt8.toNat_ofNat', Nat.shiftRight_eq_div_pow]
  omega

/-- The header of four bytes as a length prefix. -/
def framing : LengthPrefix UInt8 where
  width := 4
  bound := 2 ^ 32
  header := frameHeader
  size := frameLength
  accepts := acceptsLength
  width_pos := by decide
  length_header _ := rfl
  size_header _ h := frameLength_frameHeader h

lemma sendFrame_eq {payload : List UInt8} (h : payload.length < 2 ^ 32) : sendFrame payload = framing.frame payload := by
  unfold sendFrame LengthPrefix.frame
  rw [Nat.mod_eq_of_lt h, List.take_length]
  rfl

lemma readFrames_eq (calls : Nat) (arriving : List (List UInt8)) :
    readFrames calls arriving = framing.readMany calls arriving := by
  induction calls generalizing arriving with
  | zero => rfl
  | succ calls ih =>
    rw [readFrames, LengthPrefix.readMany]
    show (match framing.readFrame arriving with
      | none => []
      | some (payload, rest) => payload :: readFrames calls rest) = _
    cases framing.readFrame arriving with
    | none => rfl
    | some r => exact congrArg (r.1 :: ·) (ih r.2)

/-- The payloads whose frames arrive whole, up to the first that is empty or above the cap. -/
def arrived (k : Nat) (payloads : List (List UInt8)) : List (List UInt8) := framing.whole k payloads

/-- However the bytes of the frames are cut into pieces on their way, and wherever the connection breaks, so
many calls of `read_frame` return the first payloads that arrive whole and fit below the cap, unaltered and in
order, and nothing behind them. -/
theorem read_frames_arrived (payloads : List (List UInt8)) (hsizes : ∀ p ∈ payloads, p.length < 2 ^ 32) (k : Nat)
    (arriving : List (List UInt8)) (hcut : arriving.flatten = (payloads.flatMap sendFrame).take k) (calls : Nat) :
    readFrames calls arriving = (arrived k payloads).take calls := by
  have hsent : payloads.flatMap sendFrame = payloads.flatMap framing.frame :=
    List.flatMap_congr (fun p hp => sendFrame_eq (hsizes p hp))
  rw [hsent] at hcut
  rw [readFrames_eq]
  exact LengthPrefix.readMany_eq hsizes hcut calls

/-- Three messages in four pieces; the connection breaks inside the third. -/
theorem read_frames_arrived_cutShort :
    readFrames 5 [[0, 0], [0, 2, 7, 8, 0, 0, 0], [1], [9, 0, 0, 0, 3, 4]] =
      (arrived 16 [[7, 8], [9], [4, 5, 6]]).take 5 ∧
    arrived 16 [[7, 8], [9], [4, 5, 6]] = [[7, 8], [9]] :=
  ⟨read_frames_arrived [[7, 8], [9], [4, 5, 6]] (by decide) 16 _ (by decide) 5, by decide⟩

end CTrader

end LatencyArb
