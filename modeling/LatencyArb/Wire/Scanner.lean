import LatencyArb.Library.BoundedCopy
import LatencyArb.Library.EarlyReturn
import LatencyArb.Wire.Codec

/-!
# The signal decoder on memory (`src/wire.cpp`)

`decode_signal` as it moves a pointer over the memory that the frame stands in, of which every byte has a value,
in the frame and behind it. It keeps its accesses: the bytes of the frame it reads, what it writes, and the
arrays it passes to `strtod` and `atoll`.
-/

namespace LatencyArb

open Numeral

namespace Wire

/-- What is written to: the out-parameter as a whole, its members, and the arrays on the stack. -/
inductive Place where
  | out | tsMs | lead | brokerBid | brokerAsk | threshold | edge | side | valid | reason | symbol
  | num | tsNum
  deriving DecidableEq

/-- The `sizeof` of a place; the members of `ExecSignal` are packed. -/
def Place.size : Place → Nat
  | out => 90
  | tsMs | lead | brokerBid | brokerAsk | threshold | edge => 8
  | side | valid => 1
  | reason => 24
  | symbol => 16
  | num => 48
  | tsNum => 32

inductive Access where
  | read (i : Nat)
  | write (place : Place) (first count : Nat)
  /-- A call of `strtod` or `atoll` on an array with this content. -/
  | parse (place : Place) (text : List UInt8)
  deriving DecidableEq

/-- The doubles among the members. -/
inductive PriceField where
  | lead | brokerBid | brokerAsk | threshold | edge

def PriceField.place : PriceField → Place
  | lead => .lead
  | brokerBid => .brokerBid
  | brokerAsk => .brokerAsk
  | threshold => .threshold
  | edge => .edge

/-- An `ExecSignal` as it lies in memory, filled with zeros. -/
structure SignalPod where
  tsMs : Int := 0
  lead : Double := .finite 0
  brokerBid : Double := .finite 0
  brokerAsk : Double := .finite 0
  threshold : Double := .finite 0
  edge : Double := .finite 0
  side : Nat := 0
  valid : Nat := 0
  reason : Vector UInt8 24 := Vector.replicate 24 0
  symbol : Vector UInt8 16 := Vector.replicate 16 0

def SignalPod.setPrice (out : SignalPod) (f : PriceField) (v : Double) : SignalPod :=
  match f with
  | .lead => { out with lead := v }
  | .brokerBid => { out with brokerBid := v }
  | .brokerAsk => { out with brokerAsk := v }
  | .threshold => { out with threshold := v }
  | .edge => { out with edge := v }

/-- What the arrays on the stack hold before they are written. -/
structure Stack where
  num : PriceField → Vector UInt8 48
  tsNum : Vector UInt8 32

/-- The bytes from the pointer to the end, as a `size_t`. -/
def remaining (len p : Nat) : Nat := (((len : Int) - p) % 2 ^ 64).toNat

structure FrameScan where
  p : Nat := 0
  out : SignalPod := {}
  accesses : List Access := []

namespace FrameScan

def note (s : FrameScan) (a : Access) : FrameScan := { s with accesses := s.accesses ++ [a] }

def skip (s : FrameScan) (n : Nat) : FrameScan := { s with p := s.p + n }

variable (frame : Nat → UInt8) (len : Nat)

/-- The comparison with a literal, where there are enough bytes. `strncmp` may read as many as the literal
has. -/
def startsWith (lit : List UInt8) (s : FrameScan) : Bool × FrameScan :=
  if lit.length ≤ remaining len s.p then
    (decide ((List.range' s.p lit.length).map frame = lit),
      { s with accesses := s.accesses ++ (List.range' s.p lit.length).map .read })
  else (false, s)

def skipBar (s : FrameScan) : FrameScan :=
  if s.p < len then
    if frame s.p = 124 then (s.note (.read s.p)).skip 1 else s.note (.read s.p)
  else s

/-- The topic and the bar after it, each where it is there. -/
def skipTopic (s : FrameScan) : FrameScan :=
  let topic := s.startsWith frame len (bytesOf "signal")
  (if topic.1 then topic.2.skip 6 else topic.2).skipBar frame len

def setSide (s : FrameScan) (side : Nat) : FrameScan :=
  ({ s with out := { s.out with side := side } } : FrameScan).note (.write .side 0 1)

def readSide : Passage FrameScan := fun s =>
  let buy := s.startsWith frame len (bytesOf "BUY")
  if buy.1 then (true, (buy.2.setSide 1).skip 3)
  else
    let sell := buy.2.startsWith frame len (bytesOf "SELL")
    if sell.1 then (true, (sell.2.setSide 2).skip 4) else (false, sell.2)

def pastComma : Passage FrameScan := fun s =>
  if len ≤ s.p then (false, s)
  else if frame s.p ≠ comma then (false, s.note (.read s.p))
  else (true, (s.note (.read s.p)).skip 1)

/-- The loop that copies up to a comma, into an array that holds `buf`. -/
def copyField {size : Nat} (s : FrameScan) (buf : Vector UInt8 size) : Copying size :=
  Copying.run frame len comma { p := s.p, buf := buf }

/-- The scan after such a loop. -/
def copied {size : Nat} (s : FrameScan) (place : Place) (c : Copying size) : FrameScan :=
  { s with
    p := c.p
    accesses := s.accesses ++ (c.reads.map .read ++ c.writes.map (fun i => .write place i 1)) }

def setReason (s : FrameScan) (buf : Vector UInt8 24) : FrameScan :=
  { s with out := { s.out with reason := buf } }

def endReason (s : FrameScan) (i : Nat) : FrameScan :=
  (s.setReason (s.out.reason.setIfInBounds i 0)).note (.write .reason i 1)

def readReason : Passage FrameScan := fun s =>
  let c := s.copyField frame len s.out.reason
  (Passage.andThen (pastComma frame len) (Passage.always (fun s => s.endReason c.n)))
    ((s.copied .reason c).setReason c.buf)

/-- `strtod` of the digits, into a member. -/
def setPrice (s : FrameScan) (f : PriceField) (n : Nat) (num : Vector UInt8 48) : FrameScan :=
  let num := num.setIfInBounds n 0
  let s := (s.note (.write .num n 1)).note (.parse .num num.toList)
  ({ s with out := s.out.setPrice f (strtod (cString num.toList)) } : FrameScan).note (.write f.place 0 8)

def nextNum (stack : Stack) (f : PriceField) : Passage FrameScan := fun s =>
  let c := s.copyField frame len (stack.num f)
  (Passage.andThen (pastComma frame len) (Passage.always (fun s => s.setPrice f c.n c.buf))) (s.copied .num c)

/-- `atoll` of the digits. -/
def setTs (s : FrameScan) (n : Nat) (num : Vector UInt8 32) : FrameScan :=
  let num := num.setIfInBounds n 0
  let s := (s.note (.write .tsNum n 1)).note (.parse .tsNum num.toList)
  ({ s with out := { s.out with tsMs := atoll (cString num.toList) } } : FrameScan).note (.write .tsMs 0 8)

def readTs (stack : Stack) (s : FrameScan) : FrameScan :=
  let c := s.copyField frame len stack.tsNum
  (s.copied .tsNum c).setTs c.n c.buf

def finish (s : FrameScan) : FrameScan :=
  let out := { s.out with symbol := blit (bytesOf "BTC/USD" ++ [0]) s.out.symbol, valid := 1 }
  (({ s with out := out } : FrameScan).note (.write .symbol 0 8)).note (.write .valid 0 1)

/-- What follows the test of the pointer to the frame. -/
def passages (stack : Stack) : List (Passage FrameScan) := [
  .always (skipTopic frame len), readSide frame len, pastComma frame len, readReason frame len,
  nextNum frame len stack .lead, nextNum frame len stack .brokerBid, nextNum frame len stack .brokerAsk,
  nextNum frame len stack .threshold, nextNum frame len stack .edge,
  .always (readTs frame len stack), .always finish]

/-- After the `memset` of the out-parameter. -/
def start : FrameScan := { accesses := [.write .out 0 90, .write .valid 0 1] }

/-- `decode_signal` of the memory from `frame` on, which may be null: what it returns, its out-parameter and
its accesses. -/
def decodeSignal (frame : Option (Nat → UInt8)) (len : Nat) (stack : Stack) : Bool × FrameScan :=
  match frame with
  | none => (false, start)
  | some frame =>
    let r := Passage.all (passages frame len stack) start
    (r.1 && (decide (r.2.out.side ≠ 0) && r.2.out.lead.isPos), r.2)

end FrameScan

/-! ## Bounds -/

/-- Of the frame only its bytes are read. What is written lies inside its place, and begins at an index only in
the reason and in the digit buffers. What is passed on holds a NUL. -/
def Access.InBounds (len : Nat) : Access → Prop
  | read i => i < len
  | write place first count => first + count ≤ place.size ∧ (first = 0 ∨ place ∈ [.reason, .num, .tsNum])
  | parse place text => place ∈ [.num, .tsNum] ∧ text.length = place.size ∧ 0 ∈ text

namespace FrameScan

variable {frame : Nat → UInt8} {len : Nat} {s : FrameScan}

structure Safe (len : Nat) (s : FrameScan) : Prop where
  p_le : s.p ≤ len
  accesses : ∀ a ∈ s.accesses, a.InBounds len

lemma Safe.note (h : s.Safe len) {a : Access} (ha : a.InBounds len) : (s.note a).Safe len where
  p_le := h.p_le
  accesses := by
    show ∀ b ∈ s.accesses ++ [a], b.InBounds len
    rw [List.forall_mem_append, List.forall_mem_singleton]
    exact ⟨h.accesses, ha⟩

lemma Safe.skip (h : s.Safe len) {n : Nat} (hn : s.p + n ≤ len) : (s.skip n).Safe len where
  p_le := hn
  accesses := h.accesses

lemma Safe.setOut (h : s.Safe len) (out : SignalPod) : ({ s with out := out } : FrameScan).Safe len where
  p_le := h.p_le
  accesses := h.accesses

/-- The subtraction does not wrap as long as the pointer is not behind the end. -/
lemma le_of_le_remaining {p n : Nat} (hp : p ≤ len) (h : n ≤ remaining len p) : p + n ≤ len := by
  unfold remaining at h
  omega

@[simp] lemma startsWith_p {lit : List UInt8} : (s.startsWith frame len lit).2.p = s.p := by
  unfold startsWith
  split <;> rfl

lemma Safe.startsWith (h : s.Safe len) (lit : List UInt8) : (s.startsWith frame len lit).2.Safe len := by
  unfold FrameScan.startsWith
  split
  · rename_i hfits
    have hle := le_of_le_remaining h.p_le hfits
    refine ⟨h.p_le, ?_⟩
    show ∀ a ∈ s.accesses ++ (List.range' s.p lit.length).map .read, a.InBounds len
    rw [List.forall_mem_append]
    refine ⟨h.accesses, ?_⟩
    intro a ha
    obtain ⟨i, hi, rfl⟩ := List.mem_map.mp ha
    have hlt := (List.mem_range'_1.mp hi).2
    show i < len
    omega
  · exact h

lemma Safe.skip_startsWith (h : s.Safe len) {lit : List UInt8} (hlit : (s.startsWith frame len lit).1 = true) :
    s.p + lit.length ≤ len := by
  unfold FrameScan.startsWith at hlit
  split at hlit
  · rename_i hfits
    exact le_of_le_remaining h.p_le hfits
  · cases hlit

lemma Safe.read (h : s.Safe len) (hp : s.p < len) : (s.note (.read s.p)).Safe len := h.note hp

lemma skipBar_safe (h : s.Safe len) : (s.skipBar frame len).Safe len := by
  unfold skipBar
  split
  · rename_i hp
    split
    · exact (h.read hp).skip hp
    · exact h.read hp
  · exact h

lemma skipTopic_safe (h : s.Safe len) : (s.skipTopic frame len).Safe len := by
  have hsignal : (bytesOf "signal").length = 6 := by decide +kernel
  apply skipBar_safe
  split
  · rename_i hlit
    have hle := h.skip_startsWith hlit
    apply (h.startsWith _).skip
    rw [startsWith_p]
    omega
  · exact h.startsWith _

lemma Safe.setSide (h : s.Safe len) (side : Nat) : (s.setSide side).Safe len :=
  (h.setOut _).note ⟨by decide, .inl rfl⟩

lemma readSide_safe : Passage.Keeps (Safe len) (readSide frame len) := by
  have hbuyLength : (bytesOf "BUY").length = 3 := by decide +kernel
  have hsellLength : (bytesOf "SELL").length = 4 := by decide +kernel
  intro s h
  have hbuy : (s.startsWith frame len (bytesOf "BUY")).2.Safe len := h.startsWith _
  unfold readSide
  dsimp only
  split
  · rename_i hlit
    have hle := h.skip_startsWith hlit
    apply (hbuy.setSide 1).skip
    show (s.startsWith frame len (bytesOf "BUY")).2.p + 3 ≤ len
    rw [startsWith_p]
    omega
  · split
    · rename_i hlit
      have hle := hbuy.skip_startsWith hlit
      apply ((hbuy.startsWith _).setSide 2).skip
      show ((s.startsWith frame len (bytesOf "BUY")).2.startsWith frame len (bytesOf "SELL")).2.p + 4 ≤ len
      rw [startsWith_p]
      omega
    · exact hbuy.startsWith _

lemma pastComma_safe : Passage.Keeps (Safe len) (pastComma frame len) := by
  intro s h
  unfold pastComma
  split
  · exact h
  · rename_i hp
    have hlt : s.p < len := not_le.mp hp
    split
    · exact h.read hlt
    · exact (h.read hlt).skip hlt

section Copied

variable {size : Nat}

/-- The loop reads inside the frame and writes inside the array. -/
lemma copyField_sound (h : s.Safe len) (hsize : 0 < size) (buf : Vector UInt8 size) :
    (s.copyField frame len buf).Sound len :=
  Copying.Sound.run ⟨h.p_le, hsize, by simp, by simp⟩

lemma Safe.copied (h : s.Safe len) {place : Place} (hplace : place ∈ [.reason, .num, .tsNum])
    {c : Copying place.size} (hc : c.Sound len) : (s.copied place c).Safe len where
  p_le := hc.p_le
  accesses := by
    show ∀ a ∈ s.accesses ++ (c.reads.map .read ++ c.writes.map (fun i => .write place i 1)), a.InBounds len
    rw [List.forall_mem_append, List.forall_mem_append, List.forall_mem_map, List.forall_mem_map]
    exact ⟨h.accesses, hc.reads, fun i hi => ⟨hc.writes i hi, .inr hplace⟩⟩

/-- The array holds a NUL once it has been ended. -/
lemma zero_mem_ended {buf : Vector UInt8 size} {n : Nat} (h : n < size) :
    0 ∈ (buf.setIfInBounds n 0).toList := by
  rw [Vector.toList_setIfInBounds]
  exact List.mem_set (by simpa using h) 0

/-- The digits are ended, and passed on. -/
lemma Safe.parsed (h : s.Safe len) {place : Place} (hplace : place ∈ [.num, .tsNum])
    {buf : Vector UInt8 place.size} {n : Nat} (hn : n < place.size) :
    ((s.note (.write place n 1)).note (.parse place (buf.setIfInBounds n 0).toList)).Safe len := by
  have hwritten : Access.InBounds len (.write place n 1) := ⟨hn, .inr (List.mem_cons_of_mem _ hplace)⟩
  exact (h.note hwritten).note ⟨hplace, Vector.length_toList, zero_mem_ended hn⟩

end Copied

lemma Safe.endReason (h : s.Safe len) {i : Nat} (hi : i < 24) : (s.endReason i).Safe len :=
  (h.setOut _).note ⟨hi, .inr (by decide)⟩

lemma readReason_safe : Passage.Keeps (Safe len) (readReason frame len) := by
  intro s h
  have hc : (s.copyField frame len s.out.reason).Sound len := copyField_sound h (by decide) _
  have hcopied : (s.copied .reason (s.copyField frame len s.out.reason)).Safe len :=
    h.copied (by decide) hc
  exact pastComma_safe.andThen (Passage.Keeps.always (fun t ht => ht.endReason hc.n_lt)) _ (hcopied.setOut _)

lemma Safe.setPrice (h : s.Safe len) (f : PriceField) {n : Nat} (hn : n < 48) (num : Vector UInt8 48) :
    (s.setPrice f n num).Safe len := by
  have hplace : f.place.size = 8 := by cases f <;> rfl
  have hparsed : ((s.note (.write .num n 1)).note (.parse .num (num.setIfInBounds n 0).toList)).Safe len :=
    h.parsed (by decide) hn
  exact (hparsed.setOut _).note ⟨hplace.ge, .inl rfl⟩

lemma nextNum_safe (stack : Stack) (f : PriceField) : Passage.Keeps (Safe len) (nextNum frame len stack f) := by
  intro s h
  have hc : (s.copyField frame len (stack.num f)).Sound len := copyField_sound h (by decide) _
  have hcopied : (s.copied .num (s.copyField frame len (stack.num f))).Safe len := h.copied (by decide) hc
  exact pastComma_safe.andThen (Passage.Keeps.always (fun t ht => ht.setPrice f hc.n_lt _)) _ hcopied

lemma Safe.setTs (h : s.Safe len) {n : Nat} (hn : n < 32) (num : Vector UInt8 32) :
    (s.setTs n num).Safe len := by
  have hparsed : ((s.note (.write .tsNum n 1)).note
      (.parse .tsNum (num.setIfInBounds n 0).toList)).Safe len := h.parsed (by decide) hn
  exact (hparsed.setOut _).note ⟨by decide, .inl rfl⟩

lemma readTs_safe (stack : Stack) (h : s.Safe len) : (s.readTs frame len stack).Safe len := by
  have hc : (s.copyField frame len stack.tsNum).Sound len := copyField_sound h (by decide) _
  have hcopied : (s.copied .tsNum (s.copyField frame len stack.tsNum)).Safe len := h.copied (by decide) hc
  exact hcopied.setTs hc.n_lt _

lemma finish_safe (h : s.Safe len) : s.finish.Safe len :=
  ((h.setOut _).note (a := .write .symbol 0 8) ⟨by decide, .inl rfl⟩).note ⟨by decide, .inl rfl⟩

lemma start_safe : start.Safe len where
  p_le := Nat.zero_le len
  accesses := by
    show ∀ a ∈ [Access.write .out 0 90, .write .valid 0 1], a.InBounds len
    simp [Access.InBounds, Place.size]

lemma passages_safe (stack : Stack) : ∀ f ∈ passages frame len stack, Passage.Keeps (Safe len) f := by
  simp only [passages, List.forall_mem_cons, List.not_mem_nil, false_imp_iff, implies_true, and_true]
  exact ⟨Passage.Keeps.always (fun _ => skipTopic_safe), readSide_safe, pastComma_safe, readReason_safe,
    nextNum_safe stack _, nextNum_safe stack _, nextNum_safe stack _, nextNum_safe stack _, nextNum_safe stack _,
    Passage.Keeps.always (fun _ => readTs_safe stack), Passage.Keeps.always (fun _ => finish_safe)⟩

theorem decodeSignal_safe (frame : Option (Nat → UInt8)) (len : Nat) (stack : Stack) :
    (decodeSignal frame len stack).2.Safe len := by
  cases frame with
  | none => exact start_safe
  | some frame => exact Passage.Keeps.all (passages_safe stack) start start_safe

/-- Whatever the frame and its length, and whatever stands behind it: only its bytes are read; every write lies
inside `out`, one of its members or a digit buffer, and writes at an index lie inside the reason or a digit
buffer; `strtod` and `atoll` are given digit buffers that hold a NUL. -/
theorem decode_in_bounds (frame : Option (Nat → UInt8)) (len : Nat) (stack : Stack) :
    (∀ i, Access.read i ∈ (decodeSignal frame len stack).2.accesses → i < len) ∧
    (∀ place first count, Access.write place first count ∈ (decodeSignal frame len stack).2.accesses →
      first + count ≤ place.size ∧ (first = 0 ∨ place ∈ [.reason, .num, .tsNum])) ∧
    ∀ place text, Access.parse place text ∈ (decodeSignal frame len stack).2.accesses →
      place ∈ [.num, .tsNum] ∧ text.length = place.size ∧ 0 ∈ text := by
  have hsafe := (decodeSignal_safe frame len stack).accesses
  exact ⟨fun i => hsafe (.read i), fun place first count => hsafe (.write place first count),
    fun place text => hsafe (.parse place text)⟩

/-- A memory with no NUL behind this text. -/
def memoryOf (text : String) : Nat → UInt8 := fun i => (bytesOf text).getD i 255

def zeroStack : Stack where
  num _ := Vector.replicate 48 0
  tsNum := Vector.replicate 32 0

/-- A frame that is accepted has its side and its symbol written, after all of `out`. -/
theorem writes_besides_reason :
    (decodeSignal (some (memoryOf "BUY,x,1,2,3,4,5,6")) 17 zeroStack).1 = true ∧
    Access.write .out 0 90 ∈ (decodeSignal (some (memoryOf "BUY,x,1,2,3,4,5,6")) 17 zeroStack).2.accesses ∧
    Access.write .side 0 1 ∈ (decodeSignal (some (memoryOf "BUY,x,1,2,3,4,5,6")) 17 zeroStack).2.accesses ∧
    Access.write .symbol 0 8 ∈
      (decodeSignal (some (memoryOf "BUY,x,1,2,3,4,5,6")) 17 zeroStack).2.accesses ∧
    ¬∀ place first count, Access.write place first count ∈
      (decodeSignal (some (memoryOf "BUY,x,1,2,3,4,5,6")) 17 zeroStack).2.accesses →
        place ∈ [.reason, .num, .tsNum] := by
  have hsymbol : Access.write .symbol 0 8 ∈
      (decodeSignal (some (memoryOf "BUY,x,1,2,3,4,5,6")) 17 zeroStack).2.accesses := by decide +kernel
  refine ⟨by decide +kernel, by decide +kernel, by decide +kernel, hsymbol, ?_⟩
  intro hall
  exact absurd (hall _ _ _ hsymbol) (by decide)

end FrameScan

end Wire

end LatencyArb
