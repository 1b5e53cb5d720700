import LatencyArb.Library.ReceiveBuffer
import LatencyArb.Wire.QuoteFrame

/-!
# The receive loops (`src/broker_sub.cpp`, `src/mt5_bridge.cpp`)

`BrokerSub` and `Mt5Bridge` receive each message into a buffer on their stack and go on with the size that
`zmq_recv` returns. The loops keep the indices at which they write or read their buffer.
-/

namespace LatencyArb

open Numeral Wire

/-- What a call of `zmq_recv` meets: a message, the end of the context, or another error. -/
inductive Delivery where
  | message (bytes : List UInt8)
  | terminated
  | transient

def Delivery.message? : Delivery → Option (List UInt8)
  | message bytes => some bytes
  | _ => none

/-- Whether `zmq_errno` is `ETERM`. -/
def Delivery.isTerm : Delivery → Bool
  | terminated => true
  | _ => false

/-! ## `BrokerSub::run` -/

structure BrokerLoop where
  buf : Vector UInt8 4096
  running : Bool := true
  writes : List Nat := []
  pushed : List WireQuote := []

namespace BrokerLoop

/-- The bytes that `zmq_recv` copies. -/
def copy (s : BrokerLoop) (bytes : List UInt8) : BrokerLoop :=
  { s with buf := blit bytes s.buf, writes := s.writes ++ List.range bytes.length }

/-- `buf[n] = '\0'`. Beyond the buffer nothing is written, but the index is kept. -/
def terminate (s : BrokerLoop) (n : Nat) : BrokerLoop :=
  { s with buf := s.buf.setIfInBounds n 0, writes := s.writes ++ [n] }

def parse (topic : List UInt8) (s : BrokerLoop) : BrokerLoop :=
  { s with pushed := s.pushed ++ (readQuote topic (cString s.buf.toList)).toList }

/-- What follows a call that returned `n` and copied these bytes. -/
def goOn (topic : List UInt8) (s : BrokerLoop) (isTerm : Bool) (n : Int) (bytes : List UInt8) : BrokerLoop :=
  if n < 0 then { s.copy bytes with running := !isTerm }
  else ((s.copy bytes).terminate n.toNat).parse topic

def iteration (recv : Receive) (topic : List UInt8) (s : BrokerLoop) (d : Delivery) : BrokerLoop :=
  if s.running then
    s.goOn topic d.isTerm (recv d.message? 4095).1 (recv d.message? 4095).2
  else s

def run (recv : Receive) (topic : List UInt8) (s : BrokerLoop) (ds : List Delivery) : BrokerLoop :=
  ds.foldl (iteration recv topic) s

/-- Every index that was written lies inside the buffer. -/
def InRange (s : BrokerLoop) : Prop := ∀ i ∈ s.writes, i < 4096

end BrokerLoop

/-! ## `Mt5Bridge::run` -/

structure BridgeLoop where
  buf : Vector UInt8 1024
  reads : List Nat := []
  executed : List ExecSignal := []

namespace BridgeLoop

def copy (s : BridgeLoop) (bytes : List UInt8) : BridgeLoop := { s with buf := blit bytes s.buf }

def execute (s : BridgeLoop) : Bool × ExecSignal → BridgeLoop
  | (false, _) => s
  | (true, sig) => { s with executed := s.executed ++ [sig] }

/-- The frame of the first `n` bytes is read from the buffer and parsed. -/
def parse (s : BridgeLoop) (n : Nat) : BridgeLoop :=
  ({ s with reads := s.reads ++ List.range n } : BridgeLoop).execute
    (decodeSignal (s.buf.toList.take n))

def goOn (s : BridgeLoop) (n : Int) (bytes : List UInt8) : BridgeLoop :=
  if n ≤ 0 then s.copy bytes else (s.copy bytes).parse n.toNat

def iteration (recv : Receive) (s : BridgeLoop) (d : Delivery) : BridgeLoop :=
  s.goOn (recv d.message? 1023).1 (recv d.message? 1023).2

def run (recv : Receive) (s : BridgeLoop) (ds : List Delivery) : BridgeLoop := ds.foldl (iteration recv) s

/-- Every index that was read lies inside the buffer. -/
def InRange (s : BridgeLoop) : Prop := ∀ i ∈ s.reads, i < 1024

end BridgeLoop

variable {recv : Receive} {topic : List UInt8}

/-! ## What an iteration does -/

namespace BrokerLoop

/-- The messages received before the context ends. -/
def received : List Delivery → List (List UInt8)
  | [] => []
  | .message bytes :: ds => bytes :: received ds
  | .transient :: ds => received ds
  | .terminated :: _ => []

lemma iteration_message (hrecv : recv.Documented) {s : BrokerLoop} (hs : s.running = true) (msg : List UInt8) :
    s.iteration recv topic (.message msg) =
      ((s.copy (msg.take 4095)).terminate (Receive.sizeOf msg)).parse topic := by
  have hsize : ¬((Receive.sizeOf msg : Int) < 0) := Int.not_lt.mpr (Int.natCast_nonneg _)
  unfold iteration
  rw [if_pos hs]
  show s.goOn topic false (recv (some msg) 4095).1 (recv (some msg) 4095).2 = _
  rw [hrecv.message]
  unfold goOn
  rw [if_neg hsize, Int.toNat_natCast]

lemma iteration_failure (hrecv : recv.Documented) {s : BrokerLoop} (hs : s.running = true) {d : Delivery}
    (hd : d.message? = none) : s.iteration recv topic d =
      { s.copy (recv none 4095).2 with running := !d.isTerm } := by
  have hfailure : (recv none 4095).1 < 0 := by
    rw [(hrecv.failure 4095).1]
    decide
  unfold iteration
  rw [if_pos hs, hd]
  unfold goOn
  rw [if_pos hfailure]

lemma iteration_stopped {s : BrokerLoop} (hs : s.running = false) (d : Delivery) :
    s.iteration recv topic d = s := by
  unfold iteration
  rw [hs]
  exact if_neg (by decide)

lemma copy_inRange (s : BrokerLoop) {bytes : List UInt8} (h : bytes.length ≤ 4095) :
    (s.copy bytes).InRange ↔ s.InRange := by
  have hrange : ∀ i ∈ List.range bytes.length, i < 4096 := by
    intro i hi
    have hlt := List.mem_range.mp hi
    omega
  show (∀ i ∈ s.writes ++ List.range bytes.length, i < 4096) ↔ _
  rw [List.forall_mem_append]
  exact and_iff_left hrange

lemma terminate_inRange (s : BrokerLoop) (n : Nat) : (s.terminate n).InRange ↔ s.InRange ∧ n < 4096 := by
  show (∀ i ∈ s.writes ++ [n], i < 4096) ↔ _
  rw [List.forall_mem_append, List.forall_mem_singleton]
  rfl

/-- A message that fits with its NUL is parsed up to its first NUL. -/
lemma iteration_pushed (hrecv : recv.Documented) {s : BrokerLoop} (hs : s.running = true) {msg : List UInt8}
    (h : msg.length ≤ 4095) : (s.iteration recv topic (.message msg)).pushed =
      s.pushed ++ (readQuote topic (cString msg)).toList := by
  obtain ⟨rest, hbuf⟩ := toList_terminated (Nat.lt_succ_of_le h) s.buf
  have htext : cString (msg ++ 0 :: rest) = cString msg := takeWhile_nul msg rest (by decide)
  rw [iteration_message hrecv hs, List.take_of_length_le h, Receive.sizeOf_eq (by decide) h]
  show s.pushed ++ (readQuote topic
    (cString ((blit msg s.buf).setIfInBounds msg.length 0).toList)).toList = _
  rw [hbuf, htext]

lemma iteration_inRange (hrecv : recv.Documented) {s : BrokerLoop} (hs : s.running = true)
    (msg : List UInt8) :
    (s.iteration recv topic (.message msg)).InRange ↔ s.InRange ∧ msg.length ≤ 4095 := by
  rw [iteration_message hrecv hs]
  show ((s.copy (msg.take 4095)).terminate (Receive.sizeOf msg)).InRange ↔ _
  rw [terminate_inRange, copy_inRange s (List.length_take_le 4095 msg), Nat.lt_succ_iff,
    Receive.sizeOf_le_iff (by decide)]

lemma run_stopped {s : BrokerLoop} (hs : s.running = false) (ds : List Delivery) :
    s.run recv topic ds = s := by
  induction ds with
  | nil => rfl
  | cons d ds ih =>
    show (s.iteration recv topic d).run recv topic ds = s
    rw [iteration_stopped hs, ih]

/-- The writes of a run lie inside the buffer exactly when every message leaves room for a NUL. -/
theorem run_inRange_iff (hrecv : recv.Documented) {s : BrokerLoop} (hs : s.running = true)
    (ds : List Delivery) :
    (s.run recv topic ds).InRange ↔ s.InRange ∧ ∀ msg ∈ received ds, msg.length ≤ 4095 := by
  induction ds generalizing s with
  | nil => simp [run, received]
  | cons d ds ih =>
    show ((s.iteration recv topic d).run recv topic ds).InRange ↔ _
    cases d with
    | message msg =>
      have hrunning : (s.iteration recv topic (.message msg)).running = true := by
        rw [iteration_message hrecv hs]
        exact hs
      rw [ih hrunning, iteration_inRange hrecv hs, received, List.forall_mem_cons, and_assoc]
    | transient =>
      rw [iteration_failure hrecv hs rfl, ih rfl, received]
      exact and_congr_left (fun _ => copy_inRange s (hrecv.failure 4095).2)
    | terminated =>
      rw [iteration_failure hrecv hs rfl, run_stopped rfl, received]
      show (s.copy (recv none 4095).2).InRange ↔ _
      rw [copy_inRange s (hrecv.failure 4095).2]
      simp

end BrokerLoop

namespace BridgeLoop

/-- The bridge goes on when the context ends. -/
def received (ds : List Delivery) : List (List UInt8) := ds.filterMap Delivery.message?

lemma iteration_message (hrecv : recv.Documented) (s : BridgeLoop) (msg : List UInt8) :
    s.iteration recv (.message msg) = s.goOn (Receive.sizeOf msg : Nat) (msg.take 1023) := by
  show s.goOn (recv (some msg) 1023).1 (recv (some msg) 1023).2 = _
  rw [hrecv.message]

lemma iteration_failure (hrecv : recv.Documented) (s : BridgeLoop) {d : Delivery}
    (hd : d.message? = none) : s.iteration recv d = s.copy (recv none 1023).2 := by
  have hfailure : (recv none 1023).1 ≤ 0 := by
    rw [(hrecv.failure 1023).1]
    decide
  unfold iteration
  rw [hd]
  exact if_pos hfailure

lemma execute_reads (s : BridgeLoop) (decoded : Bool × ExecSignal) : (s.execute decoded).reads = s.reads := by
  obtain ⟨accepted, sig⟩ := decoded
  cases accepted <;> rfl

lemma goOn_reads (s : BridgeLoop) (n : Nat) (bytes : List UInt8) :
    (s.goOn n bytes).reads = s.reads ++ List.range n := by
  unfold goOn
  by_cases hn : (n : Int) ≤ 0
  · have hzero : n = 0 := by omega
    rw [if_pos hn, hzero]
    exact (List.append_nil _).symm
  · rw [if_neg hn, Int.toNat_natCast, parse, execute_reads]
    rfl

lemma iteration_inRange (hrecv : recv.Documented) (s : BridgeLoop) (msg : List UInt8) :
    (s.iteration recv (.message msg)).InRange ↔ s.InRange ∧ msg.length ≤ 1024 := by
  have hrange : (∀ i ∈ List.range (Receive.sizeOf msg), i < 1024) ↔ Receive.sizeOf msg ≤ 1024 := by
    constructor
    · intro h
      by_contra hbeyond
      have hlast := h 1024 (List.mem_range.mpr (not_le.mp hbeyond))
      omega
    · intro h i hi
      have hlt := List.mem_range.mp hi
      omega
  unfold InRange
  rw [iteration_message hrecv, goOn_reads, List.forall_mem_append, hrange, Receive.sizeOf_le_iff (by decide)]

/-- A message that is copied whole is parsed as it is. -/
lemma iteration_executed (hrecv : recv.Documented) (s : BridgeLoop) {msg : List UInt8} (hne : msg ≠ [])
    (h : msg.length ≤ 1023) {sig : ExecSignal} (hdecode : decodeSignal msg = (true, sig)) :
    (s.iteration recv (.message msg)).executed = s.executed ++ [sig] := by
  have hpos : ¬((msg.length : Int) ≤ 0) := by
    have hlength := List.length_pos_iff.mpr hne
    omega
  have hframe : (blit msg s.buf).toList.take msg.length = msg := by
    rw [toList_blit (by omega), List.take_left]
  rw [iteration_message hrecv, List.take_of_length_le h, Receive.sizeOf_eq (by decide) h]
  unfold goOn
  rw [if_neg hpos, Int.toNat_natCast]
  unfold parse
  show (execute _ (decodeSignal ((blit msg s.buf).toList.take msg.length))).executed = _
  rw [hframe, hdecode]
  rfl

/-- The bridge executes what `publish_signal` sends of a plain signal. -/
theorem iteration_executes_plain (hrecv : recv.Documented) (loop : BridgeLoop) {s : WireSignal} (h : s.Plain)
    (hlead : ∀ q, s.lead = .finite q → 1 / 10 ^ 6 ≤ q) {text : List UInt8}
    (htext : Wire.encodeSignal s 320 = some text) :
    (loop.iteration recv (.message text)).executed = loop.executed ++ [h.frame.signal] := by
  have hlength : s.text.length < 320 := by
    by_contra hlong
    rw [(encodeSignal_eq_none h.text_short 320).mpr (by omega)] at htext
    cases htext
  have hne : s.text ≠ [] := by
    have htopic : bytesOf "signal|" ≠ [] := by decide +kernel
    unfold WireSignal.text
    simp only [List.append_assoc]
    exact List.append_ne_nil_of_left_ne_nil htopic _
  have hdecode : decodeSignal s.text = (true, h.frame.signal) := by
    rw [← h.frame_text, decodeSignal_text, h.lead_isPos hlead]
  rw [encodeSignal_eq_some htext]
  exact iteration_executed hrecv loop hne (by omega) hdecode

/-- The reads of a run lie inside the buffer exactly when no message is longer than the buffer. -/
theorem run_inRange_iff (hrecv : recv.Documented) (s : BridgeLoop) (ds : List Delivery) :
    (s.run recv ds).InRange ↔ s.InRange ∧ ∀ msg ∈ received ds, msg.length ≤ 1024 := by
  induction ds generalizing s with
  | nil => simp [run, received]
  | cons d ds ih =>
    show ((s.iteration recv d).run recv ds).InRange ↔ _
    rw [ih]
    cases d with
    | message msg =>
      have hreceived : received (.message msg :: ds) = msg :: received ds := rfl
      rw [iteration_inRange hrecv, hreceived, List.forall_mem_cons, and_assoc]
    | transient =>
      rw [iteration_failure hrecv s rfl]
      rfl
    | terminated =>
      rw [iteration_failure hrecv s rfl]
      rfl

end BridgeLoop

/-- Whatever messages the two loops receive: they write and read inside their buffers exactly when no
message of the broker is longer than 4095 bytes and none of the engine is longer than 1024. -/
theorem receive_in_range_iff {recv : Receive} (hrecv : recv.Documented) (topic : List UInt8)
    (brokerBuf : Vector UInt8 4096) (bridgeBuf : Vector UInt8 1024) (quotes signals : List Delivery) :
    ((BrokerLoop.run recv topic { buf := brokerBuf } quotes).InRange ∧
      (BridgeLoop.run recv { buf := bridgeBuf } signals).InRange) ↔
    (∀ msg ∈ BrokerLoop.received quotes, msg.length ≤ 4095) ∧
      ∀ msg ∈ BridgeLoop.received signals, msg.length ≤ 1024 := by
  have hbroker : ({ buf := brokerBuf } : BrokerLoop).InRange := by simp [BrokerLoop.InRange]
  have hbridge : ({ buf := bridgeBuf } : BridgeLoop).InRange := by simp [BridgeLoop.InRange]
  rw [BrokerLoop.run_inRange_iff hrecv rfl, BridgeLoop.run_inRange_iff hrecv]
  simp only [hbroker, hbridge, true_and]

def zeroBroker : BrokerLoop := { buf := Vector.replicate 4096 0 }

def zeroBridge : BridgeLoop := { buf := Vector.replicate 1024 0 }

theorem short_messages_in_range :
    (zeroBroker.run Receive.exact (bytesOf "quote")
      [Delivery.message (bytesOf "quote|99,100,1,1000,150,1"), .transient, .terminated]).InRange ∧
    (zeroBridge.run Receive.exact
      [Delivery.message (bytesOf "signal|BUY,lead_gt_ask,102,99,100,1,1,1000"), .terminated]).InRange :=
  (receive_in_range_iff Receive.exact_documented (bytesOf "quote") (Vector.replicate 4096 0)
    (Vector.replicate 1024 0)
    [Delivery.message (bytesOf "quote|99,100,1,1000,150,1"), .transient, .terminated]
    [Delivery.message (bytesOf "signal|BUY,lead_gt_ask,102,99,100,1,1,1000"), .terminated]).mpr
    (by decide +kernel)

/-- A message under this topic, filled up with the digit 0. -/
def filledMessage (topic : String) (length : Nat) : List UInt8 :=
  bytesOf topic ++ List.replicate (length - (bytesOf topic).length) 48

lemma filledMessage_length {topic : String} {length : Nat} (h : (bytesOf topic).length ≤ length) :
    (filledMessage topic length).length = length := by
  unfold filledMessage
  rw [List.length_append, List.length_replicate]
  omega

/-- A quote message of 4096 bytes puts the NUL behind the buffer; of a signal message of 1025 bytes one byte
is read from behind it. -/
theorem long_messages_out_of_range :
    Receive.exact.Documented ∧
    (filledMessage "quote|" 4096).length = 4096 ∧
    ¬(zeroBroker.run Receive.exact (bytesOf "quote")
      [Delivery.message (filledMessage "quote|" 4096)]).InRange ∧
    (filledMessage "signal|" 1025).length = 1025 ∧
    ¬(zeroBridge.run Receive.exact [Delivery.message (filledMessage "signal|" 1025)]).InRange := by
  have hquote := filledMessage_length (by decide +kernel : (bytesOf "quote|").length ≤ 4096)
  have hsignal := filledMessage_length (by decide +kernel : (bytesOf "signal|").length ≤ 1025)
  refine ⟨Receive.exact_documented, hquote, ?_, hsignal, ?_⟩
  · rw [BrokerLoop.run_inRange_iff Receive.exact_documented rfl]
    rintro ⟨-, hfits⟩
    have hlength := hfits (filledMessage "quote|" 4096) List.mem_cons_self
    omega
  · rw [BridgeLoop.run_inRange_iff Receive.exact_documented]
    rintro ⟨-, hfits⟩
    have hlength := hfits (filledMessage "signal|" 1025) List.mem_cons_self
    omega

end LatencyArb
