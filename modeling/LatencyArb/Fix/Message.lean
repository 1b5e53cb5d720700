import LatencyArb.Config
import LatencyArb.Library.Decimal
import LatencyArb.Library.Search

/-!
# The FIX 4.4 messages of the executor (`src/fix_executor.cpp`)

A message is the list of its fields in wire order, header and trailer included; `Message.bytes` is
its text. Inbound frames are bytes, and `scanTag` reads them.
-/

namespace LatencyArb

namespace Fix

abbrev Bytes := List UInt8

def ascii (s : String) : Bytes := s.toUTF8.data.toList

def soh : UInt8 := 1

def kMaxMsgLen : Nat := 2 ^ 20

def kDefaultHbMs : Int := 30000

abbrev Message := List (Nat × Bytes)

def fixField (tag : Nat) (v : Bytes) : Bytes := ascii (toString tag) ++ ascii "=" ++ v ++ [soh]

def Message.bytes (m : Message) : Bytes := m.flatMap (fun field => fixField field.1 field.2)

def Message.value (m : Message) (tag : Nat) : Option Bytes := m.lookup tag

def fmtQty (q : ℚ) : Bytes := ascii (generalFormat q)

/-! ## The messages it builds -/

structure OrderJob where
  instrument : String
  side : String
  volume : ℚ
  stopPrice : ℚ
  takePrice : ℚ
  orderId : Nat
  clOrdId : String
  t0Ms : Int
  deriving DecidableEq

/-- `build_msg`; `seq` is the number it takes from `seq_out_`, `sendingTime` what `utc_now` returns. -/
def buildMsg (cfg : Config) (msgType : Char) (body : Message) (seq : Nat) (sendingTime : String) :
    Message :=
  let hdr : Message := [(35, ascii (String.singleton msgType)), (49, ascii cfg.fixSenderCompId),
    (56, ascii cfg.fixTargetCompId), (34, ascii (toString seq)), (52, ascii sendingTime)]
  let blen := (Message.bytes (hdr ++ body)).length
  let msg : Message := [(8, ascii "FIX.4.4"), (9, ascii (toString blen))] ++ hdr ++ body
  let sum := (msg.bytes.map UInt8.toNat).sum
  msg ++ [(10, ascii (padLeft 3 (toString (sum % 256))))]

def buildLogon (cfg : Config) (seq : Nat) (sendingTime : String) : Message :=
  buildMsg cfg 'A'
    [(98, ascii "0"), (108, ascii (toString (if 0 < cfg.fixHeartbeatS then cfg.fixHeartbeatS else 30))),
     (141, ascii "Y"), (553, ascii cfg.fixAccountId), (554, ascii cfg.fixPassword)] seq sendingTime

def buildLogout (cfg : Config) (seq : Nat) (sendingTime : String) : Message :=
  buildMsg cfg '5' [(58, ascii "client shutting down, bye")] seq sendingTime

def buildHeartbeat (cfg : Config) (testReqId : Bytes) (seq : Nat) (sendingTime : String) : Message :=
  buildMsg cfg '0' (if testReqId = [] then [] else [(112, testReqId)]) seq sendingTime

def buildOrder (cfg : Config) (job : OrderJob) (transactTime : String) (seq : Nat)
    (sendingTime : String) : Message :=
  buildMsg cfg 'D'
    ([(11, ascii job.clOrdId), (1, ascii cfg.fixAccountId), (55, ascii job.instrument),
      (54, ascii (if job.side = "buy" then "1" else "2")), (38, fmtQty job.volume), (40, ascii "1"),
      (59, ascii "3"), (60, ascii transactTime)] ++
     (if 0 < job.stopPrice then [(99, ascii (fixedPoint 5 job.stopPrice))] else []) ++
     (if 0 < job.takePrice then [(100, ascii (fixedPoint 5 job.takePrice))] else [])) seq sendingTime

def buildResendRequest (cfg : Config) (beginSeq : Nat) (seq : Nat) (sendingTime : String) : Message :=
  buildMsg cfg '3' [(7, ascii (toString beginSeq)), (8, ascii "0")] seq sendingTime

lemma buildMsg_type (cfg : Config) (msgType : Char) (body : Message) (seq : Nat)
    (sendingTime : String) :
    (buildMsg cfg msgType body seq sendingTime).value 35 = some (ascii (String.singleton msgType)) :=
  rfl

lemma buildMsg_seq (cfg : Config) (msgType : Char) (body : Message) (seq : Nat)
    (sendingTime : String) :
    (buildMsg cfg msgType body seq sendingTime).value 34 = some (ascii (toString seq)) := rfl

/-! ## Reading a frame -/

def isDigits (s : Bytes) : Bool := !s.isEmpty && s.all (fun c => decide (48 ≤ c ∧ c ≤ 57))

/-- The number a text of digits stands for. -/
def digitsValue (s : Bytes) : Nat := s.foldl (fun n c => 10 * n + (c.toNat - 48)) 0

/-- `atol` of a text of digits, which stops at the largest `long`. -/
def atol (s : Bytes) : Nat := min (digitsValue s) (2 ^ 63 - 1)

/-- `atoi` of a text of digits: the `long` reduced to an `int`. -/
def atoi (s : Bytes) : Int := (atol s : Int).bmod (2 ^ 32)

def scanTagFuel : Nat → Bytes → Nat → Bytes
  | 0, _, _ => []
  | fuel + 1, f, tag =>
    match findSub (ascii "=") f with
    | none => []
    | some eq =>
      let rest := f.drop (eq + 1)
      let found := isDigits (f.take eq) && decide (atoi (f.take eq) = tag)
      match findSub [soh] rest with
      | none => if found then rest else []
      | some n => if found then rest.take n else scanTagFuel fuel (rest.drop (n + 1)) tag

def scanTag (f : Bytes) (tag : Nat) : Bytes := scanTagFuel f.length f tag

structure ExecutionResult where
  ok : Bool := false
  status : String := ""
  orderId : Nat := 0
  clOrdId : Bytes := []
  brokerOrderId : Bytes := []
  latencyMs : Int := 0
  error : Bytes := []
  deriving DecidableEq

/-- What `on_execution_report` makes of a report on the job, where the report is terminal. -/
def executionResult (job : OrderJob) (frame : Bytes) (nowMs : Int) : Option ExecutionResult :=
  let exectype := scanTag frame 150
  let r : ExecutionResult :=
    { orderId := job.orderId
      clOrdId := scanTag frame 11
      brokerOrderId := scanTag frame 37
      latencyMs := nowMs - job.t0Ms }
  if exectype = ascii "2" then some { r with status := "FILLED", ok := true }
  else if exectype = ascii "1" then some { r with status := "PARTIAL", ok := true }
  else if exectype = ascii "8" ∨ exectype = ascii "3" ∨ scanTag frame 39 = ascii "8" then
    some { r with status := "REJECTED", error := scanTag frame 58 }
  else if exectype = ascii "4" then some { r with status := "CANCELED" }
  else if exectype = ascii "0" then some { r with status := "NEW", ok := true }
  else none

end Fix

end LatencyArb
