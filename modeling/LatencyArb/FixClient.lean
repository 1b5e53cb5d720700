import LatencyArb.Strategy

/-!
# The FIX 4.4 client of the engine (`src/fix_client.cpp`)

A frame is the list of its tag-value fields in wire order, header and trailer included;
`fixText` is its bytes. The session thread is a step function whose events carry what the
socket answers and what the clocks show.
-/

namespace LatencyArb

abbrev FixFrame := List (Nat × String)

def fixText (fields : FixFrame) : String :=
  String.join (fields.map (fun f => toString f.1 ++ "=" ++ f.2 ++ "\x01"))

def checksum (text : String) : Nat := (text.toUTF8.toList.map UInt8.toNat).sum % 256

def FixFrame.value (frame : FixFrame) (tag : Nat) : Option String := frame.lookup tag

/-- `build_fix`; `sendingTime` is what `utc_now_str` returns. -/
def buildFix (msgType : Char) (body : FixFrame) (sender target : String) (seq : Int)
    (sendingTime : String) : FixFrame :=
  let hdr : FixFrame := [(35, String.singleton msgType), (49, sender), (56, target),
    (34, toString seq), (52, sendingTime)]
  let bodyLength := (fixText (hdr ++ body)).utf8ByteSize
  let msg : FixFrame := [(8, "FIX.4.4"), (9, toString bodyLength)] ++ hdr ++ body
  msg ++ [(10, padLeft 3 (toString (checksum (fixText msg))))]

def logon (cfg : Config) (seq : Int) (sendingTime : String) : FixFrame :=
  buildFix 'A' [(98, "0"), (108, toString CompileTime.kFIXHeartbeatS), (141, "Y")]
    cfg.fixSenderCompId cfg.fixTargetCompId seq sendingTime

def newOrderSingle (cfg : Config) (s : Signal) (seq : Int) (sendingTime : String) : FixFrame :=
  buildFix 'D'
    [(11, if s.reason = "" then "LEADLAG" else s.reason), (55, s.symbol),
     (54, if s.side = .buy then "1" else "2"),
     (38, toString (toLong (if 0 < cfg.tradeAmount then cfg.tradeAmount else 1))),
     (40, "1"), (59, "3"), (1, cfg.dryRunSymbol), (44, fixedPoint 6 s.lead)]
    cfg.fixSenderCompId cfg.fixTargetCompId seq sendingTime

def heartbeat (cfg : Config) (seq : Int) (sendingTime : String) : FixFrame :=
  buildFix '0' [] cfg.fixSenderCompId cfg.fixTargetCompId seq sendingTime

def FixFrame.IsNewOrder (frame : FixFrame) : Prop := frame.value 35 = some "D"

/-- A Logon or a Heartbeat. -/
def FixFrame.IsSession (frame : FixFrame) : Prop :=
  frame.value 35 = some "A" ∨ frame.value 35 = some "0"

lemma buildFix_msgType (msgType : Char) (body : FixFrame) (sender target : String) (seq : Int)
    (sendingTime : String) :
    (buildFix msgType body sender target seq sendingTime).value 35 =
      some (String.singleton msgType) := rfl

lemma newOrderSingle_isNewOrder (cfg : Config) (s : Signal) (seq : Int) (sendingTime : String) :
    (newOrderSingle cfg s seq sendingTime).IsNewOrder := buildFix_msgType ..

lemma logon_isSession (cfg : Config) (seq : Int) (sendingTime : String) :
    (logon cfg seq sendingTime).IsSession := .inl (buildFix_msgType ..)

lemma heartbeat_isSession (cfg : Config) (seq : Int) (sendingTime : String) :
    (heartbeat cfg seq sendingTime).IsSession := .inr (buildFix_msgType ..)

lemma FixFrame.IsNewOrder.not_isSession {frame : FixFrame} (h : frame.IsNewOrder) :
    ¬frame.IsSession := by
  unfold FixFrame.IsNewOrder at h
  unfold FixFrame.IsSession
  rw [h]
  decide

/-! ## The session thread -/

/-- Where the session thread stands: at the top of `session_loop`, in `connect_socket`, at the top of
the event loop, in the middle of the swapped batch, or at the heartbeat and timeout tests. -/
inductive FixPhase where
  | offline | connecting | drain | sending (batch : List Signal) | beat

/-- A frame handed to `send`, and whether the socket took all of it. -/
structure WrittenFrame where
  session : Nat
  frame : FixFrame
  complete : Bool

structure FixClient where
  running : Bool := true
  connected : Bool := false
  fdOpen : Bool := false
  seqOut : Int := 1
  orders : List Signal := []
  phase : FixPhase := .offline
  lastBeat : Int := 0
  lastRecv : Int := 0
  session : Nat := 0
  written : List WrittenFrame := []

inductive FixEvent where
  | attempt
  | connectFailed
  | connect (sent : Bool) (sendingTime : String)
  | swap
  | send (sent : Bool) (sendingTime : String)
  | beat (sent : Bool) (sendingTime : String)

/-- The events at which the session thread calls `now_ms`. -/
def FixEvent.readsClock : FixEvent → Bool
  | .connect sent _ => sent
  | .beat _ _ => true
  | _ => false

namespace FixClient

def sendOrder (c : FixClient) (s : Signal) : FixClient := { c with orders := c.orders ++ [s] }

/-- The event loop returns and `session_loop` closes the socket. -/
def close (c : FixClient) : FixClient :=
  { c with connected := false, fdOpen := false, phase := .offline }

def stop (c : FixClient) : FixClient :=
  { c with running := false, connected := false, fdOpen := false }

/-- `send_frame`, which gives up without a socket; `sent` is whether `send` takes the whole frame. -/
def sendFrame (c : FixClient) (frame : FixFrame) (sent : Bool) : FixClient × Bool :=
  if !c.fdOpen then (c, false)
  else ({ c with written := c.written ++ [⟨c.session, frame, sent⟩] }, sent)

def startSession (cfg : Config) (nowMs : Int) (c : FixClient) (sent : Bool) (sendingTime : String) :
    FixClient :=
  let opened := { c with session := c.session + 1, fdOpen := true }
  let r := opened.sendFrame (logon cfg c.seqOut sendingTime) sent
  if r.2 then
    { r.1 with connected := true, phase := .drain, lastBeat := nowMs, lastRecv := nowMs }
  else r.1.close

/-- One order of the batch; the rest of the batch is dropped with the local deque on a failure. -/
def sendNext (cfg : Config) (c : FixClient) (s : Signal) (rest : List Signal) (sent : Bool)
    (sendingTime : String) : FixClient :=
  let r := ({ c with seqOut := c.seqOut + 1 } : FixClient).sendFrame
    (newOrderSingle cfg s c.seqOut sendingTime) sent
  if r.2 then { r.1 with phase := .sending rest } else r.1.close

def timeoutCheck (nowMs : Int) (c : FixClient) : FixClient :=
  if CompileTime.kFIXHeartbeatS * 1500 < nowMs - c.lastRecv then c.close
  else { c with phase := .drain }

/-- The heartbeat on schedule, then the peer timeout unless the heartbeat failed. -/
def sendHeartbeat (cfg : Config) (nowMs : Int) (c : FixClient) (sent : Bool)
    (sendingTime : String) : FixClient :=
  if CompileTime.kFIXHeartbeatS * 1000 ≤ nowMs - c.lastBeat then
    let r := ({ c with seqOut := c.seqOut + 1 } : FixClient).sendFrame
      (heartbeat cfg c.seqOut sendingTime) sent
    if r.2 then ({ r.1 with lastBeat := nowMs } : FixClient).timeoutCheck nowMs else r.1.close
  else c.timeoutCheck nowMs

def step (cfg : Config) (nowMs : Int) (c : FixClient) : FixEvent → Option FixClient
  | .attempt =>
    match c.phase with
    | .offline =>
      if c.running then some { c with connected := false, phase := .connecting } else none
    | _ => none
  | .connectFailed =>
    match c.phase with
    | .connecting => some c.close
    | _ => none
  | .connect sent sendingTime =>
    match c.phase with
    | .connecting => some (c.startSession cfg nowMs sent sendingTime)
    | _ => none
  | .swap =>
    match c.phase with
    | .drain =>
      if c.running && c.connected then some { c with phase := .sending c.orders, orders := [] }
      else some c.close
    | _ => none
  | .send sent sendingTime =>
    match c.phase with
    | .sending [] => some { c with phase := .beat }
    | .sending (s :: rest) => some (c.sendNext cfg s rest sent sendingTime)
    | _ => none
  | .beat sent sendingTime =>
    match c.phase with
    | .beat => some (c.sendHeartbeat cfg nowMs sent sendingTime)
    | _ => none

/-! ## What an event can do -/

inductive Moves (cfg : Config) (nowMs : Int) (c : FixClient) : FixEvent → FixClient → Prop where
  | attempt (phase : c.phase = .offline) :
      Moves cfg nowMs c .attempt { c with connected := false, phase := .connecting }
  | connectFailed (phase : c.phase = .connecting) : Moves cfg nowMs c .connectFailed c.close
  | connect (sent : Bool) (sendingTime : String) (phase : c.phase = .connecting) :
      Moves cfg nowMs c (.connect sent sendingTime) (c.startSession cfg nowMs sent sendingTime)
  | swap (phase : c.phase = .drain) :
      Moves cfg nowMs c .swap { c with phase := .sending c.orders, orders := [] }
  | leave (phase : c.phase = .drain) : Moves cfg nowMs c .swap c.close
  | drained (sent : Bool) (sendingTime : String) (phase : c.phase = .sending []) :
      Moves cfg nowMs c (.send sent sendingTime) { c with phase := .beat }
  | send (s : Signal) (rest : List Signal) (sent : Bool) (sendingTime : String)
      (phase : c.phase = .sending (s :: rest)) :
      Moves cfg nowMs c (.send sent sendingTime) (c.sendNext cfg s rest sent sendingTime)
  | beat (sent : Bool) (sendingTime : String) (phase : c.phase = .beat) :
      Moves cfg nowMs c (.beat sent sendingTime) (c.sendHeartbeat cfg nowMs sent sendingTime)

theorem step_moves {cfg : Config} {nowMs : Int} {c c' : FixClient} {event : FixEvent}
    (hs : c.step cfg nowMs event = some c') : Moves cfg nowMs c event c' := by
  unfold step at hs
  split at hs
  · split at hs
    · split at hs <;> cases hs
      exact .attempt ‹_›
    · cases hs
  · split at hs <;> cases hs
    exact .connectFailed ‹_›
  · split at hs <;> cases hs
    exact .connect _ _ ‹_›
  · split at hs
    · split at hs <;> cases hs
      · exact .swap ‹_›
      · exact .leave ‹_›
    · cases hs
  · split at hs <;> cases hs
    · exact .drained _ _ ‹_›
    · exact .send _ _ _ _ ‹_›
  · split at hs <;> cases hs
    exact .beat _ _ ‹_›

lemma startSession_sent (cfg : Config) (nowMs : Int) (c : FixClient) (sendingTime : String) :
    c.startSession cfg nowMs true sendingTime =
      { c with
        session := c.session + 1
        fdOpen := true
        written := c.written ++ [⟨c.session + 1, logon cfg c.seqOut sendingTime, true⟩]
        connected := true
        phase := .drain
        lastBeat := nowMs
        lastRecv := nowMs } := by
  simp [startSession, sendFrame]

lemma startSession_failed (cfg : Config) (nowMs : Int) (c : FixClient) (sendingTime : String) :
    c.startSession cfg nowMs false sendingTime =
      close { c with
        session := c.session + 1
        written := c.written ++ [⟨c.session + 1, logon cfg c.seqOut sendingTime, false⟩] } := by
  simp [startSession, sendFrame, close]

lemma sendNext_closed {cfg : Config} {c : FixClient} {s : Signal} {rest : List Signal} {sent : Bool}
    {sendingTime : String} (h : c.fdOpen = false) :
    c.sendNext cfg s rest sent sendingTime = close { c with seqOut := c.seqOut + 1 } := by
  simp [sendNext, sendFrame, h]

lemma sendNext_sent {cfg : Config} {c : FixClient} {s : Signal} {rest : List Signal}
    {sendingTime : String} (h : c.fdOpen = true) :
    c.sendNext cfg s rest true sendingTime =
      { c with
        seqOut := c.seqOut + 1
        written := c.written ++ [⟨c.session, newOrderSingle cfg s c.seqOut sendingTime, true⟩]
        phase := .sending rest } := by
  simp [sendNext, sendFrame, h]

lemma sendNext_failed {cfg : Config} {c : FixClient} {s : Signal} {rest : List Signal}
    {sendingTime : String} (h : c.fdOpen = true) :
    c.sendNext cfg s rest false sendingTime =
      close { c with
        seqOut := c.seqOut + 1
        written := c.written ++ [⟨c.session, newOrderSingle cfg s c.seqOut sendingTime, false⟩] } := by
  simp [sendNext, sendFrame, h]

/-- A heartbeat is due. -/
def beatDue (nowMs : Int) (c : FixClient) : Prop :=
  CompileTime.kFIXHeartbeatS * 1000 ≤ nowMs - c.lastBeat

instance (nowMs : Int) (c : FixClient) : Decidable (c.beatDue nowMs) := by
  unfold beatDue
  infer_instance

lemma sendHeartbeat_idle {cfg : Config} {nowMs : Int} {c : FixClient} {sent : Bool}
    {sendingTime : String} (h : ¬c.beatDue nowMs) :
    c.sendHeartbeat cfg nowMs sent sendingTime = c.timeoutCheck nowMs := if_neg h

lemma sendHeartbeat_closed {cfg : Config} {nowMs : Int} {c : FixClient} {sent : Bool}
    {sendingTime : String} (hdue : c.beatDue nowMs) (h : c.fdOpen = false) :
    c.sendHeartbeat cfg nowMs sent sendingTime = close { c with seqOut := c.seqOut + 1 } := by
  unfold beatDue at hdue
  unfold sendHeartbeat
  rw [if_pos hdue]
  simp [sendFrame, h]

lemma sendHeartbeat_sent {cfg : Config} {nowMs : Int} {c : FixClient} {sendingTime : String}
    (hdue : c.beatDue nowMs) (h : c.fdOpen = true) :
    c.sendHeartbeat cfg nowMs true sendingTime =
      timeoutCheck nowMs { c with
        seqOut := c.seqOut + 1
        written := c.written ++ [⟨c.session, heartbeat cfg c.seqOut sendingTime, true⟩]
        lastBeat := nowMs } := by
  unfold beatDue at hdue
  unfold sendHeartbeat
  rw [if_pos hdue]
  simp [sendFrame, h]

lemma sendHeartbeat_failed {cfg : Config} {nowMs : Int} {c : FixClient} {sendingTime : String}
    (hdue : c.beatDue nowMs) (h : c.fdOpen = true) :
    c.sendHeartbeat cfg nowMs false sendingTime =
      close { c with
        seqOut := c.seqOut + 1
        written := c.written ++ [⟨c.session, heartbeat cfg c.seqOut sendingTime, false⟩] } := by
  unfold beatDue at hdue
  unfold sendHeartbeat
  rw [if_pos hdue]
  simp [sendFrame, h]

lemma timeoutCheck_keeps (nowMs : Int) (c : FixClient) :
    (c.timeoutCheck nowMs).written = c.written ∧ (c.timeoutCheck nowMs).session = c.session ∧
      (c.timeoutCheck nowMs).seqOut = c.seqOut ∧ (c.timeoutCheck nowMs).orders = c.orders ∧
      ((c.timeoutCheck nowMs).fdOpen = true → c.fdOpen = true) ∧
      ((c.timeoutCheck nowMs).phase = .drain ∨ (c.timeoutCheck nowMs).phase = .offline) := by
  unfold timeoutCheck
  split <;> simp [close]

end FixClient

end LatencyArb
