import LatencyArb.LiveRuns
import LatencyArb.Routes
import LatencyArb.Subscribers
import LatencyArb.ZmqPub

/-!
# The way of a signal to its execution (`src/execution.cpp`, `src/zmq_pub.cpp`, `src/mt5_bridge.cpp`)

The engine, its publisher, the messages on their way and the bridge as one machine. What the dispatcher
publishes goes into the mailbox of `ZmqPub`; frames may get lost behind `zmq_send`; the bridge reads what
arrives and routes it to the terminal DLL or to the socket of the bridge EA.
-/

namespace LatencyArb

open Numeral Wire

/-! ## The two backends of the bridge -/

/-- What `try_dll_execute` meets: no DLL with a terminal behind it, or what `MTSendOrder` returned. -/
inductive DllReply where
  | unusable
  | returned (rc : Int)

/-- What `try_socket_execute` meets: no connection, or what `send` returned. -/
inductive SocketReply where
  | unreachable
  | sent (n : Int)

/-- A signal that the bridge has handed to a backend, and the answer. -/
inductive Handed where
  | dll (rc : Int) (sig : ExecSignal)
  | socket (n : Int) (sig : ExecSignal)

/-- The size of the packed struct. -/
def sizeofExecSignal : Int := 90

namespace Handed

def sig : Handed → ExecSignal
  | dll _ sig => sig
  | socket _ sig => sig

/-- Whether the backend took the signal, as the bridge sees it. -/
def taken : Handed → Bool
  | dll rc _ => decide (rc = 0)
  | socket n _ => decide (n = sizeofExecSignal)

end Handed

def tryDllExecute (sig : ExecSignal) : DllReply → Bool × List Handed
  | .unusable => (false, [])
  | .returned rc => (decide (rc = 0), [.dll rc sig])

def trySocketExecute (sig : ExecSignal) : SocketReply → Bool × List Handed
  | .unreachable => (false, [])
  | .sent n => (decide (n = sizeofExecSignal), [.socket n sig])

/-- `if (!try_dll_execute(sig)) try_socket_execute(sig);` -/
def routeOrder (dll : DllReply) (socket : SocketReply) (sig : ExecSignal) : List Handed :=
  if (tryDllExecute sig dll).1 then (tryDllExecute sig dll).2
  else (tryDllExecute sig dll).2 ++ (trySocketExecute sig socket).2

/-! ## The machine -/

/-- `channel` holds the frames between the two sockets, `seen` those that the bridge has received, and
`lost` counts those that never arrive. -/
structure SignalPath where
  engine : Engine
  pub : ZmqPub := {}
  channel : List (List UInt8) := []
  bridge : BridgeLoop
  seen : List (List UInt8) := []
  handed : List Handed := []
  lost : Nat := 0

inductive PathAction where
  | engine (a : Action)
  | publisher (a : PubAction)
  | lose (i : Nat)
  | receive (dll : DllReply) (socket : SocketReply)
  | idle (d : Delivery)

/-- The messages that are not the dispatcher's. -/
def PubAction.besideSignals : PubAction → Bool
  | .publish (.signal _) => false
  | _ => true

namespace SignalPath

/-- `publish_signal` puts each new frame of the dispatcher into the mailbox. -/
def publishAll (pub : ZmqPub) (frames : List String) : ZmqPub :=
  { pub with mail := frames.foldl (fun mail frame => mail.push (.signal (bytesOf frame))) pub.mail }

/-- The frames that `zmq_send` has been given and that go to a subscriber of signals. -/
def wire (pub : ZmqPub) : List (List UInt8) :=
  (pub.mail.handled.map Payload.frame).filter (subscribed (bytesOf "signal"))

def step (recv : Receive) (cfg : Config) (utcOffsetS : Int) (p : SignalPath) : PathAction → Option SignalPath
  | .engine a =>
    (p.engine.step cfg utcOffsetS a).map (fun engine =>
      { p with engine := engine, pub := publishAll p.pub (engine.pub.drop p.engine.pub.length) })
  | .publisher a =>
    if a.besideSignals then
      (ZmqPub.machine.step p.pub a).map (fun pub =>
        { p with pub := pub, channel := p.channel ++ (wire pub).drop (wire p.pub).length })
    else none
  | .lose i =>
    if i < p.channel.length then some { p with channel := p.channel.eraseIdx i, lost := p.lost + 1 } else none
  | .receive dll socket =>
    match p.channel with
    | [] => none
    | frame :: rest =>
      let bridge := p.bridge.iteration recv (.message frame)
      some { p with
        channel := rest
        bridge := bridge
        seen := p.seen ++ [frame]
        handed := p.handed ++
          (bridge.executed.drop p.bridge.executed.length).flatMap (routeOrder dll socket) }
  | .idle d =>
    if d.message? = none then some { p with bridge := p.bridge.iteration recv d } else none

def machine (recv : Receive) (cfg : Config) (utcOffsetS : Int) (boot : ℕ+) (buf : Vector UInt8 1024) :
    Machine SignalPath PathAction where
  init := { engine := (Engine.machine cfg utcOffsetS boot).init, bridge := { buf := buf } }
  step := step recv cfg utcOffsetS

end SignalPath

/-! ## What the dispatcher publishes -/

namespace Engine

/-- The submitted signals that the dispatcher has not decided on. -/
def carried (e : Engine) : List Signal :=
  (match e.exec.worker with
    | .holding s => [s]
    | _ => []) ++ e.exec.queue

/-- What a step does to the published frames and to the signals before the dispatcher. -/
inductive PubStep (e e' : Engine) : Prop where
  | same (pub : e'.pub = e.pub) (submitted : e'.submitted = e.submitted) (carried : e'.carried = e.carried)
  | submit (s : Signal) (phase : e.phase = .submit s) (pub : e'.pub = e.pub)
      (submitted : e'.submitted = e.submitted ++ [s]) (carried : e'.carried = e.carried ++ [s])
  | drop (s : Signal) (worker : e.exec.worker = .holding s) (rejected : withinSlippageCap s = false)
      (pub : e'.pub = e.pub) (submitted : e'.submitted = e.submitted) (carried : e.carried = s :: e'.carried)
  | publish (s : Signal) (pub : e'.pub = publishSignal e.pub s) (submitted : e'.submitted = e.submitted)
      (carried : e.carried = s :: e'.carried)

variable {cfg : Config} {utcOffsetS : Int} {e e' : Engine}

lemma pubStep_of_path (pub : e'.pub = e.pub) (same : SamePath e e') : PubStep e e' := by
  refine .same pub same.submitted ?_
  unfold carried
  rw [same.exec]

lemma ingestFast_pub (e : Engine) (nowMs : Int) : (e.ingestFast nowMs).pub = e.pub := by
  unfold ingestFast
  split <;> rfl

lemma afterUpdate_pub (cfg : Config) (utcOffsetS : Int) (e : Engine) (nowMs : Int) :
    (e.afterUpdate cfg utcOffsetS nowMs).pub = e.pub := by
  unfold afterUpdate
  split <;> rfl

lemma ingestDeribit_pub (cfg : Config) (utcOffsetS : Int) (e : Engine) (nowMs : Int) :
    (e.ingestDeribit cfg utcOffsetS nowMs).pub = e.pub := by
  unfold ingestDeribit
  split
  · rfl
  · exact afterUpdate_pub ..

lemma popQuote_pubStep (cfg : Config) (e : Engine) (nowMs : Int) (lead : ℚ) :
    PubStep e (e.popQuote cfg nowMs lead) := by
  unfold popQuote
  split
  · split
    · unfold evaluateQuote
      dsimp only
      split <;> exact .same rfl rfl rfl
    · exact .same rfl rfl rfl
  · exact .same rfl rfl rfl

lemma workerStep_pubStep (h : e.workerStep cfg = some e') : PubStep e e' := by
  unfold workerStep at h
  split at h
  · rename_i hidle
    split at h
    · cases h
    · split at h
      · obtain rfl := Option.some.inj h
        exact .same rfl rfl rfl
      · rename_i s rest hqueue
        obtain rfl := Option.some.inj h
        refine .same rfl rfl ?_
        unfold carried
        rw [hidle, hqueue]
        rfl
  · rename_i s hholding
    have hcarried : e.carried = s :: e.exec.queue := by
      unfold carried
      rw [hholding]
      rfl
    split at h
    · rename_i hpass
      obtain rfl := Option.some.inj h
      exact .drop s hholding (by simpa using hpass) rfl rfl hcarried
    · rw [← Option.some.inj h]
      refine .publish s ?_ ?_ ?_
      · dsimp only
      · dsimp only
      · rw [hcarried]
        unfold carried
        dsimp only
        rw [List.nil_append]
  · rename_i s hpublished
    obtain rfl := Option.some.inj h
    refine .same rfl rfl ?_
    unfold carried
    rw [hpublished]

lemma step_pubStep {a : Action} (h : e.step cfg utcOffsetS a = some e') : PubStep e e' := by
  cases step_moves h with
  | brokerFrame q =>
    unfold brokerFrame
    split <;> exact .same rfl rfl rfl
  | ingestFast nowMs phase => exact pubStep_of_path (e.ingestFast_pub nowMs) (e.ingestFast_samePath nowMs).1
  | ingestDeribit nowMs phase =>
    exact pubStep_of_path (ingestDeribit_pub cfg utcOffsetS e nowMs)
      (ingestDeribit_samePath cfg utcOffsetS e nowMs).1
  | popQuote nowMs lead phase => exact popQuote_pubStep cfg e nowMs lead
  | submit signal phase =>
    refine .submit signal phase rfl rfl ?_
    exact (List.append_assoc ..).symm
  | starve | take | drop | publish | route => exact workerStep_pubStep h
  | _ => exact .same rfl rfl rfl

lemma publishSignal_eq (pub : List String) (s : Signal) :
    publishSignal pub s = pub ++ (encodeSignal s 320).toList := by
  unfold publishSignal
  cases encodeSignal s 320 with
  | none => exact (List.append_nil pub).symm
  | some frame => rfl

/-- What the dispatcher has decided on is published, each signal once and in order. -/
def PublishesAll (e : Engine) : Prop :=
  ∃ decided, e.submitted = decided ++ e.carried ∧ e.pub = decided.filterMap (encodeSignal · 320)

lemma PublishesAll.step (h : e.PublishesAll) (hpass : e.EnRoute (fun s => withinSlippageCap s = true))
    (hstep : PubStep e e') : e'.PublishesAll := by
  obtain ⟨decided, hsubmitted, hpub⟩ := h
  cases hstep with
  | same pub submitted carried =>
    exact ⟨decided, by rw [submitted, carried, hsubmitted], by rw [pub, hpub]⟩
  | submit s phase pub submitted carried =>
    exact ⟨decided, by rw [submitted, carried, hsubmitted, List.append_assoc], by rw [pub, hpub]⟩
  | drop s worker rejected =>
    rw [hpass.holding s worker] at rejected
    cases rejected
  | publish s pub submitted carried =>
    refine ⟨decided ++ [s], ?_, ?_⟩
    · rw [submitted, hsubmitted, carried, List.append_assoc, List.singleton_append]
    · rw [pub, publishSignal_eq, hpub, List.filterMap_append]
      cases hframe : encodeSignal s 320 <;> simp [hframe]

lemma PubStep.pub_grows (h : PubStep e e') : e.pub <+: e'.pub := by
  cases h with
  | same pub => rw [pub]
  | submit s phase pub => rw [pub]
  | drop s worker rejected pub => rw [pub]
  | publish s pub =>
    rw [pub, publishSignal_eq]
    exact List.prefix_append ..

variable {boot : ℕ+}

lemma reachable_publishesAll (he : (machine cfg utcOffsetS boot).Reachable e) : e.PublishesAll := by
  refine Machine.invariant _ (I := PublishesAll) ⟨[], rfl, rfl⟩ ?_ he
  intro e a e' hreach h hstep
  exact h.step (reachable_withinSlippageCap hreach) (step_pubStep hstep)

/-- What holds of every signal that the strategy fills in holds of all that it has submitted. -/
lemma reachable_submitted {P : Signal → Prop}
    (hemit : ∀ d lead q nowMs, d = (Strategy.evaluate cfg lead q).1 → d ≠ .hold →
      P (Strategy.signalOf cfg d lead q nowMs))
    (he : (machine cfg utcOffsetS boot).Reachable e) : ∀ s ∈ e.submitted, P s := by
  refine Machine.invariant _ (I := fun e => ∀ s ∈ e.submitted, P s) (fun _ hs => absurd hs List.not_mem_nil) ?_ he
  intro e a e' hreach h hstep
  cases step_pubStep hstep with
  | same pub submitted => exact submitted ▸ h
  | submit s phase pub submitted =>
    rw [submitted, List.forall_mem_append, List.forall_mem_singleton]
    exact ⟨h, (reachable_enRoute hemit hreach).phase s phase⟩
  | drop s worker rejected pub submitted => exact submitted ▸ h
  | publish s pub submitted => exact submitted ▸ h

end Engine

/-! ## Frames and what is read of them -/

/-- What `parse_signal` makes of a frame. -/
def readPod (frame : List UInt8) : Option ExecSignal :=
  match decodeSignal frame with
  | (true, sig) => some sig
  | (false, _) => none

/-- What the bridge reads of a signal. -/
def received (s : Signal) : Option ExecSignal := (encodeSignal s 320).bind (fun text => readPod (bytesOf text))

/-- A frame of the dispatcher. -/
def SignalFrame (frame : List UInt8) : Prop := subscribed (bytesOf "signal") frame = true ∧ frame.length ≤ 319

lemma encodeSignal_signalFrame {s : Signal} {text : String} (h : encodeSignal s 320 = some text) :
    SignalFrame (bytesOf text) := by
  constructor
  · obtain ⟨rest, hbytes⟩ := encodeSignal_side h
    rw [hbytes, subscribed, List.isPrefixOf_iff_prefix]
    simp only [List.append_assoc]
    exact List.prefix_append ..
  · have hfits : text.utf8ByteSize < 320 := by
      unfold encodeSignal at h
      obtain ⟨hfits, htext⟩ := Option.ite_none_right_eq_some.mp h
      exact Option.some.inj htext ▸ hfits
    rw [length_bytesOf]
    omega

lemma tickFrame_not_subscribed (t : WireTick) : subscribed (bytesOf "signal") (tickFrame t) = false := by
  have htick : bytesOf "tick|" = [116, 105, 99, 107, 124] := by decide +kernel
  have hsignal : bytesOf "signal" = [115, 105, 103, 110, 97, 108] := by decide +kernel
  unfold tickFrame
  rw [htick, hsignal]
  rfl

lemma quoteFrame_not_subscribed (q : WireQuote) : subscribed (bytesOf "signal") (quoteFrame q) = false := by
  have hquote : bytesOf "quote|" = [113, 117, 111, 116, 101, 124] := by decide +kernel
  have hsignal : bytesOf "signal" = [115, 105, 103, 110, 97, 108] := by decide +kernel
  unfold quoteFrame quoteText
  rw [hquote, hsignal]
  rfl

/-- The bridge executes what it reads of a frame that its buffer holds. -/
lemma BridgeLoop.iteration_reads {recv : Receive} (hrecv : recv.Documented) (loop : BridgeLoop)
    {frame : List UInt8} (h : frame.length ≤ 1023) :
    (loop.iteration recv (.message frame)).executed = loop.executed ++ (readPod frame).toList := by
  by_cases hne : frame = []
  · rw [hne, BridgeLoop.iteration_message hrecv]
    exact (List.append_nil _).symm
  · have hpos : ¬((frame.length : Int) ≤ 0) := by
      have hlength := List.length_pos_iff.mpr hne
      omega
    have hframe : (blit frame loop.buf).toList.take frame.length = frame := by
      rw [toList_blit (by omega), List.take_left]
    rw [BridgeLoop.iteration_message hrecv, List.take_of_length_le h, Receive.sizeOf_eq (by decide) h]
    unfold BridgeLoop.goOn BridgeLoop.parse readPod
    rw [if_neg hpos, Int.toNat_natCast]
    show (BridgeLoop.execute _ (decodeSignal ((blit frame loop.buf).toList.take frame.length))).executed = _
    rw [hframe]
    obtain ⟨accepted, sig⟩ := decodeSignal frame
    cases accepted with
    | false => exact (List.append_nil _).symm
    | true => rfl

/-- A signal whose prices are of the usual size. -/
structure Usual (s : Signal) : Prop where
  prices : ∀ x ∈ s.wire.prices, Small x
  lead : 1 / 10 ^ 6 ≤ s.lead
  tsMs : -2 ^ 63 ≤ s.tsMs ∧ s.tsMs < 2 ^ 63

/-- The signal as the bridge executes it: the prices show six decimals, and the symbol is always the same. -/
def podOf (s : Signal) : ExecSignal where
  tsMs := s.tsMs
  lead := round6 (.finite s.lead)
  brokerBid := round6 (.finite s.brokerBid)
  brokerAsk := round6 (.finite s.brokerAsk)
  threshold := round6 (.finite s.threshold)
  edge := round6 (.finite s.edge)
  side := if s.side = .buy then 1 else 2
  valid := 1
  reason := bytesOf s.reason
  symbol := bytesOf "BTC/USD"

/-- The strategy gives one of two reasons. -/
lemma Signal.Usual.plain {s : Signal} (h : Usual s) (hside : s.side = .buy ∨ s.side = .sell)
    (hreason : s.reason = "lead_gt_ask" ∨ s.reason = "bid_gt_lead") : s.wire.Plain where
  side := hside
  reason := by
    show (bytesOf s.reason).length ≤ 23
    rcases hreason with hreason | hreason <;> rw [hreason] <;> decide +kernel
  comma := by
    show Wire.comma ∉ bytesOf s.reason
    rcases hreason with hreason | hreason <;> rw [hreason] <;> decide +kernel
  nul := by
    show 0 ∉ bytesOf s.reason
    rcases hreason with hreason | hreason <;> rw [hreason] <;> decide +kernel
  prices := h.prices
  tsMs := h.tsMs

lemma frame_signal {s : Signal} (h : s.wire.Plain) : h.frame.signal = podOf s := by
  have hprices := h.prices
  simp only [WireSignal.prices, List.forall_mem_cons] at hprices
  obtain ⟨hlead, hbid, hask, hthreshold, hedge, -⟩ := hprices
  have htsMs : h.frame.signal.tsMs = s.tsMs := by
    have hvalue := IntNumeral.ofInt_value s.wire.tsMs
    have hrange := h.tsMs
    rw [← hvalue] at hrange
    show atoll (readField 32 h.frame.tail).1 = s.tsMs
    rw [h.tail_read, atoll_text hrange.1 hrange.2, hvalue]
    rfl
  have hside : h.frame.signal.side = if s.side = .buy then 1 else 2 := by
    show (if decide (s.wire.side = .buy) = true then 1 else 2) = _
    simp only [decide_eq_true_eq]
    rfl
  unfold Frame.signal podOf
  rw [ExecSignal.mk.injEq]
  exact ⟨htsMs, strtod_fixed6 hlead, strtod_fixed6 hbid, strtod_fixed6 hask, strtod_fixed6 hthreshold,
    strtod_fixed6 hedge, hside, rfl, rfl, rfl⟩

/-- A signal of the usual size is read as it was meant. -/
lemma received_usual {s : Signal} (h : Usual s) (hside : s.side = .buy ∨ s.side = .sell)
    (hreason : s.reason = "lead_gt_ask" ∨ s.reason = "bid_gt_lead") : received s = some (podOf s) := by
  have hplain := Signal.Usual.plain h hside hreason
  have hlead : ∀ q, s.wire.lead = .finite q → 1 / 10 ^ 6 ≤ q := by
    intro q hq
    obtain rfl := Double.finite.inj hq
    exact h.lead
  have hroom : s.wire.text.length < 320 := by
    have hhead := hplain.frame.head_length
    have htail := hplain.tsMs_length
    rw [← hplain.frame_text, Frame.text, List.length_append, hplain.tail_eq]
    omega
  have hwire := encodeSignal_wire s hplain.nul hplain.text_short 320
  have hdecode : decodeSignal s.wire.text = (true, podOf s) := by
    rw [← hplain.frame_text, decodeSignal_text, hplain.lead_isPos hlead, frame_signal]
  unfold received
  cases htext : encodeSignal s 320 with
  | none =>
    rw [htext, Option.map_none, encodeSignal_eq_none hplain.text_short] at hwire
    omega
  | some text =>
    rw [htext, Option.map_some] at hwire
    rw [Option.bind_some, encodeSignal_eq_some hwire, readPod, hdecode]

/-! ## The frames on the wire -/

def Payload.signalText : Payload → Option (List UInt8)
  | .signal json => some json
  | _ => none

namespace ZmqPub

variable {s t : ZmqPub} {a : PubAction}

lemma handled_prefix (hstep : machine.step s a = some t) : s.mail.handled <+: t.mail.handled := by
  cases a with
  | publish m | stop =>
    obtain rfl := Option.some.inj hstep
    exact List.prefix_rfl
  | start =>
    by_cases hrunning : s.running = true
    · obtain rfl : s = t := Option.some.inj ((if_pos hrunning).symm.trans hstep)
      exact List.prefix_rfl
    · obtain rfl := Option.some.inj ((if_neg hrunning).symm.trans hstep)
      exact List.prefix_rfl
  | send =>
    obtain ⟨-, ht⟩ := Option.ite_none_right_eq_some.mp hstep
    obtain rfl := Option.some.inj ht
    exact List.prefix_append ..
  | join | opened _ | test | drain =>
    obtain ⟨-, ht⟩ := Option.ite_none_right_eq_some.mp hstep
    obtain rfl := Option.some.inj ht
    exact List.prefix_rfl

/-- Beside the dispatcher nobody publishes a signal. -/
lemma signals_of_besideSignals (hbeside : a.besideSignals = true) (hstep : machine.step s a = some t) :
    t.mail.pushed.filterMap Payload.signalText = s.mail.pushed.filterMap Payload.signalText := by
  cases a with
  | publish m =>
    obtain rfl := Option.some.inj hstep
    show (s.mail.pushed ++ [m]).filterMap Payload.signalText = _
    rw [List.filterMap_append]
    cases m with
    | signal json => cases hbeside
    | tick t => exact List.append_nil _
    | broker q => exact List.append_nil _
  | stop =>
    obtain rfl := Option.some.inj hstep
    rfl
  | start =>
    by_cases hrunning : s.running = true
    · obtain rfl : s = t := Option.some.inj ((if_pos hrunning).symm.trans hstep)
      rfl
    · obtain rfl := Option.some.inj ((if_neg hrunning).symm.trans hstep)
      rfl
  | join | opened _ | test | drain | send =>
    obtain ⟨-, ht⟩ := Option.ite_none_right_eq_some.mp hstep
    obtain rfl := Option.some.inj ht
    rfl

end ZmqPub

namespace SignalPath

variable {pub pub' : ZmqPub}

/-- A subscriber of signals gets the frames of the dispatcher and no other. -/
lemma wire_eq (hsignals : ∀ json ∈ pub.mail.handled.filterMap Payload.signalText, SignalFrame json) :
    wire pub = pub.mail.handled.filterMap Payload.signalText := by
  unfold wire
  generalize pub.mail.handled = handled at hsignals ⊢
  induction handled with
  | nil => rfl
  | cons m handled ih =>
    cases m with
    | tick t =>
      rw [List.map_cons, Payload.frame, List.filter_cons_of_neg (by rw [tickFrame_not_subscribed]; decide)]
      exact ih hsignals
    | broker q =>
      rw [List.map_cons, Payload.frame, List.filter_cons_of_neg (by rw [quoteFrame_not_subscribed]; decide)]
      exact ih hsignals
    | signal json =>
      have hframes : (Payload.signal json :: handled).filterMap Payload.signalText =
          json :: handled.filterMap Payload.signalText := rfl
      rw [hframes, List.forall_mem_cons] at hsignals
      rw [List.map_cons, Payload.frame, List.filter_cons_of_pos hsignals.1.1, ih hsignals.2, hframes]

lemma wire_prefix (h : pub.mail.handled <+: pub'.mail.handled) : wire pub <+: wire pub' :=
  (h.map Payload.frame).filter _

lemma publishAll_inv (h : pub.Inv) (frames : List String) : (publishAll pub frames).Inv := by
  induction frames generalizing pub with
  | nil => exact h
  | cons frame frames ih =>
    have hnext : ({ pub with mail := pub.mail.push (.signal (bytesOf frame)) } : ZmqPub).Inv :=
      ⟨h.sound.push (.signal (bytesOf frame)), h.holding, h.absent⟩
    exact ih hnext

lemma publishAll_pushed (pub : ZmqPub) (frames : List String) :
    (publishAll pub frames).mail.pushed.filterMap Payload.signalText =
      pub.mail.pushed.filterMap Payload.signalText ++ frames.map bytesOf := by
  induction frames generalizing pub with
  | nil => exact (List.append_nil _).symm
  | cons frame frames ih =>
    have hnext := ih { pub with mail := pub.mail.push (.signal (bytesOf frame)) }
    have hpushed : (pub.mail.push (.signal (bytesOf frame))).pushed.filterMap Payload.signalText =
        pub.mail.pushed.filterMap Payload.signalText ++ [bytesOf frame] := by
      show (pub.mail.pushed ++ [Payload.signal (bytesOf frame)]).filterMap Payload.signalText = _
      rw [List.filterMap_append]
      rfl
    rw [hpushed, List.append_assoc] at hnext
    exact hnext

lemma publishAll_handled (pub : ZmqPub) (frames : List String) :
    (publishAll pub frames).mail.handled = pub.mail.handled := by
  induction frames generalizing pub with
  | nil => rfl
  | cons frame frames ih => exact ih { pub with mail := pub.mail.push (.signal (bytesOf frame)) }

/-! ## What the backends take -/

lemma routeOrder_sig (dll : DllReply) (socket : SocketReply) (sig : ExecSignal) :
    (((routeOrder dll socket sig).filter Handed.taken).map Handed.sig).Sublist [sig] := by
  cases dll with
  | unusable =>
    cases socket with
    | unreachable => exact List.nil_sublist _
    | sent n =>
      by_cases hn : n = sizeofExecSignal
      · simp [routeOrder, tryDllExecute, trySocketExecute, Handed.taken, Handed.sig, hn]
      · simp [routeOrder, tryDllExecute, trySocketExecute, Handed.taken, hn]
  | returned rc =>
    by_cases hrc : rc = 0
    · simp [routeOrder, tryDllExecute, Handed.taken, Handed.sig, hrc]
    · cases socket with
      | unreachable => simp [routeOrder, tryDllExecute, trySocketExecute, Handed.taken, hrc]
      | sent n =>
        by_cases hn : n = sizeofExecSignal
        · simp [routeOrder, tryDllExecute, trySocketExecute, Handed.taken, Handed.sig, hrc, hn]
        · simp [routeOrder, tryDllExecute, trySocketExecute, Handed.taken, hrc, hn]

lemma routeOrders_sig (dll : DllReply) (socket : SocketReply) (sigs : List ExecSignal) :
    (((sigs.flatMap (routeOrder dll socket)).filter Handed.taken).map Handed.sig).Sublist sigs := by
  induction sigs with
  | nil => exact List.nil_sublist _
  | cons sig sigs ih =>
    rw [List.flatMap_cons, List.filter_append, List.map_append]
    exact (routeOrder_sig dll socket sig).append ih

/-! ## From the strategy to the execution -/

/-- What holds between the two ends of the path. -/
structure Inv (cfg : Config) (utcOffsetS : Int) (boot : ℕ+) (p : SignalPath) : Prop where
  engine : (Engine.machine cfg utcOffsetS boot).Reachable p.engine
  pub : p.pub.Inv
  pushed : p.pub.mail.pushed.filterMap Payload.signalText = p.engine.pub.map bytesOf
  arrives : (p.seen ++ p.channel).Sublist (wire p.pub)
  arrivesAll : p.lost = 0 → p.seen ++ p.channel = wire p.pub
  executed : p.bridge.executed = p.seen.filterMap readPod
  taken : ((p.handed.filter Handed.taken).map Handed.sig).Sublist p.bridge.executed

variable {recv : Receive} {cfg : Config} {utcOffsetS : Int} {boot : ℕ+} {buf : Vector UInt8 1024}
  {p p' : SignalPath}

lemma Inv.signalFrames (h : p.Inv cfg utcOffsetS boot) :
    ∀ json ∈ p.pub.mail.pushed.filterMap Payload.signalText, SignalFrame json := by
  obtain ⟨decided, -, hpub⟩ := Engine.reachable_publishesAll h.engine
  rw [h.pushed, hpub]
  intro json hjson
  obtain ⟨text, htext, rfl⟩ := List.mem_map.mp hjson
  obtain ⟨s, -, hs⟩ := List.mem_filterMap.mp htext
  exact encodeSignal_signalFrame hs

/-- What the wire carries is the front of what the dispatcher has published. -/
lemma Inv.wire_eq (h : p.Inv cfg utcOffsetS boot) :
    wire p.pub = p.pub.mail.handled.filterMap Payload.signalText ∧ wire p.pub <+: p.engine.pub.map bytesOf := by
  have hbegin : p.pub.mail.handled.filterMap Payload.signalText <+:
      p.pub.mail.pushed.filterMap Payload.signalText :=
    h.pub.sound.handled_prefix.filterMap Payload.signalText
  have hwire : wire p.pub = p.pub.mail.handled.filterMap Payload.signalText :=
    SignalPath.wire_eq (fun json hjson => h.signalFrames json (hbegin.subset hjson))
  refine ⟨hwire, ?_⟩
  rw [hwire, ← h.pushed]
  exact hbegin

lemma Inv.channel_length (h : p.Inv cfg utcOffsetS boot) {frame : List UInt8} (hframe : frame ∈ p.channel) :
    frame.length ≤ 1023 := by
  have hmem : frame ∈ wire p.pub := h.arrives.subset (List.mem_append_right _ hframe)
  have hsignal := h.signalFrames frame (h.pushed ▸ h.wire_eq.2.subset hmem)
  exact hsignal.2.trans (by omega)

lemma Inv.engineStep (h : p.Inv cfg utcOffsetS boot) {a : Action} {e : Engine}
    (hstep : p.engine.step cfg utcOffsetS a = some e) :
    ({ p with engine := e, pub := publishAll p.pub (e.pub.drop p.engine.pub.length) } :
      SignalPath).Inv cfg utcOffsetS boot := by
  have hhandled := publishAll_handled p.pub (e.pub.drop p.engine.pub.length)
  have hwire : wire (publishAll p.pub (e.pub.drop p.engine.pub.length)) = wire p.pub := by
    unfold wire
    rw [hhandled]
  obtain ⟨frames, hframes⟩ := (Engine.step_pubStep hstep).pub_grows
  obtain ⟨as, hrun⟩ := h.engine
  constructor
  · exact ⟨as ++ [a], (Machine.run_concat_eq_some _).mpr ⟨p.engine, hrun, hstep⟩⟩
  · exact publishAll_inv h.pub _
  · show (publishAll p.pub _).mail.pushed.filterMap Payload.signalText = e.pub.map bytesOf
    rw [publishAll_pushed, h.pushed, ← hframes, List.drop_left, List.map_append]
  · exact hwire.symm ▸ h.arrives
  · exact hwire.symm ▸ h.arrivesAll
  · exact h.executed
  · exact h.taken

lemma Inv.publisherStep (h : p.Inv cfg utcOffsetS boot) {a : PubAction} {pub' : ZmqPub}
    (hbeside : a.besideSignals = true) (hstep : ZmqPub.machine.step p.pub a = some pub') :
    ({ p with pub := pub', channel := p.channel ++ (wire pub').drop (wire p.pub).length } :
      SignalPath).Inv cfg utcOffsetS boot := by
  obtain ⟨later, hlater⟩ := wire_prefix (ZmqPub.handled_prefix hstep)
  have hnew : (wire pub').drop (wire p.pub).length = later := by rw [← hlater, List.drop_left]
  constructor
  · exact h.engine
  · exact h.pub.step hstep
  · exact (ZmqPub.signals_of_besideSignals hbeside hstep).trans h.pushed
  · show (p.seen ++ (p.channel ++ _)).Sublist (wire pub')
    rw [hnew, ← List.append_assoc, ← hlater]
    exact h.arrives.append_right later
  · intro hlost
    show p.seen ++ (p.channel ++ _) = wire pub'
    rw [hnew, ← List.append_assoc, h.arrivesAll hlost, hlater]
  · exact h.executed
  · exact h.taken

lemma Inv.lose (h : p.Inv cfg utcOffsetS boot) (i : Nat) :
    ({ p with channel := p.channel.eraseIdx i, lost := p.lost + 1 } : SignalPath).Inv cfg utcOffsetS boot where
  engine := h.engine
  pub := h.pub
  pushed := h.pushed
  arrives := ((List.eraseIdx_sublist p.channel i).append_left p.seen).trans h.arrives
  arrivesAll hlost := absurd hlost (Nat.succ_ne_zero p.lost)
  executed := h.executed
  taken := h.taken

lemma Inv.receive (hrecv : recv.Documented) (h : p.Inv cfg utcOffsetS boot) {frame : List UInt8}
    {rest : List (List UInt8)} (hchannel : p.channel = frame :: rest) (dll : DllReply) (socket : SocketReply) :
    ({ p with
      channel := rest
      bridge := p.bridge.iteration recv (.message frame)
      seen := p.seen ++ [frame]
      handed := p.handed ++ ((p.bridge.iteration recv (.message frame)).executed.drop
        p.bridge.executed.length).flatMap (routeOrder dll socket) } : SignalPath).Inv cfg utcOffsetS boot := by
  have hlength := h.channel_length (hchannel ▸ List.mem_cons_self : frame ∈ p.channel)
  have hexecuted := p.bridge.iteration_reads hrecv hlength
  have hseen : p.seen ++ [frame] ++ rest = p.seen ++ p.channel := by
    rw [hchannel, List.append_assoc, List.singleton_append]
  constructor
  · exact h.engine
  · exact h.pub
  · exact h.pushed
  · exact hseen ▸ h.arrives
  · exact fun hlost => hseen ▸ h.arrivesAll hlost
  · show (p.bridge.iteration recv (.message frame)).executed = (p.seen ++ [frame]).filterMap readPod
    rw [hexecuted, h.executed, List.filterMap_append]
    cases hread : readPod frame <;> simp [hread]
  · show (((p.handed ++ _).filter Handed.taken).map Handed.sig).Sublist _
    rw [hexecuted, List.drop_left, List.filter_append, List.map_append]
    exact h.taken.append (routeOrders_sig dll socket _)

lemma Inv.idle (hrecv : recv.Documented) (h : p.Inv cfg utcOffsetS boot) {d : Delivery} (hd : d.message? = none) :
    ({ p with bridge := p.bridge.iteration recv d } : SignalPath).Inv cfg utcOffsetS boot := by
  have hbridge : (p.bridge.iteration recv d).executed = p.bridge.executed := by
    rw [BridgeLoop.iteration_failure hrecv p.bridge hd]
    rfl
  exact ⟨h.engine, h.pub, h.pushed, h.arrives, h.arrivesAll, hbridge.trans h.executed, hbridge.symm ▸ h.taken⟩

lemma Inv.step (hrecv : recv.Documented) (h : p.Inv cfg utcOffsetS boot) {a : PathAction}
    (hstep : p.step recv cfg utcOffsetS a = some p') : p'.Inv cfg utcOffsetS boot := by
  cases a with
  | engine a =>
    obtain ⟨e, he, rfl⟩ := Option.map_eq_some_iff.mp hstep
    exact h.engineStep he
  | publisher a =>
    obtain ⟨hbeside, hsome⟩ := Option.ite_none_right_eq_some.mp hstep
    obtain ⟨pub', hpub, rfl⟩ := Option.map_eq_some_iff.mp hsome
    exact h.publisherStep hbeside hpub
  | lose i =>
    obtain ⟨-, hsome⟩ := Option.ite_none_right_eq_some.mp hstep
    obtain rfl := Option.some.inj hsome
    exact h.lose i
  | receive dll socket =>
    cases hchannel : p.channel with
    | nil =>
      unfold SignalPath.step at hstep
      rw [hchannel] at hstep
      cases hstep
    | cons frame rest =>
      unfold SignalPath.step at hstep
      rw [hchannel] at hstep
      obtain rfl := Option.some.inj hstep
      exact h.receive hrecv hchannel dll socket
  | idle d =>
    obtain ⟨hd, hsome⟩ := Option.ite_none_right_eq_some.mp hstep
    obtain rfl := Option.some.inj hsome
    exact h.idle hrecv hd

lemma reachable_inv (hrecv : recv.Documented) (hp : (machine recv cfg utcOffsetS boot buf).Reachable p) :
    p.Inv cfg utcOffsetS boot := by
  refine Machine.invariant _ (I := Inv cfg utcOffsetS boot) ?_ (fun _ _ _ _ h hstep => h.step hrecv hstep) hp
  constructor
  · exact ⟨[], rfl⟩
  · exact ⟨Mailbox.sound_empty, iff_of_false (fun hbatch => hbatch rfl) nofun, fun _ => rfl⟩
  · rfl
  · exact List.Sublist.refl _
  · exact fun _ => rfl
  · rfl
  · exact List.Sublist.refl _

/-- Nothing is left on the way. -/
structure Delivered (p : SignalPath) : Prop where
  carried : p.engine.carried = []
  queue : p.pub.mail.queue = []
  batch : p.pub.mail.batch = []
  channel : p.channel = []

/-- What the dispatcher has decided on, the bridge reads as the signals that were meant. -/
lemma filterMap_readPod (decided : List Signal) :
    ((decided.filterMap (encodeSignal · 320)).map bytesOf).filterMap readPod = decided.filterMap received := by
  rw [List.filterMap_map, List.filterMap_filterMap]
  rfl

/-- The strategy submits purchases and sales with one of its two reasons. -/
lemma Inv.received_submitted (h : p.Inv cfg utcOffsetS boot) {s : Signal} (hs : s ∈ p.engine.submitted)
    (husual : Usual s) : received s = some (podOf s) := by
  have hfields : ∀ s ∈ p.engine.submitted, (s.side = .buy ∨ s.side = .sell) ∧
      (s.reason = "lead_gt_ask" ∨ s.reason = "bid_gt_lead") := by
    refine Engine.reachable_submitted (P := fun s => (s.side = .buy ∨ s.side = .sell) ∧
      (s.reason = "lead_gt_ask" ∨ s.reason = "bid_gt_lead")) ?_ h.engine
    intro d lead q nowMs _ _
    unfold Strategy.signalOf
    dsimp only
    split
    · exact ⟨.inl rfl, .inl rfl⟩
    · exact ⟨.inr rfl, .inr rfl⟩
  exact received_usual husual (hfields s hs).1 (hfields s hs).2

/-- In every interleaving of the engine, its publisher, a lossy channel and the bridge: what the bridge
executes are submitted signals in the order of their submission, none of them twice, and no signal is taken
by two backends. Where nothing gets lost and nothing is left on the way, all that was submitted and can be
read has been executed. A signal of the usual size is read with its prices rounded to six decimals. -/
theorem executions_follow_submissions (hrecv : recv.Documented)
    (hp : (machine recv cfg utcOffsetS boot buf).Reachable p) :
    p.bridge.executed.Sublist (p.engine.submitted.filterMap received) ∧
    ((p.handed.filter Handed.taken).map Handed.sig).Sublist p.bridge.executed ∧
    (p.lost = 0 → p.Delivered → p.bridge.executed = p.engine.submitted.filterMap received) ∧
    ∀ s ∈ p.engine.submitted, Usual s → received s = some (podOf s) := by
  have h := reachable_inv hrecv hp
  obtain ⟨decided, hsubmitted, hpub⟩ := Engine.reachable_publishesAll h.engine
  obtain ⟨hwire, hfront⟩ := h.wire_eq
  refine ⟨?_, h.taken, ?_, fun s hs husual => h.received_submitted hs husual⟩
  · have hseen : p.seen.Sublist (p.engine.pub.map bytesOf) :=
      ((List.sublist_append_left p.seen p.channel).trans h.arrives).trans hfront.sublist
    rw [h.executed, hsubmitted, List.filterMap_append, ← filterMap_readPod, ← hpub]
    exact (hseen.filterMap readPod).trans (List.sublist_append_left ..)
  · intro hlost hdelivered
    have hall : p.seen = wire p.pub := by
      have hseen := h.arrivesAll hlost
      rw [hdelivered.channel, List.append_nil] at hseen
      exact hseen
    have hhandled : p.pub.mail.handled = p.pub.mail.pushed := by
      have hsound : p.pub.mail.handled ++ p.pub.mail.batch ++ p.pub.mail.queue = p.pub.mail.pushed := h.pub.sound
      rw [hdelivered.batch, hdelivered.queue, List.append_nil, List.append_nil] at hsound
      exact hsound
    rw [h.executed, hall, hwire, hhandled, h.pushed, hpub, filterMap_readPod, hsubmitted, hdelivered.carried,
      List.append_nil]

/-- One opportunity from the ticks to the order of the bridge EA; the terminal has refused it before. -/
def oneOpportunity : List PathAction :=
  (Engine.opportunity ++ Engine.routing).map .engine ++
    [.publisher .start, .publisher (.opened true), .publisher .test, .publisher .drain, .publisher .send,
     .receive (.returned 1) (.sent 90), .idle .transient]

theorem executions_follow_submissions_oneOpportunity :
    ∃ p, (machine Receive.exact {} 0 1000 (Vector.replicate 1024 0)).run
        (machine Receive.exact {} 0 1000 (Vector.replicate 1024 0)).init oneOpportunity = some p ∧
      p.handed.length = 2 ∧ p.bridge.executed.length = 1 ∧
      p.bridge.executed.Sublist (p.engine.submitted.filterMap received) := by
  have hrun : ((machine Receive.exact {} 0 1000 (Vector.replicate 1024 0)).run
      (machine Receive.exact {} 0 1000 (Vector.replicate 1024 0)).init oneOpportunity).map
        (fun p => (p.handed.length, p.bridge.executed.length)) = some (2, 1) := by decide +kernel
  obtain ⟨p, hp, hlengths⟩ := Option.map_eq_some_iff.mp hrun
  obtain ⟨hhanded, hexecuted⟩ := Prod.mk.inj hlengths
  exact ⟨p, hp, hhanded, hexecuted, (executions_follow_submissions Receive.exact_documented ⟨_, hp⟩).1⟩

end SignalPath

end LatencyArb
