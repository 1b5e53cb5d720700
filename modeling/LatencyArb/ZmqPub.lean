import LatencyArb.Library.Machine
import LatencyArb.Library.Mailbox
import LatencyArb.Tick
import LatencyArb.Wire.QuoteFrame

/-!
# The publisher (`src/zmq_pub.cpp`)

Producers put messages into the mailbox of `ZmqPub`; its thread takes them out in batches and hands the
frame of each to `zmq_send`. `start` and `stop` are called by one thread.
-/

namespace LatencyArb

open Numeral Wire

/-! ## Frames -/

/-- A `Tick` whose prices are doubles. -/
structure WireTick where
  tsMs : Int := 0
  tsNs : Int := 0
  bid : Double := .finite 0
  ask : Double := .finite 0
  last : Double := .finite 0
  venue : Venue := .unknown
  seq : Nat := 0
  valid : Nat := 0

def venueText : Venue → List UInt8
  | .binance => bytesOf "binance"
  | .deribit => bytesOf "deribit"
  | .bybit => bytesOf "bybit"
  | .broker => bytesOf "broker"
  | .unknown => bytesOf "?"

/-- The fields of `tick_frame`; the third is reserved. -/
def WireTick.fields (t : WireTick) : List (List UInt8) :=
  [bytesOf (toString t.tsMs), bytesOf (toString t.tsNs), bytesOf (toString (0 : Int)), bytesOf (toString t.seq),
    fixed6 t.bid, fixed6 t.ask, fixed6 t.last, venueText t.venue, bytesOf (toString t.valid)]

/-- The buffer of `tick_frame` has 256 bytes, the last of them for the NUL. -/
def tickFrame (t : WireTick) : List UInt8 :=
  (bytesOf "tick|" ++ [comma].intercalate t.fields).take 255

/-- The messages of the mailbox. -/
inductive Payload where
  | tick (t : WireTick)
  | broker (q : WireQuote)
  | signal (json : List UInt8)

def Payload.frame : Payload → List UInt8
  | .tick t => tickFrame t
  | .broker q => quoteFrame q
  | .signal json => json

/-- What a subscriber to the topic is sent. -/
def subscribed (topic frame : List UInt8) : Bool := topic.isPrefixOf frame

/-! ## The mailbox and its thread -/

/-- Where `thread_loop` stands. -/
inductive PubThread where
  | absent
  | opening
  | looping
  | draining
  | sending
  | exited
  deriving DecidableEq, Repr

structure ZmqPub where
  mail : Mailbox Payload := {}
  running : Bool := false
  shutdown : Bool := false
  thread : PubThread := .absent

inductive PubAction where
  | publish (m : Payload)
  | start
  | stop
  | join
  | opened (ok : Bool)
  | test
  | drain
  | send

namespace ZmqPub

/-- `stop` raises the flag, waits for the thread and only then lets `start` make a new one. -/
def step (s : ZmqPub) : PubAction → Option ZmqPub
  | .publish m => some { s with mail := s.mail.push m }
  | .start =>
    if s.running then some s else some { s with running := true, shutdown := false, thread := .opening }
  | .stop => some { s with shutdown := true }
  | .join =>
    if s.shutdown = true ∧ (s.thread = .exited ∨ s.thread = .absent) then
      some { s with running := false, thread := .absent }
    else none
  | .opened ok =>
    if s.thread = .opening then some { s with thread := if ok then .looping else .exited } else none
  | .test =>
    if s.thread = .looping then some { s with thread := if s.shutdown then .exited else .draining } else none
  | .drain =>
    if s.thread = .draining then
      some { s with mail := s.mail.drain, thread := if s.mail.queue = [] then .looping else .sending }
    else none
  | .send =>
    if s.thread = .sending then
      some { s with mail := s.mail.handle, thread := if s.mail.batch.tail = [] then .looping else .sending }
    else none

def machine : Machine ZmqPub PubAction where
  init := {}
  step := step

/-! ## What the thread hands on -/

/-- The thread holds messages just while it sends, and there is none unless the publisher runs. -/
structure Inv (s : ZmqPub) : Prop where
  sound : s.mail.Sound
  holding : s.mail.batch ≠ [] ↔ s.thread = .sending
  absent : s.running = false → s.thread = .absent

variable {s t : ZmqPub} {a : PubAction}

lemma Inv.empty_handed (h : s.Inv) (hthread : s.thread ≠ .sending) : s.mail.batch = [] :=
  not_not.mp (fun hbatch => hthread (h.holding.mp hbatch))

/-- The thread goes to a place where it holds nothing. -/
lemma Inv.go (h : s.Inv) (hthread : s.thread ≠ .sending) {next : PubThread} (hnext : next ≠ .sending)
    (running shutdown : Bool) (habsent : running = false → next = .absent) :
    ({ s with running := running, shutdown := shutdown, thread := next } : ZmqPub).Inv where
  sound := h.sound
  holding := iff_of_false (fun hbatch => hbatch (h.empty_handed hthread)) hnext
  absent := habsent

lemma Inv.drain (h : s.Inv) (hthread : s.thread = .draining) : ({ s with
    mail := s.mail.drain
    thread := if s.mail.queue = [] then .looping else .sending } : ZmqPub).Inv where
  sound := h.sound.drain (h.empty_handed (by rw [hthread]; decide))
  holding := by
    show s.mail.queue ≠ [] ↔ (if s.mail.queue = [] then PubThread.looping else .sending) = .sending
    split_ifs with hqueue
    · exact iff_of_false (not_not.mpr hqueue) (by decide)
    · exact iff_of_true hqueue rfl
  absent hrunning := by
    have habsent := h.absent hrunning
    rw [hthread] at habsent
    cases habsent

lemma Inv.send (h : s.Inv) (hthread : s.thread = .sending) : ({ s with
    mail := s.mail.handle
    thread := if s.mail.batch.tail = [] then .looping else .sending } : ZmqPub).Inv where
  sound := h.sound.handle
  holding := by
    show s.mail.batch.tail ≠ [] ↔ (if s.mail.batch.tail = [] then PubThread.looping else .sending) = .sending
    split_ifs with hbatch
    · exact iff_of_false (not_not.mpr hbatch) (by decide)
    · exact iff_of_true hbatch rfl
  absent hrunning := by
    have habsent := h.absent hrunning
    rw [hthread] at habsent
    cases habsent

/-- The publisher runs wherever its thread stands somewhere. -/
lemma Inv.running (h : s.Inv) (hthread : s.thread ≠ .absent) : s.running = true := by
  by_contra hstopped
  exact hthread (h.absent (Bool.eq_false_iff.mpr hstopped))

lemma Inv.step (h : s.Inv) (hstep : machine.step s a = some t) : t.Inv := by
  cases a with
  | publish m =>
    obtain rfl := Option.some.inj hstep
    exact ⟨h.sound.push m, h.holding, h.absent⟩
  | start =>
    by_cases hrunning : s.running = true
    · obtain rfl : s = t := Option.some.inj ((if_pos hrunning).symm.trans hstep)
      exact h
    · obtain rfl := Option.some.inj ((if_neg hrunning).symm.trans hstep)
      have hthread := h.absent (Bool.eq_false_iff.mpr hrunning)
      exact h.go (by rw [hthread]; decide) (by decide) true false nofun
  | stop =>
    obtain rfl := Option.some.inj hstep
    exact ⟨h.sound, h.holding, h.absent⟩
  | join =>
    obtain ⟨⟨-, hexited⟩, ht⟩ := Option.ite_none_right_eq_some.mp hstep
    obtain rfl := Option.some.inj ht
    have hthread : s.thread ≠ .sending := by
      rcases hexited with hexited | hexited <;> rw [hexited] <;> decide
    exact h.go hthread (by decide) false s.shutdown (fun _ => rfl)
  | opened ok =>
    obtain ⟨hthread, ht⟩ := Option.ite_none_right_eq_some.mp hstep
    obtain rfl := Option.some.inj ht
    have hrunning := h.running (by rw [hthread]; decide)
    refine h.go (by rw [hthread]; decide) ?_ s.running s.shutdown (by rw [hrunning]; nofun)
    split <;> decide
  | test =>
    obtain ⟨hthread, ht⟩ := Option.ite_none_right_eq_some.mp hstep
    obtain rfl := Option.some.inj ht
    have hrunning := h.running (by rw [hthread]; decide)
    refine h.go (by rw [hthread]; decide) ?_ s.running s.shutdown (by rw [hrunning]; nofun)
    split <;> decide
  | drain =>
    obtain ⟨hthread, ht⟩ := Option.ite_none_right_eq_some.mp hstep
    obtain rfl := Option.some.inj ht
    exact h.drain hthread
  | send =>
    obtain ⟨hthread, ht⟩ := Option.ite_none_right_eq_some.mp hstep
    obtain rfl := Option.some.inj ht
    exact h.send hthread

lemma reachable_inv (hs : machine.Reachable s) : s.Inv :=
  machine.invariant ⟨Mailbox.sound_empty, by decide, fun _ => rfl⟩ (fun _ _ _ _ h hstep => h.step hstep) hs

/-! ## How long the thread needs -/

/-- The loop of the thread goes on. -/
def Serving (s : ZmqPub) : Prop :=
  s.shutdown = false ∧ (s.thread = .looping ∨ s.thread = .draining ∨ s.thread = .sending)

/-- What the thread does itself, in its loop. -/
def own : PubAction → Bool
  | .test | .drain | .send => true
  | _ => false

def isStop : PubAction → Bool
  | .stop => true
  | _ => false

/-- The steps that the thread needs before it has handed on the first `n` messages. -/
def work (n : Nat) (s : ZmqPub) : Nat :=
  if n ≤ s.mail.handled.length then 0
  else if s.thread = .sending ∧ n ≤ s.mail.handled.length + s.mail.batch.length then n - s.mail.handled.length
  else n - s.mail.handled.length + (if s.thread = .draining then 1 else 2)

lemma work_le (n : Nat) (s : ZmqPub) : s.work n ≤ n - s.mail.handled.length + 2 := by
  unfold work
  split_ifs <;> omega

lemma handed_on_of_work_eq_zero {n : Nat} (h : s.work n = 0) : n ≤ s.mail.handled.length := by
  unfold work at h
  split_ifs at h <;> omega

lemma work_publish (n : Nat) (s : ZmqPub) (m : Payload) :
    ({ s with mail := s.mail.push m } : ZmqPub).work n = s.work n := rfl

lemma work_test {n : Nat} (hthread : s.thread = .looping) :
    ({ s with thread := .draining } : ZmqPub).work n ≤ s.work n - 1 := by
  unfold work
  rw [hthread]
  simp only [reduceCtorEq, false_and, if_false, if_true]
  split_ifs <;> omega

lemma work_drain {n : Nat} (h : s.Inv) (hthread : s.thread = .draining) (hn : n ≤ s.mail.pushed.length) :
    ({ s with mail := s.mail.drain, thread := if s.mail.queue = [] then .looping else .sending } :
      ZmqPub).work n ≤ s.work n - 1 := by
  have hlength := h.sound.length_eq
  have hbatch : s.mail.batch.length = 0 := by
    rw [h.empty_handed (by rw [hthread]; decide), List.length_nil]
  unfold work
  show (if n ≤ s.mail.handled.length then 0
    else if (if s.mail.queue = [] then PubThread.looping else .sending) = .sending ∧
        n ≤ s.mail.handled.length + s.mail.queue.length then n - s.mail.handled.length
      else n - s.mail.handled.length +
        (if (if s.mail.queue = [] then PubThread.looping else .sending) = .draining then 1 else 2)) ≤ _
  by_cases hqueue : s.mail.queue = []
  · -- nothing was waiting, so all that was published has been handed on
    have hdone : n ≤ s.mail.handled.length := by
      rw [hqueue, List.length_nil] at hlength
      omega
    rw [if_pos hdone]
    exact Nat.zero_le _
  · rw [hthread]
    simp only [hqueue, if_false, reduceCtorEq, false_and, true_and, if_true]
    split_ifs <;> omega

lemma work_send {n : Nat} (h : s.Inv) (hthread : s.thread = .sending) :
    ({ s with mail := s.mail.handle, thread := if s.mail.batch.tail = [] then .looping else .sending } :
      ZmqPub).work n ≤ s.work n - 1 := by
  obtain ⟨hhandled, hbatch⟩ := Mailbox.length_handle (h.holding.mpr hthread)
  unfold work
  dsimp only
  rw [hhandled, hthread]
  by_cases hlast : s.mail.batch.tail = []
  · have hone : s.mail.handle.batch.length = 0 := by
      show s.mail.batch.tail.length = 0
      rw [hlast, List.length_nil]
    simp only [hlast, if_true, reduceCtorEq, false_and, true_and, if_false]
    split_ifs <;> omega
  · simp only [hlast, if_false, reduceCtorEq, true_and]
    split_ifs <;> omega

/-- A step of the thread takes one unit off the work; no step adds to it as long as `stop` is not called. -/
lemma serving_step {n : Nat} (h : s.Inv ∧ s.Serving ∧ n ≤ s.mail.pushed.length) (hgoes : isStop a = false)
    (hstep : machine.step s a = some t) :
    (t.Inv ∧ t.Serving ∧ n ≤ t.mail.pushed.length) ∧ t.work n ≤ s.work n - (if own a = true then 1 else 0) := by
  obtain ⟨hinv, ⟨hup, hthread⟩, hn⟩ := h
  have hnext := hinv.step hstep
  have hrunning : s.running = true := hinv.running (by rcases hthread with h | h | h <;> rw [h] <;> decide)
  cases a with
  | publish m =>
    obtain rfl := Option.some.inj hstep
    have hpushed : n ≤ (s.mail.push m).pushed.length := by
      show n ≤ (s.mail.pushed ++ [m]).length
      rw [List.length_append]
      omega
    exact ⟨⟨hnext, ⟨hup, hthread⟩, hpushed⟩, le_of_eq (work_publish n s m)⟩
  | start =>
    obtain rfl : s = t := Option.some.inj ((if_pos hrunning).symm.trans hstep)
    exact ⟨⟨hnext, ⟨hup, hthread⟩, hn⟩, le_rfl⟩
  | stop => cases hgoes
  | join =>
    obtain ⟨⟨hdown, -⟩, -⟩ := Option.ite_none_right_eq_some.mp hstep
    rw [hup] at hdown
    cases hdown
  | opened ok =>
    obtain ⟨hopening, -⟩ := Option.ite_none_right_eq_some.mp hstep
    rw [hopening] at hthread
    exact absurd hthread (by decide)
  | test =>
    obtain ⟨hlooping, ht⟩ := Option.ite_none_right_eq_some.mp hstep
    have hdraining : (if s.shutdown = true then PubThread.exited else .draining) = .draining :=
      if_neg (Bool.eq_false_iff.mp hup)
    rw [hdraining] at ht
    obtain rfl := Option.some.inj ht
    exact ⟨⟨hnext, ⟨hup, .inr (.inl rfl)⟩, hn⟩, work_test hlooping⟩
  | drain =>
    obtain ⟨hdraining, ht⟩ := Option.ite_none_right_eq_some.mp hstep
    obtain rfl := Option.some.inj ht
    refine ⟨⟨hnext, ⟨hup, ?_⟩, hn⟩, work_drain hinv hdraining hn⟩
    show (if s.mail.queue = [] then PubThread.looping else .sending) = _ ∨ _
    split
    · exact .inl rfl
    · exact .inr (.inr rfl)
  | send =>
    obtain ⟨hsending, ht⟩ := Option.ite_none_right_eq_some.mp hstep
    obtain rfl := Option.some.inj ht
    refine ⟨⟨hnext, ⟨hup, ?_⟩, hn⟩, work_send hinv hsending⟩
    show (if s.mail.batch.tail = [] then PubThread.looping else .sending) = _ ∨ _
    split
    · exact .inl rfl
    · exact .inr (.inr rfl)

lemma pushed_grows (hstep : machine.step s a = some t) : s.mail.pushed <+: t.mail.pushed := by
  cases a with
  | publish m =>
    obtain rfl := Option.some.inj hstep
    exact List.prefix_append s.mail.pushed [m]
  | start =>
    by_cases hrunning : s.running = true
    · obtain rfl : s = t := Option.some.inj ((if_pos hrunning).symm.trans hstep)
      exact List.prefix_rfl
    · obtain rfl := Option.some.inj ((if_neg hrunning).symm.trans hstep)
      exact List.prefix_rfl
  | stop =>
    obtain rfl := Option.some.inj hstep
    exact List.prefix_rfl
  | join | opened _ | test | drain | send =>
    obtain ⟨-, ht⟩ := Option.ite_none_right_eq_some.mp hstep
    obtain rfl := Option.some.inj ht
    exact List.prefix_rfl

/-- In every reachable state the frames handed to `zmq_send` are those of the messages published first, each
once and in order, and a thread that has left its loop holds none back. Until `stop` is called, whatever the
producers do in between, the thread has handed on all that is published now once it has taken two steps more
than messages are missing. -/
theorem published_in_order (hs : machine.Reachable s) :
    s.mail.handled <+: s.mail.pushed ∧
    (s.thread = .exited → s.mail.handled ++ s.mail.queue = s.mail.pushed) ∧
    ∀ as t, s.Serving → (∀ a ∈ as, isStop a = false) → machine.run s as = some t →
      s.mail.pushed.length - s.mail.handled.length + 2 ≤ as.countP own → s.mail.pushed <+: t.mail.handled := by
  have hinv := reachable_inv hs
  refine ⟨hinv.sound.handled_prefix, ?_, ?_⟩
  · intro hexited
    have hbatch := hinv.empty_handed (by rw [hexited]; decide)
    have hsound : s.mail.handled ++ s.mail.batch ++ s.mail.queue = s.mail.pushed := hinv.sound
    rw [hbatch, List.append_nil] at hsound
    exact hsound
  · intro as t hserving hgoes hrun hsteps
    have hleft : t.work s.mail.pushed.length ≤ s.work s.mail.pushed.length - as.countP own :=
      machine.run_work_le (fun _ _ _ h hgoes hstep => serving_step h hgoes hstep)
        ⟨hinv, hserving, le_rfl⟩ hgoes hrun
    have hbound := work_le s.mail.pushed.length s
    have hdone : s.mail.pushed.length ≤ t.mail.handled.length := handed_on_of_work_eq_zero (by omega)
    have hend : s.mail.pushed <+: t.mail.pushed ∧ t.Inv := by
      refine machine.run_keeps (I := fun u => s.mail.pushed <+: u.mail.pushed ∧ u.Inv) ?_
        ⟨List.prefix_rfl, hinv⟩ hrun
      intro u b v h hstep
      exact ⟨h.1.trans (pushed_grows hstep), h.2.step hstep⟩
    exact hend.2.sound.prefix_handled hend.1 hdone

/-- A signal waits while the thread is about to test its flag. -/
def signalWaits : ZmqPub where
  mail := { queue := [.signal (bytesOf "signal|BUY")], pushed := [.signal (bytesOf "signal|BUY")] }
  running := true
  thread := .looping

theorem published_in_order_signalWaits :
    ∃ t, machine.run signalWaits [.test, .drain, .publish (.tick {}), .send] = some t ∧
      signalWaits.mail.pushed <+: t.mail.handled := by
  have hs : machine.Reachable signalWaits :=
    ⟨[.start, .opened true, .publish (.signal (bytesOf "signal|BUY"))], rfl⟩
  obtain ⟨-, -, hserves⟩ := published_in_order hs
  have hserving : signalWaits.Serving := ⟨rfl, .inl rfl⟩
  refine ⟨_, rfl, ?_⟩
  exact hserves [.test, .drain, .publish (.tick {}), .send] _ hserving (by decide) rfl (by decide)

end ZmqPub

end LatencyArb
