import LatencyArb.Engine
import LatencyArb.Library.Numeral

/-!
# The sessions of the feed readers (`src/binance_ws.cpp`, `src/deribit_ws.cpp`, `src/bybit_ws.cpp`)

The readers make a session, which starts one asynchronous operation after the other, and a timer for a new
one when an operation fails. A list of actions is an order in which operations complete and timers fire.
-/

namespace LatencyArb

namespace FeedReader

/-- The asynchronous operations of a session, by their handlers. -/
inductive Op where
  | resolve
  | connect
  | tls
  | handshake
  | subscribe
  | read
  | pong
  deriving DecidableEq

/-- A message of the server, with what `handle_message` reads of it. -/
inductive Message where
  | bookTicker (bid ask : ℚ)
  | priceIndex (price : ℚ)
  | orderbook (bid ask : ℚ)
  | ping
  | other

/-- What the handler of an operation is called with. `sniFailed` is a connection whose host name cannot
be set. -/
inductive Outcome where
  | ok
  | failed
  | sniFailed
  | message (nowMs : Int) (m : Message)

/-- Where the three readers differ. `handleMessage` gives the tick pushed and the reply. -/
structure Feed where
  subscribes : Bool
  handleMessage : Int → Message → Option Tick × List UInt8
  baseDelay : ℚ
  maxDelay : ℚ
  delaysPerSecond : ℚ

def kPong : List UInt8 := Numeral.bytesOf "\x7b\"op\":\"pong\"\x7d"

/-- `BinanceWs`. -/
def binance : Feed where
  subscribes := false
  handleMessage
    | nowMs, .bookTicker bid ask => (some (Engine.binanceTick nowMs bid ask), [])
    | _, _ => (none, [])
  baseDelay := 2
  maxDelay := 60
  delaysPerSecond := 1

/-- `DeribitWs`. -/
def deribit : Feed where
  subscribes := true
  handleMessage
    | nowMs, .priceIndex price => (Engine.deribitTick nowMs price, [])
    | _, _ => (none, [])
  baseDelay := 2
  maxDelay := 60
  delaysPerSecond := 1

/-- `BybitWs`, whose delays are in milliseconds. -/
def bybit : Feed where
  subscribes := true
  handleMessage
    | _, .ping => (none, kPong)
    | nowMs, .orderbook bid ask => (Engine.bybitTick nowMs bid ask, [])
    | _, _ => (none, [])
  baseDelay := 2000
  maxDelay := 60000
  delaysPerSecond := 1000

inductive Action where
  | start
  | stop
  | join
  | fire (k : Nat)
  | done (i : Nat) (op : Op) (outcome : Outcome)

end FeedReader

/-- A reader. `sessions` has the operations in flight of every session made so far, which keep it alive,
`running` is `running_` with `io_`, and `timers` has the waits of the timers scheduled, in milliseconds.
`scheduled` and `pushed` record which session has scheduled a timer and pushed a tick. -/
structure FeedReader where
  sessions : List (List FeedReader.Op) := []
  session : Option Nat := none
  timers : List Int := []
  reconnectDelay : ℚ := 2
  running : Bool := false
  stopped : Bool := false
  scheduled : List Nat := []
  pushed : List (Nat × Tick) := []

namespace FeedReader

/-- The operations of a session in flight. -/
def ops (r : FeedReader) (i : Nat) : List Op := r.sessions.getD i []

/-- The sessions that are alive. -/
def live (r : FeedReader) : Nat := r.sessions.countP (fun ops => !ops.isEmpty)

def setOps (r : FeedReader) (i : Nat) (ops : List Op) : FeedReader :=
  { r with sessions := r.sessions.set i ops }

def begin (r : FeedReader) (i : Nat) (op : Op) : FeedReader := r.setOps i (r.ops i ++ [op])

def spawnSession (r : FeedReader) : FeedReader :=
  if r.stopped || !r.running then r
  else { r with sessions := r.sessions ++ [[.resolve]], session := some r.sessions.length }

def scheduleReconnect (r : FeedReader) (i : Nat) (delayS : ℚ) : FeedReader :=
  if r.stopped || !r.running then r
  else { r with timers := r.timers ++ [truncZero (delayS * 1000)], scheduled := r.scheduled ++ [i] }

section

variable (feed : Feed)

def fail (r : FeedReader) (i : Nat) : FeedReader :=
  if r.stopped then r
  else
    { r with
      session := none
      reconnectDelay := min (r.reconnectDelay * 2) feed.maxDelay }.scheduleReconnect i
        (r.reconnectDelay / feed.delaysPerSecond)

/-- `on_read` without an error. -/
def onRead (r : FeedReader) (i : Nat) (nowMs : Int) (m : Message) : FeedReader :=
  let (tick, reply) := feed.handleMessage nowMs m
  let r := { r with pushed := r.pushed ++ tick.toList.map (Prod.mk i) }
  let r := if reply.isEmpty then r else r.begin i .pong
  r.begin i .read

/-- The handler of an operation. -/
def onDone (r : FeedReader) (i : Nat) : Op → Outcome → Option FeedReader
  | _, .failed => some (r.fail feed i)
  | .connect, .sniFailed => some (r.fail feed i)
  | .resolve, .ok => some (r.begin i .connect)
  | .connect, .ok => some (r.begin i .tls)
  | .tls, .ok => some (r.begin i .handshake)
  | .handshake, .ok => some (r.begin i (if feed.subscribes then .subscribe else .read))
  | .subscribe, .ok => some (r.begin i .read)
  | .read, .message nowMs m => some (r.onRead feed i nowMs m)
  | .pong, .ok => some r
  | _, _ => none

/-- `start` with the head of `run`; `join` is the end of `run`, which destroys the operations and the
timers. -/
def step (r : FeedReader) : Action → Option FeedReader
  | .start =>
    if r.running then some r
    else some { r with running := true, stopped := false, reconnectDelay := feed.baseDelay }.spawnSession
  | .stop => some { r with stopped := true }
  | .join =>
    if r.stopped then some { r with running := false, sessions := r.sessions.map (fun _ => []), timers := [] }
    else none
  | .fire k =>
    if k < r.timers.length then some { r with timers := r.timers.eraseIdx k }.spawnSession else none
  | .done i op outcome =>
    if op ∈ r.ops i then (r.setOps i ((r.ops i).erase op)).onDone feed i op outcome else none

def machine : Machine FeedReader Action where
  init := {}
  step := step feed

end

/-! ## What a step can do -/

/-- The handler of the operation calls `fail`. -/
def fails : Op → Outcome → Bool
  | _, .failed => true
  | .connect, .sniFailed => true
  | _, _ => false

inductive Moves (feed : Feed) (r : FeedReader) : Action → FeedReader → Prop where
  | running (running : r.running = true) : Moves feed r .start r
  | start (down : r.running = false) : Moves feed r .start
      { r with running := true, stopped := false, reconnectDelay := feed.baseDelay }.spawnSession
  | stop : Moves feed r .stop { r with stopped := true }
  | join (stopped : r.stopped = true) : Moves feed r .join
      { r with running := false, sessions := r.sessions.map (fun _ => []), timers := [] }
  | fire (k : Nat) (scheduled : k < r.timers.length) :
      Moves feed r (.fire k) { r with timers := r.timers.eraseIdx k }.spawnSession
  | fails (i : Nat) (op : Op) (outcome : Outcome) (inFlight : op ∈ r.ops i)
      (failed : fails op outcome = true) :
      Moves feed r (.done i op outcome) ((r.setOps i ((r.ops i).erase op)).fail feed i)
  | goesOn (i : Nat) (op : Op) (outcome : Outcome) (next : List Op) (pushed : List (Nat × Tick))
      (inFlight : op ∈ r.ops i) (ok : fails op outcome = false)
      (next_ok : op ≠ .pong → ∃ b ∈ next, b ≠ .pong)
      (alone : (∀ nowMs m, (feed.handleMessage nowMs m).2 = []) → op ≠ .pong →
        next.length ≤ 1 ∧ .pong ∉ next) :
      Moves feed r (.done i op outcome)
        { r.setOps i ((r.ops i).erase op ++ next) with pushed := pushed }

variable {feed : Feed} {r r' : FeedReader} {i : Nat} {op : Op}

lemma lt_of_mem_ops (h : op ∈ r.ops i) : i < r.sessions.length := by
  by_contra hge
  rw [ops, List.getD_eq_default _ _ (by omega)] at h
  cases h

@[simp] lemma ops_setOps_self (h : i < r.sessions.length) (os : List Op) : (r.setOps i os).ops i = os := by
  simp [ops, setOps, h]

@[simp] lemma ops_setOps_of_ne {j : Nat} (h : j ≠ i) (os : List Op) : (r.setOps i os).ops j = r.ops j := by
  simp [ops, setOps, List.getElem?_set_ne h.symm]

@[simp] lemma setOps_setOps (os os' : List Op) : (r.setOps i os).setOps i os' = r.setOps i os' := by
  simp [setOps]

lemma begin_setOps (h : i < r.sessions.length) (os : List Op) (op : Op) :
    (r.setOps i os).begin i op = r.setOps i (os ++ [op]) := by
  rw [begin, ops_setOps_self h, setOps_setOps]

lemma begin_pushed (h : i < r.sessions.length) (os : List Op) (op : Op) (pushed : List (Nat × Tick)) :
    { r.setOps i os with pushed := pushed }.begin i op =
      { r.setOps i (os ++ [op]) with pushed := pushed } := by
  have hpushed : { r.setOps i os with pushed := pushed }.begin i op =
      { (r.setOps i os).begin i op with pushed := pushed } := rfl
  rw [hpushed, begin_setOps h]

lemma onRead_eq (h : i < r.sessions.length) (os : List Op) (nowMs : Int) (m : Message) :
    (r.setOps i os).onRead feed i nowMs m =
      { r.setOps i (os ++ ((if (feed.handleMessage nowMs m).2.isEmpty then [] else [.pong]) ++ [.read])) with
        pushed := r.pushed ++ (feed.handleMessage nowMs m).1.toList.map (Prod.mk i) } := by
  unfold onRead
  dsimp only
  split
  · exact begin_pushed h os .read _
  · rw [← List.append_assoc]
    exact (congrArg (fun r : FeedReader => r.begin i .read) (begin_pushed h os .pong _)).trans
      (begin_pushed h _ .read _)

/-- A handler that starts one operation. -/
lemma Moves.next {outcome : Outcome} (hmem : op ∈ r.ops i) (hok : FeedReader.fails op outcome = false)
    (next : Op) (hnext : next ≠ .pong) :
    Moves feed r (.done i op outcome) ((r.setOps i ((r.ops i).erase op)).begin i next) := by
  rw [begin_setOps (lt_of_mem_ops hmem)]
  exact .goesOn i op outcome [next] r.pushed hmem hok (fun _ => ⟨next, List.mem_singleton_self next, hnext⟩)
    (fun _ _ => ⟨le_refl 1, fun h => hnext (List.mem_singleton.mp h).symm⟩)

lemma done_moves {outcome : Outcome} (hmem : op ∈ r.ops i)
    (hs : (r.setOps i ((r.ops i).erase op)).onDone feed i op outcome = some r') :
    Moves feed r (.done i op outcome) r' := by
  unfold onDone at hs
  split at hs <;> cases hs
  · exact .fails i op .failed hmem (by cases op <;> rfl)
  · exact .fails i .connect .sniFailed hmem rfl
  · exact .next hmem rfl .connect (by simp)
  · exact .next hmem rfl .tls (by simp)
  · exact .next hmem rfl .handshake (by simp)
  · exact .next hmem rfl _ (by split <;> simp)
  · exact .next hmem rfl .read (by simp)
  · rename_i nowMs m
    rw [onRead_eq (lt_of_mem_ops hmem)]
    refine .goesOn i .read _ _ _ hmem rfl (fun _ => ⟨.read, by simp, by simp⟩) ?_
    intro hsilent _
    simp [hsilent]
  · rw [← List.append_nil ((r.ops i).erase .pong)]
    exact .goesOn i .pong .ok [] r.pushed hmem rfl (fun h => absurd rfl h) (fun _ h => absurd rfl h)

theorem step_moves {a : Action} (hs : r.step feed a = some r') : Moves feed r a r' := by
  cases a with
  | start =>
    rw [step] at hs
    split at hs
    · cases hs
      exact .running ‹_›
    · rename_i hdown
      cases hs
      exact .start (Bool.eq_false_iff.mpr hdown)
  | stop =>
    cases hs
    exact .stop
  | join =>
    rw [step] at hs
    split at hs <;> cases hs
    exact .join ‹_›
  | fire k =>
    rw [step] at hs
    split at hs <;> cases hs
    exact .fire k ‹_›
  | done i op outcome =>
    rw [step] at hs
    split at hs
    · exact done_moves ‹_› hs
    · cases hs

/-! ## Counting the sessions -/

lemma live_setOps (h : i < r.sessions.length) (os : List Op) :
    (r.setOps i os).live + (if (r.ops i).isEmpty then 0 else 1) = r.live + (if os.isEmpty then 0 else 1) := by
  have hget : r.ops i = r.sessions[i] := by simp [ops, h]
  have hset := List.countP_set (p := fun ops : List Op => !ops.isEmpty) (a := os) h
  unfold live setOps
  rw [hget]
  dsimp only
  rw [hset]
  cases hempty : r.sessions[i].isEmpty with
  | true => simp
  | false =>
    have hpos : 0 < r.sessions.countP (fun ops => !ops.isEmpty) :=
      List.countP_pos_iff.mpr ⟨r.sessions[i], List.getElem_mem h, by simp [hempty]⟩
    simp
    omega

lemma live_setOps_of_ops (hmem : op ∈ r.ops i) (os : List Op) :
    (r.setOps i os).live + 1 = r.live + (if os.isEmpty then 0 else 1) := by
  have hcount := live_setOps (lt_of_mem_ops hmem) os
  have hsome : (r.ops i).isEmpty = false := by
    rw [List.isEmpty_eq_false_iff]
    exact List.ne_nil_of_mem hmem
  simpa only [hsome, Bool.false_eq_true, if_false] using hcount

lemma live_pos (hmem : op ∈ r.ops i) : 0 < r.live := by
  have hcount := live_setOps_of_ops hmem []
  simp only [List.isEmpty_nil, if_true] at hcount
  omega

lemma ops_of_live_eq_zero (h : r.live = 0) (i : Nat) : r.ops i = [] := by
  cases hops : r.ops i with
  | nil => rfl
  | cons op os =>
    have hmem : op ∈ r.ops i := by
      rw [hops]
      exact List.mem_cons_self
    have hpos := live_pos hmem
    omega

/-- The only session that is alive. -/
lemma eq_of_live {j : Nat} (h : r.live ≤ 1) (hmem : op ∈ r.ops i) (hj : r.ops j ≠ []) : j = i := by
  by_contra hne
  have hcount := live_setOps_of_ops hmem []
  simp only [List.isEmpty_nil, if_true] at hcount
  have hnone := ops_of_live_eq_zero (r := r.setOps i []) (by omega) j
  rw [ops_setOps_of_ne hne] at hnone
  exact hj hnone

/-- At most one session or timer, and none while the reader is down. A session that has scheduled a timer is
over, and one that is not over has more to do than to write, unless the reader was stopped. -/
structure SessionInv (r : FeedReader) : Prop where
  one : r.live + r.timers.length ≤ 1
  down : r.running = false → r.live + r.timers.length = 0
  ended : ∀ i ∈ r.scheduled, i < r.sessions.length ∧ r.ops i = []
  nodup : r.scheduled.Nodup
  reading : ∀ i, r.ops i ≠ [] → r.stopped = true ∨ ∃ op ∈ r.ops i, op ≠ .pong

/-- A new session comes with its first operation. -/
lemma ops_spawnSession (r : FeedReader) (j : Nat) :
    r.spawnSession.ops j = r.ops j ∨ r.ops j = [] ∧ r.spawnSession.ops j = [.resolve] := by
  unfold spawnSession
  split
  · exact .inl rfl
  · by_cases hlt : j < r.sessions.length
    · left
      simp [ops, List.getElem?_append_left hlt]
    · have hdead : r.ops j = [] := List.getD_eq_default _ _ (by omega)
      by_cases hlast : j = r.sessions.length
      · exact .inr ⟨hdead, by simp [ops, hlast]⟩
      · left
        rw [hdead]
        exact List.getD_eq_default _ _ (by rw [List.length_append, List.length_singleton]; omega)

lemma ops_spawnSession_ne {j : Nat} (h : r.ops j ≠ []) : r.spawnSession.ops j ≠ [] := by
  obtain hsame | ⟨hdead, -⟩ := ops_spawnSession r j
  · rw [hsame]
    exact h
  · exact absurd hdead h

lemma SessionInv.spawnSession (h : SessionInv r) (hnone : r.live + r.timers.length = 0) :
    SessionInv r.spawnSession := by
  have hdead : ∀ j, r.ops j = [] := ops_of_live_eq_zero (by omega)
  by_cases hup : (r.stopped || !r.running) = true
  · rw [FeedReader.spawnSession, if_pos hup]
    exact h
  · have hrunning : r.running = true := by
      rw [Bool.or_eq_true, not_or] at hup
      simpa using hup.2
    have hspawn : r.spawnSession =
        { r with sessions := r.sessions ++ [[.resolve]], session := some r.sessions.length } := if_neg hup
    have hlive : r.spawnSession.live = r.live + 1 := by
      rw [hspawn]
      simp [live]
    refine ⟨?_, ?_, ?_, ?_, ?_⟩
    · rw [hlive, hspawn]
      dsimp only
      omega
    · rw [hspawn]
      intro hdown
      exact absurd (hdown.symm.trans hrunning) (by simp)
    · rw [hspawn]
      intro j hj
      have hlt := (h.ended j hj).1
      refine ⟨?_, ?_⟩
      · show j < (r.sessions ++ [[Op.resolve]]).length
        rw [List.length_append]
        omega
      · rw [← hdead j]
        simp [ops, List.getElem?_append_left hlt]
    · rw [hspawn]
      exact h.nodup
    · intro j hj
      right
      obtain hsame | ⟨-, hnew⟩ := ops_spawnSession r j
      · exact absurd (hsame.trans (hdead j)) hj
      · exact ⟨.resolve, by rw [hnew]; exact List.mem_singleton_self _, by simp⟩

/-- A step of one session that leaves it over, or with something else to do than to write. -/
lemma SessionInv.setOps (h : SessionInv r) (hmem : op ∈ r.ops i) (os : List Op)
    (hreading : os = [] ∨ r.stopped = true ∨ ∃ op ∈ os, op ≠ .pong) : SessionInv (r.setOps i os) := by
  have hlt := lt_of_mem_ops hmem
  have hcount := live_setOps_of_ops hmem os
  have hle : (r.setOps i os).live ≤ r.live := by
    split at hcount <;> omega
  have hone := h.one
  have hpos := live_pos hmem
  refine ⟨?_, ?_, ?_, h.nodup, ?_⟩
  · show (r.setOps i os).live + r.timers.length ≤ 1
    omega
  · intro hdown
    have hzero := h.down hdown
    omega
  · intro j hj
    obtain ⟨hjlt, hended⟩ := h.ended j hj
    have hne : j ≠ i := by
      rintro rfl
      rw [hended] at hmem
      cases hmem
    refine ⟨?_, by rw [ops_setOps_of_ne hne, hended]⟩
    show j < (r.sessions.set i os).length
    rw [List.length_set]
    exact hjlt
  · intro j hj
    by_cases hne : j = i
    · subst hne
      rw [ops_setOps_self hlt] at hj ⊢
      exact hreading.resolve_left hj
    · rw [ops_setOps_of_ne hne] at hj ⊢
      exact h.reading j hj

lemma fail_of_stopped (h : r.stopped = true) : r.fail feed i = r := if_pos h

variable (feed) in
lemma fail_eq (hstopped : r.stopped = false) (hrunning : r.running = true) :
    r.fail feed i =
      { r with
        session := none
        reconnectDelay := min (r.reconnectDelay * 2) feed.maxDelay
        timers := r.timers ++ [truncZero (r.reconnectDelay / feed.delaysPerSecond * 1000)]
        scheduled := r.scheduled ++ [i] } := by
  simp [fail, scheduleReconnect, hstopped, hrunning]

variable (feed) in
lemma fail_of_running (hstopped : r.stopped = false) (hrunning : r.running = true) :
    ∃ ms delay, r.fail feed i =
      { r with
        session := none
        reconnectDelay := delay
        timers := r.timers ++ [ms]
        scheduled := r.scheduled ++ [i] } :=
  ⟨_, _, fail_eq feed hstopped hrunning⟩

/-! ## One session at a time -/

/-- An operation fails only where no other one of its session is in flight, unless the reader was stopped. -/
def FailsAlone (r : FeedReader) : Action → Prop
  | .done i op outcome => fails op outcome = true → r.stopped = true ∨ r.ops i = [op]
  | _ => True

/-- There is at most one session or timer, a session that ends has scheduled one timer, and the session
that goes on is the only one. -/
structure OneSession (r : FeedReader) (a : Action) (r' : FeedReader) : Prop where
  one : r'.live + r'.timers.length ≤ 1
  once : r'.scheduled.Nodup
  ended : ∀ i, r.ops i ≠ [] → r'.ops i = [] → r'.stopped = true ∨ i ∈ r'.scheduled
  only : ∀ i op outcome, a = .done i op outcome → ∀ j, r.ops j ≠ [] → j = i

variable (feed) in
/-- A session whose last operation fails is replaced by a timer. -/
lemma SessionInv.fail (h : SessionInv r) (hops : r.ops i = [op]) (hstopped : r.stopped = false) :
    SessionInv ((r.setOps i []).fail feed i) ∧ i ∈ ((r.setOps i []).fail feed i).scheduled := by
  have hmem : op ∈ r.ops i := by
    rw [hops]
    exact List.mem_singleton_self op
  have hpos := live_pos hmem
  have hone := h.one
  have hcount := live_setOps_of_ops hmem []
  have hrunning : r.running = true := by
    by_contra hdown
    have hzero := h.down (Bool.eq_false_iff.mpr hdown)
    omega
  have hset := h.setOps hmem [] (.inl rfl)
  obtain ⟨ms, delay, heq⟩ := fail_of_running feed (r := r.setOps i []) (i := i) hstopped hrunning
  have hnotin : i ∉ r.scheduled := by
    intro hi
    rw [(h.ended i hi).2] at hops
    cases hops
  rw [heq]
  refine ⟨⟨?_, ?_, ?_, ?_, hset.reading⟩, List.mem_append_right _ (List.mem_singleton_self i)⟩
  · simp only [List.isEmpty_nil, if_true] at hcount
    show (r.setOps i []).live + (r.timers ++ [ms]).length ≤ 1
    rw [List.length_append, List.length_singleton]
    omega
  · intro hdown
    exact absurd (hdown.symm.trans hrunning) (by simp)
  · intro j hj
    obtain hj | hj := List.mem_append.mp hj
    · exact hset.ended j hj
    · obtain rfl := List.mem_singleton.mp hj
      refine ⟨?_, ops_setOps_self (lt_of_mem_ops hmem) []⟩
      show j < (r.sessions.set j []).length
      rw [List.length_set]
      exact lt_of_mem_ops hmem
  · show (r.scheduled ++ [i]).Nodup
    rw [List.nodup_append_comm]
    exact List.nodup_cons.mpr ⟨hnotin, h.nodup⟩

/-- What is left of the operations of a session that goes on, with what it starts. -/
lemma SessionInv.goesOn (h : SessionInv r) (hmem : op ∈ r.ops i) {next : List Op}
    (hnext : op ≠ .pong → ∃ b ∈ next, b ≠ .pong) :
    r.stopped = true ∨ ∃ b ∈ (r.ops i).erase op ++ next, b ≠ .pong := by
  by_cases hpong : op = .pong
  · apply (h.reading i (List.ne_nil_of_mem hmem)).imp_right
    rintro ⟨b, hb, hne⟩
    have hother : b ≠ op := by
      rw [hpong]
      exact hne
    exact ⟨b, List.mem_append_left _ ((List.mem_erase_of_ne hother).mpr hb), hne⟩
  · obtain ⟨b, hb, hne⟩ := hnext hpong
    exact .inr ⟨b, List.mem_append_right _ hb, hne⟩

lemma ops_join (r : FeedReader) (i : Nat) :
    { r with running := false, sessions := r.sessions.map (fun _ => []), timers := [] }.ops i = [] := by
  simp [ops]

lemma SessionInv.join (h : SessionInv r) :
    SessionInv { r with running := false, sessions := r.sessions.map (fun _ => []), timers := [] } := by
  have hlive :
      { r with running := false, sessions := r.sessions.map (fun _ => []), timers := [] }.live = 0 := by
    simp [live]
  refine ⟨?_, ?_, ?_, h.nodup, fun j hj => absurd (ops_join r j) hj⟩
  · rw [hlive]
    exact Nat.zero_le 1
  · intro _
    rw [hlive]
    rfl
  · intro j hj
    refine ⟨?_, ops_join r j⟩
    show j < (r.sessions.map (fun _ => ([] : List Op))).length
    rw [List.length_map]
    exact (h.ended j hj).1

/-- The timer that fires is the only one, and no session is alive. -/
lemma SessionInv.fire (h : SessionInv r) {k : Nat} (hk : k < r.timers.length) :
    SessionInv { r with timers := r.timers.eraseIdx k } ∧ r.live + (r.timers.eraseIdx k).length = 0 := by
  have hone := h.one
  have htimers := List.length_eraseIdx_of_lt hk
  have hzero : r.live + (r.timers.eraseIdx k).length = 0 := by omega
  refine ⟨⟨?_, fun _ => hzero, h.ended, h.nodup, h.reading⟩, hzero⟩
  show r.live + (r.timers.eraseIdx k).length ≤ 1
  omega

theorem SessionInv.step {a : Action} (h : SessionInv r) (hs : r.step feed a = some r')
    (hC : r.FailsAlone a) : SessionInv r' ∧
      ∀ j, r.ops j ≠ [] → r'.ops j = [] → r'.stopped = true ∨ j ∈ r'.scheduled := by
  cases step_moves hs with
  | running running => exact ⟨h, fun j hj hnone => absurd hnone hj⟩
  | start down =>
    have hzero := h.down down
    have hreset : SessionInv
        { r with running := true, stopped := false, reconnectDelay := feed.baseDelay } := by
      refine ⟨h.one, fun hdown => absurd hdown (by simp), h.ended, h.nodup, ?_⟩
      intro j hj
      exact absurd (ops_of_live_eq_zero (r := r) (by omega) j) hj
    exact ⟨hreset.spawnSession hzero, fun j hj hnone => absurd hnone (ops_spawnSession_ne hj)⟩
  | stop => exact ⟨⟨h.one, h.down, h.ended, h.nodup, fun _ _ => .inl rfl⟩, fun _ _ _ => .inl rfl⟩
  | join stopped => exact ⟨h.join, fun _ _ _ => .inl stopped⟩
  | fire k scheduled =>
    obtain ⟨hfired, hzero⟩ := h.fire scheduled
    exact ⟨hfired.spawnSession hzero, fun j hj hnone => absurd hnone (ops_spawnSession_ne hj)⟩
  | fails i op outcome inFlight failed =>
    cases hstopped : r.stopped with
    | true =>
      have hsame : (r.setOps i ((r.ops i).erase op)).fail feed i = r.setOps i ((r.ops i).erase op) :=
        fail_of_stopped hstopped
      rw [hsame]
      exact ⟨h.setOps inFlight _ (.inr (.inl hstopped)), fun _ _ _ => .inl hstopped⟩
    | false =>
      have hops := (hC failed).resolve_left (by simp [hstopped])
      have herase : (r.ops i).erase op = [] := by simp [hops]
      rw [herase]
      obtain ⟨hinv, hi⟩ := h.fail feed hops hstopped
      refine ⟨hinv, fun j hj _ => .inr ?_⟩
      have hone := h.one
      obtain rfl := eq_of_live (by omega) inFlight hj
      exact hi
  | goesOn i op outcome next pushed inFlight ok next_ok alone =>
    have hrest := h.goesOn inFlight next_ok
    have hinv := h.setOps inFlight ((r.ops i).erase op ++ next) (.inr hrest)
    refine ⟨⟨hinv.one, hinv.down, hinv.ended, hinv.nodup, hinv.reading⟩, ?_⟩
    intro j hj hnone
    have hone := h.one
    obtain rfl := eq_of_live (by omega) inFlight hj
    apply hrest.imp id
    rintro ⟨b, hb, -⟩
    have hops : (r.setOps j ((r.ops j).erase op ++ next)).ops j = [] := hnone
    rw [ops_setOps_self (lt_of_mem_ops inFlight)] at hops
    rw [hops] at hb
    cases hb

lemma init_sessionInv (feed : Feed) : SessionInv (machine feed).init where
  one := Nat.zero_le _
  down _ := rfl
  ended _ h := by cases h
  nodup := List.nodup_nil
  reading _ h := absurd rfl h

/-- A failure next to another operation leaves the session alive beside the timer. -/
lemma failsAlone_of_one {a : Action} (h : SessionInv r) (hs : r.step feed a = some r')
    (hone : r'.live + r'.timers.length ≤ 1) : r.FailsAlone a := by
  cases step_moves hs with
  | fails i op outcome inFlight failed =>
    intro _
    by_contra hnot
    rw [not_or, Bool.not_eq_true] at hnot
    obtain ⟨hstopped, hops⟩ := hnot
    have hpos := live_pos inFlight
    have hrunning : r.running = true := by
      by_contra hdown
      have hzero := h.down (Bool.eq_false_iff.mpr hdown)
      omega
    have hrest : ((r.ops i).erase op).isEmpty = false := by
      rw [List.isEmpty_eq_false_iff, Ne, List.erase_eq_nil_iff]
      exact not_or.mpr ⟨List.ne_nil_of_mem inFlight, hops⟩
    have hcount := live_setOps_of_ops inFlight ((r.ops i).erase op)
    obtain ⟨ms, delay, heq⟩ := fail_of_running feed
      (r := r.setOps i ((r.ops i).erase op)) (i := i) hstopped hrunning
    rw [heq] at hone
    have htwo : (r.setOps i ((r.ops i).erase op)).live + (r.timers ++ [ms]).length ≤ 1 := hone
    rw [List.length_append, List.length_singleton] at htwo
    simp only [hrest, Bool.false_eq_true, if_false] at hcount
    omega
  | goesOn i op outcome next pushed inFlight ok next_ok alone =>
    intro hfails
    rw [ok] at hfails
    cases hfails
  | _ => trivial

/-- The operation of a session, which writes no reply. -/
def OneOperation (r : FeedReader) : Prop := ∀ i, (r.ops i).length ≤ 1 ∧ .pong ∉ r.ops i

lemma OneOperation.spawnSession (h : OneOperation r) : OneOperation r.spawnSession := by
  intro j
  obtain hsame | ⟨-, hnew⟩ := ops_spawnSession r j
  · rw [hsame]
    exact h j
  · rw [hnew]
    simp

lemma OneOperation.setOps (h : OneOperation r) (hmem : op ∈ r.ops i) {os : List Op}
    (hos : os.length ≤ 1 ∧ .pong ∉ os) : OneOperation (r.setOps i os) := by
  intro j
  by_cases hne : j = i
  · subst hne
    rw [ops_setOps_self (lt_of_mem_ops hmem)]
    exact hos
  · rw [ops_setOps_of_ne hne]
    exact h j

lemma ops_fail (r : FeedReader) (i j : Nat) : (r.fail feed i).ops j = r.ops j := by
  unfold FeedReader.fail
  split
  · rfl
  · unfold scheduleReconnect
    split <;> rfl

lemma OneOperation.erase (h : OneOperation r) (hmem : op ∈ r.ops i) : (r.ops i).erase op = [] := by
  apply List.eq_nil_of_length_eq_zero
  have hlength := List.length_erase_of_mem hmem
  have hone := (h i).1
  omega

lemma OneOperation.step {a : Action} (hsilent : ∀ nowMs m, (feed.handleMessage nowMs m).2 = [])
    (h : OneOperation r) (hs : r.step feed a = some r') : OneOperation r' := by
  cases step_moves hs with
  | running running => exact h
  | start down => exact OneOperation.spawnSession (fun j => h j)
  | stop => exact h
  | join stopped =>
    intro j
    rw [ops_join]
    simp
  | fire k scheduled => exact OneOperation.spawnSession (fun j => h j)
  | fails i op outcome inFlight failed =>
    intro j
    rw [ops_fail]
    exact h.setOps inFlight (by simp [h.erase inFlight]) j
  | goesOn i op outcome next pushed inFlight ok next_ok alone =>
    have hpong : op ≠ .pong := by
      rintro rfl
      exact (h i).2 inFlight
    exact h.setOps inFlight (by rw [h.erase inFlight]; exact alone hsilent hpong)

/-- Without a reply to write, no operation fails next to another one. -/
lemma always_failsAlone (hsilent : ∀ nowMs m, (feed.handleMessage nowMs m).2 = []) (run : List Action) :
    (machine feed).Always run (fun r a _ => r.FailsAlone a) := by
  intro pre a r r' hpre hr hs
  have hone : OneOperation r := (machine feed).invariant (fun j => ⟨Nat.zero_le 1, List.not_mem_nil⟩)
    (fun _ _ _ _ hI hs => hI.step hsilent hs) ⟨pre, hr⟩
  cases step_moves hs with
  | fails i op outcome inFlight failed =>
    intro _
    right
    exact (List.erase_eq_nil_iff.mp (hone.erase inFlight)).resolve_left (List.ne_nil_of_mem inFlight)
  | goesOn i op outcome next pushed inFlight ok next_ok alone =>
    intro hfails
    rw [ok] at hfails
    cases hfails
  | _ => trivial

/-- In every run of a reader there is one session at a time exactly when no operation fails next to another
one of its session; the readers of Binance and Deribit have only one operation at a time. -/
theorem one_session_iff_fails_alone (feed : Feed) (run : List Action) :
    ((machine feed).Always run OneSession ↔ (machine feed).Always run (fun r a _ => r.FailsAlone a)) ∧
      (machine binance).Always run OneSession ∧ (machine deribit).Always run OneSession := by
  have hiff : ∀ feed : Feed, (machine feed).Always run OneSession ↔
      (machine feed).Always run (fun r a _ => r.FailsAlone a) := by
    intro feed
    apply (machine feed).always_iff_along (I := SessionInv) (init_sessionInv feed)
    · intro r a r' _ hI hs hC
      exact (hI.step hs hC).1
    · intro r a r' _ hI hs
      constructor
      · intro h
        exact failsAlone_of_one hI hs h.one
      · intro hC
        obtain ⟨hI', hended⟩ := hI.step hs hC
        refine ⟨hI'.one, hI'.nodup, hended, ?_⟩
        rintro i op outcome rfl j hj
        have hmem : op ∈ r.ops i := by
          by_contra hnot
          have hnone : r.step feed (.done i op outcome) = none := if_neg hnot
          exact absurd (hs.symm.trans hnone) (by simp)
        have hone := hI.one
        exact eq_of_live (by omega) hmem hj
  have hbinance : ∀ nowMs m, (binance.handleMessage nowMs m).2 = [] := by
    intro nowMs m
    cases m <;> rfl
  have hderibit : ∀ nowMs m, (deribit.handleMessage nowMs m).2 = [] := by
    intro nowMs m
    cases m <;> rfl
  exact ⟨hiff feed, (hiff binance).mpr (always_failsAlone hbinance run),
    (hiff deribit).mpr (always_failsAlone hderibit run)⟩

/-- The session makes its way to its first read. -/
def opened (i : Nat) : List Action :=
  [.done i .resolve .ok, .done i .connect .ok, .done i .tls .ok, .done i .handshake .ok,
    .done i .subscribe .ok]

/-- The connection breaks while the reply to a ping is written. -/
def brokenInPong : List Action :=
  .start :: opened 0 ++ [.done 0 .read (.message 0 .ping), .done 0 .read .failed, .done 0 .pong .failed]

/-- Both timers fire, and both sessions read the same message. -/
def readTwice : List Action :=
  brokenInPong ++ [.fire 0, .fire 0] ++ opened 1 ++ opened 2 ++
    [.done 1 .read (.message 2000 (.orderbook 10000 10001)),
      .done 2 .read (.message 2000 (.orderbook 10000 10001))]

/-- The read and the reply fail, each schedules a timer, and a tick is pushed twice. -/
theorem broken_pong_two_sessions :
    ((machine bybit).run (machine bybit).init brokenInPong).map (fun r => (r.timers, r.scheduled)) =
      some ([2000, 4000], [0, 0]) ∧
    ((machine bybit).run (machine bybit).init readTwice).map (fun r => (r.live, r.pushed)) =
      some (2, (Engine.bybitTick 2000 10000 10001).toList.flatMap (fun t => [(1, t), (2, t)])) ∧
    ¬(machine bybit).Always readTwice OneSession := by
  refine ⟨by decide +kernel, by decide +kernel, ?_⟩
  intro h
  have hone := (h (brokenInPong.take 7) (.done 0 .read .failed) _ _ ⟨_, rfl⟩ rfl rfl).one
  exact absurd hone (by decide)

end FeedReader

end LatencyArb
