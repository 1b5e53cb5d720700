import LatencyArb.Library.Machine
import LatencyArb.Library.Decimal
import LatencyArb.Library.Backoff

/-!
# The Binance client of the stand-alone engine (`BinanceClient` of `lead_lag.cpp`)

A session starts one asynchronous operation after the other, and a timer for a new session when one of
them fails. A list of actions is an order in which operations complete and timers fire.
-/

namespace LatencyArb

namespace LeadLag

/-- The fields of `Config` that `BinanceClient` waits by. -/
structure ReconnectConfig where
  reconnectBaseS : ℚ := 2
  reconnectMaxS : ℚ := 60

namespace BinanceClient

/-- The asynchronous operations of a session, by their handlers. -/
inductive Op where
  | resolve
  | connect
  | tls
  | handshake
  | read
  deriving DecidableEq

/-- `sniFailed` is a connection whose host name cannot be set. -/
inductive Outcome where
  | ok
  | failed
  | sniFailed
  deriving DecidableEq

/-- A reconnect timer, with the delay it was made from. -/
structure Timer where
  delayS : ℚ
  waitMs : Int
  deriving DecidableEq

inductive Action where
  | stop
  | fire (k : Nat)
  | done (k : Nat) (outcome : Outcome)

end BinanceClient

/-- `ops` has the operation in flight of every session that is alive. -/
structure BinanceClient where
  ops : List BinanceClient.Op := []
  timers : List BinanceClient.Timer := []
  reconnectDelayS : ℚ := 2
  stopped : Bool := false

namespace BinanceClient

def startSession (c : BinanceClient) : BinanceClient := { c with ops := c.ops ++ [.resolve] }

section

variable (cfg : ReconnectConfig)

def start (c : BinanceClient) : BinanceClient :=
  { c with reconnectDelayS := cfg.reconnectBaseS }.startSession

def onSessionFailed (c : BinanceClient) : BinanceClient :=
  if c.stopped then c
  else
    let delay := c.reconnectDelayS
    { c with
      reconnectDelayS := min (c.reconnectDelayS * 2) cfg.reconnectMaxS
      timers := c.timers ++ [⟨delay, truncZero (delay * 1000)⟩] }

/-- `Session::fail` -/
def fail (c : BinanceClient) : BinanceClient := if c.stopped then c else c.onSessionFailed cfg

def begin (c : BinanceClient) (op : Op) : BinanceClient := { c with ops := c.ops ++ [op] }

/-- The handler of an operation, which is no longer in flight. -/
def onDone (c : BinanceClient) : Op → Outcome → Option BinanceClient
  | _, .failed => some (c.fail cfg)
  | .connect, .sniFailed => some (c.fail cfg)
  | .resolve, .ok => some (c.begin .connect)
  | .connect, .ok => some (c.begin .tls)
  | .tls, .ok => some (c.begin .handshake)
  | .handshake, .ok => some (c.begin .read)
  | .read, .ok => some (c.begin .read)
  | _, .sniFailed => none

/-- The handler of a reconnect timer. -/
def onTimer (c : BinanceClient) : BinanceClient :=
  if c.stopped then c else { c with reconnectDelayS := cfg.reconnectBaseS }.startSession

def step (c : BinanceClient) : Action → Option BinanceClient
  | .stop => some { c with stopped := true }
  | .fire k => if k < c.timers.length then some ({ c with timers := c.timers.eraseIdx k }.onTimer cfg) else none
  | .done k outcome => c.ops[k]?.bind (fun op => { c with ops := c.ops.eraseIdx k }.onDone cfg op outcome)

def machine : Machine BinanceClient Action where
  init := start cfg {}
  step := step cfg

end

/-- The handler of the operation calls `fail`. -/
def fails : Op → Outcome → Bool
  | _, .failed => true
  | .connect, .sniFailed => true
  | _, _ => false

/-- The action ends a session, and a reconnect is scheduled. -/
def Schedules (c : BinanceClient) : Action → Prop
  | .done k outcome => c.stopped = false ∧ ∃ op, c.ops[k]? = some op ∧ fails op outcome = true
  | _ => False

/-- What an action is to the link of the client. -/
def linkEvents (c : BinanceClient) : Action → List LinkEvent
  | .done k outcome =>
    match c.ops[k]? with
    | none => []
    | some op =>
      if fails op outcome then (if c.stopped then [] else [.failed])
      else if op = .handshake then [.connected] else []
  | _ => []

/-- The client with a record of what happened to its link since `start`. -/
def linked (cfg : ReconnectConfig) : Machine (BinanceClient × List LinkEvent) Action :=
  (machine cfg).recorded linkEvents

/-! ## One session or timer -/

variable {cfg : ReconnectConfig} {c c' : BinanceClient} {a : Action}

/-- At most one session or timer, and while there is a session the delay is the base. -/
structure ClientInv (cfg : ReconnectConfig) (c : BinanceClient) : Prop where
  one : c.ops.length + c.timers.length ≤ 1
  base : c.ops ≠ [] → c.reconnectDelayS = cfg.reconnectBaseS

lemma ClientInv.alone (h : ClientInv cfg c) {k : Nat} {op : Op} (hop : c.ops[k]? = some op) :
    c.ops = [op] ∧ c.ops.eraseIdx k = [] ∧ c.timers = [] := by
  have hone := h.one
  have hlt := (List.getElem?_eq_some_iff.mp hop).1
  obtain ⟨other, hother⟩ := List.length_eq_one_iff.mp (show c.ops.length = 1 by omega)
  have hk : k = 0 := by omega
  rw [hother, hk, List.getElem?_cons_zero, Option.some.injEq] at hop
  refine ⟨by rw [hother, hop], by rw [hother, hk]; rfl, ?_⟩
  exact List.eq_nil_of_length_eq_zero (by omega)

/-- What the handler of the only operation does. -/
lemma onDone_cases {op : Op} {outcome : Outcome} (hdone : c.onDone cfg op outcome = some c') :
    (fails op outcome = true ∧ c' = c.fail cfg) ∨ (fails op outcome = false ∧ ∃ next, c' = c.begin next) := by
  cases op <;> cases outcome <;>
    simp only [onDone, fails, Option.some.injEq, reduceCtorEq] at hdone ⊢ <;> subst hdone <;> simp

lemma fail_of_running (h : c.stopped = false) :
    c.fail cfg = { c with
      reconnectDelayS := min (c.reconnectDelayS * 2) cfg.reconnectMaxS
      timers := c.timers ++ [⟨c.reconnectDelayS, truncZero (c.reconnectDelayS * 1000)⟩] } := by
  simp [fail, onSessionFailed, h]

/-- What a step does to the timers, by whether it schedules a reconnect. -/
inductive LinkStep (c : BinanceClient) (a : Action) (c' : BinanceClient) : Prop where
  | failed (schedules : Schedules c a) (alive : c.ops ≠ [])
      (timers : c'.timers = c.timers ++ [⟨c.reconnectDelayS, truncZero (c.reconnectDelayS * 1000)⟩])
  | kept (idle : ¬Schedules c a) (timers : c'.timers.length ≤ c.timers.length)

lemma ClientInv.done (h : ClientInv cfg c) {k : Nat} {outcome : Outcome} {op : Op}
    (hop : c.ops[k]? = some op)
    (hdone : { c with ops := c.ops.eraseIdx k }.onDone cfg op outcome = some c') :
    ClientInv cfg c' ∧ LinkStep c (.done k outcome) c' := by
  obtain ⟨hops, herase, htimers⟩ := h.alone hop
  have halive : c.ops ≠ [] := by simp [hops]
  rw [herase] at hdone
  obtain ⟨hfails, rfl⟩ | ⟨hok, next, rfl⟩ := onDone_cases hdone
  · by_cases hstopped : c.stopped = true
    · have hsame : { c with ops := [] }.fail cfg = { c with ops := [] } := if_pos hstopped
      rw [hsame]
      refine ⟨⟨?_, fun hne => absurd rfl hne⟩, .kept ?_ le_rfl⟩
      · simp [htimers]
      · exact fun hno => absurd (hstopped.symm.trans hno.1) (by simp)
    · have hrunning : c.stopped = false := Bool.eq_false_iff.mpr hstopped
      rw [fail_of_running (c := { c with ops := [] }) hrunning]
      refine ⟨⟨?_, fun hne => absurd rfl hne⟩, .failed ⟨hrunning, op, hop, hfails⟩ halive rfl⟩
      simp [htimers]
  · refine ⟨⟨?_, fun _ => h.base halive⟩, .kept ?_ le_rfl⟩
    · simp [begin, htimers]
    · rintro ⟨-, other, hother, hfails⟩
      rw [hop, Option.some.injEq] at hother
      rw [← hother, hok] at hfails
      cases hfails

theorem ClientInv.step (h : ClientInv cfg c) (hs : c.step cfg a = some c') :
    ClientInv cfg c' ∧ LinkStep c a c' := by
  cases a with
  | stop =>
    cases hs
    exact ⟨⟨h.one, h.base⟩, .kept id le_rfl⟩
  | fire k =>
    rw [BinanceClient.step] at hs
    split at hs
    · rename_i hk
      cases hs
      have hone := h.one
      have htimers := List.length_eraseIdx_of_lt hk
      have hops : c.ops = [] := List.eq_nil_of_length_eq_zero (by omega)
      unfold onTimer
      split
      · refine ⟨⟨?_, fun hne => absurd hops hne⟩, .kept id (by dsimp only; omega)⟩
        dsimp only
        omega
      · refine ⟨⟨?_, fun _ => rfl⟩, .kept id (by dsimp only [startSession]; omega)⟩
        dsimp only [startSession]
        rw [hops, List.nil_append, List.length_singleton]
        omega
    · cases hs
  | done k outcome =>
    obtain ⟨op, hop, hdone⟩ := Option.bind_eq_some_iff.mp hs
    exact h.done hop hdone

lemma init_clientInv (cfg : ReconnectConfig) : ClientInv cfg (machine cfg).init where
  one := le_rfl
  base _ := rfl

/-! ## The exponential backoff -/

/-- The delay a reconnect timer is made from, of which it waits the whole milliseconds, is the one that the
failures since the last handshake ask for. -/
def FollowsBackoff (cfg : ReconnectConfig) (s : BinanceClient × List LinkEvent) (_ : Action)
    (t : BinanceClient × List LinkEvent) : Prop :=
  ∀ timer, t.1.timers = s.1.timers ++ [timer] →
    timer.delayS = backoff cfg.reconnectBaseS cfg.reconnectMaxS (LinkEvent.consecutive s.2)

/-- A session that fails comes right after a handshake, or doubling changes nothing. -/
def NothingToDouble (cfg : ReconnectConfig) (s : BinanceClient × List LinkEvent) (a : Action)
    (_ : BinanceClient × List LinkEvent) : Prop :=
  Schedules s.1 a → cfg.reconnectBaseS ≤ cfg.reconnectMaxS ∧
    (LinkEvent.consecutive s.2 = 0 ∨ cfg.reconnectBaseS = 0 ∨
      (0 ≤ cfg.reconnectBaseS ∧ cfg.reconnectBaseS = cfg.reconnectMaxS))

/-- For every configuration and every run: each failure waits for the exponential backoff exactly when the
base is no larger than the bound and no failure follows another without a handshake between them, unless
doubling the base and cutting it at the bound changes nothing. -/
theorem reconnects_double_iff (cfg : ReconnectConfig) (run : List Action) :
    (linked cfg).Always run (FollowsBackoff cfg) ↔ (linked cfg).Always run (NothingToDouble cfg) := by
  apply (linked cfg).always_congr
  intro s a t hreachable hs
  have hinv : ClientInv cfg s.1 :=
    (linked cfg).invariant (I := fun s => ClientInv cfg s.1) (init_clientInv cfg)
      (fun _ _ _ _ hI hs => (hI.step (Machine.recorded_step hs).1).1) hreachable
  cases (hinv.step (Machine.recorded_step hs).1).2 with
  | failed schedules alive timers =>
    rw [hinv.base alive] at timers
    have hbase : backoff cfg.reconnectBaseS cfg.reconnectMaxS (LinkEvent.consecutive s.2) =
        cfg.reconnectBaseS ↔ _ := backoff_eq_base_iff (LinkEvent.consecutive s.2)
    constructor
    · intro h _
      exact hbase.mp (h _ timers).symm
    · intro h timer htimer
      rw [timers, List.append_cancel_left_eq, List.singleton_inj] at htimer
      rw [← htimer]
      exact (hbase.mpr (h schedules)).symm
  | kept idle timers =>
    constructor
    · exact fun _ hyes => absurd hyes idle
    · intro _ timer htimer
      rw [htimer, List.length_append, List.length_singleton] at timers
      omega

/-- Two sessions in a row cannot resolve the host. -/
def hostUnreachable : List Action := [.done 0 .failed, .fire 0, .done 0 .failed]

/-- The second failure waits for two seconds again. -/
theorem second_failure_waits_base :
    ((linked {}).run (linked {}).init hostUnreachable).map (fun s => s.1.timers) =
        some [⟨2, 2000⟩] ∧
      ¬(linked {}).Always hostUnreachable (FollowsBackoff {}) := by
  refine ⟨by decide +kernel, ?_⟩
  intro h
  have hwait := h (hostUnreachable.take 2) (.done 0 .failed) _ _ ⟨[], rfl⟩ rfl rfl ⟨2, 2000⟩
    (by decide +kernel)
  have hone : (2 : ℚ) = backoff 2 60 (LinkEvent.consecutive [.failed]) := hwait
  rw [show LinkEvent.consecutive [.failed] = 1 from rfl] at hone
  norm_num [backoff] at hone

end BinanceClient

end LeadLag

end LatencyArb
