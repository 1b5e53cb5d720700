import LatencyArb.Library.Backoff
import LatencyArb.Library.Machine
import LatencyArb.Trader.MomentumSignal

/-!
# The orders of the Python trader

`FXCMExecutor`, `LeadLagTrader.run` and `BinanceWebSocket.prices` of `src/lead_lag_trader.py`. The run
awaits each order, so that a tick and what the broker does at its order are one step. An exception that
leaves `run` ends the program. The positions are the broker's own.
-/

namespace LatencyArb

namespace Trader

/-- A call of fxcmpy's `open_trade`, with its arguments. -/
structure OpenTrade where
  symbol : String
  isBuy : Bool
  amount : ℚ
  isInPips : Bool
  timeInForce : String
  orderType : String
  isInUnits : Bool
  stop : Int
  limit : Int
  deriving DecidableEq

def openTrade (cfg : TradingConfig) (x : Signal) : OpenTrade where
  symbol := cfg.fxcmSymbol
  isBuy := decide (x.direction = .buy)
  amount := cfg.tradeAmount
  isInPips := true
  timeInForce := "GTC"
  orderType := "AtMarket"
  isInUnits := true
  stop := cfg.stopLossPips
  limit := cfg.takeProfitPips

/-- What the surroundings do when the session is opened: whether fxcmpy is there, and whether FXCM lets
the token in. -/
structure Login where
  installed : Bool
  admitted : Bool

/-- The exceptions of `connect`. -/
inductive ConnectError where
  | notInstalled
  | noToken
  | refused
  deriving DecidableEq, Repr

/-- `connect`, with whether it leaves a session. -/
def connect (cfg : TradingConfig) (login : Login) : Except ConnectError Bool :=
  if cfg.dryRun then .ok false
  else if !login.installed then .error .notInstalled
  else if cfg.fxcmToken = "" then .error .noToken
  else if !login.admitted then .error .refused
  else .ok true

/-- What the broker does at an order: whether `get_open_positions` answers, whether `open_trade` opens a
position, and whether it returns or raises. -/
structure Answer where
  reads : Bool
  opens : Bool
  returns : Bool

structure LeadLagTrader where
  signal : MomentumSignal := {}
  ended : Bool := false
  emitted : List (ℚ × Signal) := []
  placed : List (ℚ × OpenTrade) := []
  positions : Nat

/-- A tick of the feed, or a position that closes at the broker. -/
inductive Event where
  | price (now price : ℚ) (answer : Answer)
  | closed

namespace LeadLagTrader

variable (A : Rounding) (cfg : TradingConfig) (api : Bool)

def placeMarketOrder (t : LeadLagTrader) (now : ℚ) (x : Signal) (answer : Answer) : LeadLagTrader :=
  let openPositions : Nat := if answer.reads then t.positions else 0
  if cfg.maxOpenPositions ≤ openPositions then t
  else
    { t with
      placed := t.placed ++ [(now, openTrade cfg x)]
      positions := if answer.opens then t.positions + 1 else t.positions
      ended := !answer.returns }

def execute (t : LeadLagTrader) (now : ℚ) (x : Signal) (answer : Answer) : LeadLagTrader :=
  if cfg.dryRun then t
  else if !api then t
  else t.placeMarketOrder cfg now x answer

/-- One turn of the loop of `run`. -/
def tick (t : LeadLagTrader) (now price : ℚ) (answer : Answer) : LeadLagTrader :=
  match t.signal.update A cfg now price with
  | .error _ => { t with ended := true }
  | .ok (none, signal) => { t with signal := signal }
  | .ok (some x, signal) =>
    { t with signal := signal, emitted := t.emitted ++ [(now, x)] }.execute cfg api now x answer

def step (t : LeadLagTrader) : Event → Option LeadLagTrader
  | .price now price answer => if t.ended then none else some (t.tick A cfg api now price answer)
  | .closed => if t.positions = 0 then none else some { t with positions := t.positions - 1 }

end LeadLagTrader

/-- The trader, once it has connected, with the positions the account has then. -/
def trader (A : Rounding) (cfg : TradingConfig) (api : Bool) (positions : Nat) : Machine LeadLagTrader Event where
  init := { positions := positions }
  step := LeadLagTrader.step A cfg api

/-- The times of the ticks of a run. -/
def tickTimes (events : List Event) : List ℚ :=
  events.filterMap fun
    | .price now _ _ => some now
    | .closed => none

/-! ## What a tick can do -/

section Update

variable {A : Rounding} {cfg : TradingConfig} {s s' : MomentumSignal} {now price : ℚ} {x : Option Signal}

lemma shiftEmas_lastTradeTs (h : s.shiftEmas A cfg price = .ok s') : s'.lastTradeTs = s.lastTradeTs := by
  rw [MomentumSignal.shiftEmas] at h
  split at h
  · cases hfast : ema A price s.emaFast cfg.emaFast with
    | error _ =>
      rw [hfast] at h
      cases h
    | ok fast =>
      cases hslow : ema A price s.emaSlow cfg.emaSlow with
      | error _ =>
        rw [hfast, hslow] at h
        cases h
      | ok slow =>
        rw [hfast, hslow] at h
        rw [← Except.ok.inj h]
  · rw [← Except.ok.inj h]

lemma crossed_free {direction : Direction} (h : s.crossed A cfg now = some direction) :
    s.inCooldown A cfg now = false := by
  rw [MomentumSignal.crossed] at h
  split at h
  · split at h
    · split at h
      · cases h
      · simpa using ‹¬s.inCooldown A cfg now = true›
    · cases h
  · cases h

/-- What a call of `update` leaves of the cooldown: a signal is emitted only when the last one is old
enough, and then it is the last one. -/
def ArmsCooldown (A : Rounding) (cfg : TradingConfig) (now : ℚ) (s : MomentumSignal) (x : Option Signal)
    (s' : MomentumSignal) : Prop :=
  (x = none ∧ s'.lastTradeTs = s.lastTradeTs) ∨
    (x.isSome = true ∧ s'.lastTradeTs = now ∧ cfg.cooldownSeconds ≤ A.sub now s.lastTradeTs)

lemma armsCooldown_emit {direction : Direction} {reason : Reason} {ref pct : ℚ}
    (hfree : s.inCooldown A cfg now = false) :
    ArmsCooldown A cfg now s (s.emit now direction reason ref pct).1 (s.emit now direction reason ref pct).2 := by
  rw [MomentumSignal.inCooldown, decide_eq_false_iff_not, not_lt] at hfree
  exact .inr ⟨rfl, rfl, hfree⟩

lemma momentum_armsCooldown (h : s.momentum A cfg now price = .ok (x, s')) : ArmsCooldown A cfg now s x s' := by
  rw [MomentumSignal.momentum] at h
  dsimp only at h
  split at h
  · split at h
    · cases h
    · split at h
      · rename_i hmove
        obtain ⟨rfl, rfl⟩ := Prod.mk.inj (Except.ok.inj h)
        exact armsCooldown_emit hmove.2
      · obtain ⟨rfl, rfl⟩ := Prod.mk.inj (Except.ok.inj h)
        exact .inl ⟨rfl, rfl⟩
  · obtain ⟨rfl, rfl⟩ := Prod.mk.inj (Except.ok.inj h)
    exact .inl ⟨rfl, rfl⟩

lemma update_armsCooldown (h : s.update A cfg now price = .ok (x, s')) : ArmsCooldown A cfg now s x s' := by
  cases hshift : { s with buf := prune A cfg now (s.buf ++ [(now, price)]) }.shiftEmas A cfg price with
  | error raised =>
    rw [update_of_raised hshift] at h
    cases h
  | ok s₁ =>
    have hlast : s₁.lastTradeTs = s.lastTradeTs := (shiftEmas_lastTradeTs hshift).trans rfl
    have harms : ArmsCooldown A cfg now s₁ x s' := by
      cases hcross : s₁.crossed A cfg now with
      | some direction =>
        rw [update_of_crossed hshift hcross] at h
        obtain ⟨rfl, rfl⟩ := Prod.mk.inj (Except.ok.inj h)
        exact armsCooldown_emit (crossed_free hcross)
      | none =>
        rw [update_of_not_crossed hshift hcross] at h
        exact momentum_armsCooldown h
    unfold ArmsCooldown at harms ⊢
    rwa [hlast] at harms

end Update

/-- What a tick can do to the trader: no signal, a signal without an order, or an order. -/
inductive Moves (A : Rounding) (cfg : TradingConfig) (api : Bool) (t : LeadLagTrader) (now : ℚ)
    (answer : Answer) : LeadLagTrader → Prop where
  | quiet (signal : MomentumSignal) (ended : Bool) (hlast : signal.lastTradeTs = t.signal.lastTradeTs) :
      Moves A cfg api t now answer { t with signal := signal, ended := ended }
  | skipped (signal : MomentumSignal) (x : Signal) (hlast : signal.lastTradeTs = now)
      (hfree : cfg.cooldownSeconds ≤ A.sub now t.signal.lastTradeTs) :
      Moves A cfg api t now answer { t with signal := signal, emitted := t.emitted ++ [(now, x)] }
  | order (signal : MomentumSignal) (x : Signal) (hlast : signal.lastTradeTs = now)
      (hfree : cfg.cooldownSeconds ≤ A.sub now t.signal.lastTradeTs) (hlive : cfg.dryRun = false)
      (hapi : api = true)
      (hroom : ¬cfg.maxOpenPositions ≤ ((if answer.reads then t.positions else 0 : Nat) : Int)) :
      Moves A cfg api t now answer
        { t with
          signal := signal
          ended := !answer.returns
          emitted := t.emitted ++ [(now, x)]
          placed := t.placed ++ [(now, openTrade cfg x)]
          positions := if answer.opens then t.positions + 1 else t.positions }

lemma tick_moves (A : Rounding) (cfg : TradingConfig) (api : Bool) (t : LeadLagTrader) (now price : ℚ)
    (answer : Answer) : Moves A cfg api t now answer (t.tick A cfg api now price answer) := by
  rw [LeadLagTrader.tick]
  cases hupdate : t.signal.update A cfg now price with
  | error _ => exact .quiet t.signal true rfl
  | ok r =>
    obtain ⟨x, signal⟩ := r
    cases x with
    | none =>
      obtain ⟨-, hlast⟩ | ⟨hsome, -⟩ := update_armsCooldown hupdate
      · exact .quiet signal t.ended hlast
      · cases hsome
    | some x =>
      obtain ⟨hnone, -⟩ | ⟨-, hlast, hfree⟩ := update_armsCooldown hupdate
      · cases hnone
      · dsimp only
        rw [LeadLagTrader.execute]
        split
        · exact .skipped signal x hlast hfree
        · split
          · exact .skipped signal x hlast hfree
          · rename_i hlive hapi
            rw [LeadLagTrader.placeMarketOrder]
            dsimp only
            by_cases hroom : cfg.maxOpenPositions ≤ ((if answer.reads then t.positions else 0 : Nat) : Int)
            · rw [if_pos hroom]
              exact .skipped signal x hlast hfree
            · rw [if_neg hroom]
              exact .order signal x hlast hfree (by simpa using hlive) (by simpa using hapi) hroom

/-! ## The orders of a run -/

/-- What holds of the trader after ticks at the given times. -/
structure OrdersInv (A : Rounding) (cfg : TradingConfig) (api : Bool) (times : List ℚ)
    (t : LeadLagTrader) : Prop where
  timed : (t.emitted.map Prod.fst).Sublist times
  last : t.signal.lastTradeTs = t.emitted.getLast?.elim (-1000000000) Prod.fst
  apart : t.emitted.Pairwise (fun a b => cfg.cooldownSeconds ≤ A.sub b.1 a.1)
  placed : t.placed.Sublist (t.emitted.map (fun e => (e.1, openTrade cfg e.2)))
  idle : cfg.dryRun = true ∨ api = false → t.placed = []

/-- A signal that is a cooldown younger than the last one is so of all of them. -/
lemma OrdersInv.apart_concat {A : Rounding} {cfg : TradingConfig} {api : Bool} {times : List ℚ}
    {t : LeadLagTrader} (h : OrdersInv A cfg api times t) (hsorted : times.Pairwise (· ≤ ·)) {now : ℚ}
    (x : Signal)
    (hfree : cfg.cooldownSeconds ≤ A.sub now t.signal.lastTradeTs) :
    (t.emitted ++ [(now, x)]).Pairwise (fun a b => cfg.cooldownSeconds ≤ A.sub b.1 a.1) := by
  rw [List.pairwise_append]
  refine ⟨h.apart, List.pairwise_singleton _ _, ?_⟩
  intro e he b hb
  rw [List.mem_singleton.mp hb]
  rw [h.last] at hfree
  cases hl : t.emitted.getLast? with
  | none =>
    rw [List.getLast?_eq_none_iff.mp hl] at he
    cases he
  | some last =>
    rw [hl, Option.elim_some] at hfree
    obtain ⟨earlier, hearlier⟩ : ∃ earlier, t.emitted = earlier ++ [last] :=
      ⟨_, (List.dropLast_append_getLast? last hl).symm⟩
    have htimes : (t.emitted.map Prod.fst).Pairwise (· ≤ ·) := hsorted.sublist h.timed
    have hle : e.1 ≤ last.1 := by
      rw [hearlier, List.map_append] at htimes
      rw [hearlier] at he
      obtain he | he := List.mem_append.mp he
      · exact (List.pairwise_append.mp htimes).2.2 e.1 (List.mem_map_of_mem he) last.1 (by simp)
      · rw [List.mem_singleton.mp he]
    exact hfree.trans (Rounding.sub_mono le_rfl hle)

lemma OrdersInv.tick {A : Rounding} {cfg : TradingConfig} {api : Bool} {times : List ℚ}
    {t t' : LeadLagTrader} {now : ℚ} {answer : Answer} (h : OrdersInv A cfg api times t)
    (hsorted : times.Pairwise (· ≤ ·))
    (hmove : Moves A cfg api t now answer t') : OrdersInv A cfg api (times ++ [now]) t' := by
  have htimed : ∀ x : Signal, ((t.emitted ++ [(now, x)]).map Prod.fst).Sublist (times ++ [now]) := by
    intro x
    rw [List.map_append]
    exact h.timed.append (List.Sublist.refl _)
  have hlast : ∀ x : Signal, (t.emitted ++ [(now, x)]).getLast?.elim (-1000000000) Prod.fst = now := by
    intro x
    rw [List.getLast?_concat]
    rfl
  cases hmove with
  | quiet signal ended heq =>
    exact ⟨h.timed.trans (List.sublist_append_left _ _), heq.trans h.last, h.apart, h.placed, h.idle⟩
  | skipped signal x heq hfree =>
    refine ⟨htimed x, heq.trans (hlast x).symm, h.apart_concat hsorted x hfree, ?_, h.idle⟩
    rw [List.map_append]
    exact h.placed.trans (List.sublist_append_left _ _)
  | order signal x heq hfree hlive hapi _ =>
    refine ⟨htimed x, heq.trans (hlast x).symm, h.apart_concat hsorted x hfree, ?_, ?_⟩
    · rw [List.map_append]
      exact h.placed.append (List.Sublist.refl _)
    · rintro (hdry | hclosed)
      · rw [hlive] at hdry
        cases hdry
      · rw [hapi] at hclosed
        cases hclosed

lemma ordersInv_of_run {A : Rounding} {cfg : TradingConfig} {api : Bool} {positions : Nat} {events : List Event}
    {t : LeadLagTrader} (hsorted : (tickTimes events).Pairwise (· ≤ ·))
    (hrun : (trader A cfg api positions).run (trader A cfg api positions).init events = some t) :
    OrdersInv A cfg api (tickTimes events) t := by
  induction events using List.reverseRecOn generalizing t with
  | nil =>
    simp only [Machine.run_nil, Option.some.injEq] at hrun
    rw [← hrun]
    exact ⟨List.Sublist.refl _, rfl, List.Pairwise.nil, List.Sublist.refl _, fun _ => rfl⟩
  | append_singleton events a ih =>
    obtain ⟨s, hs, hstep⟩ := (trader A cfg api positions).run_concat_eq_some.mp hrun
    have htimes : tickTimes (events ++ [a]) = tickTimes events ++ tickTimes [a] := List.filterMap_append
    rw [htimes] at hsorted ⊢
    have hbefore := ih (List.pairwise_append.mp hsorted).1 hs
    cases a with
    | price now price answer =>
      change (if s.ended then none else some (s.tick A cfg api now price answer)) = some t at hstep
      split at hstep
      · cases hstep
      · rw [← Option.some.inj hstep]
        exact hbefore.tick (List.pairwise_append.mp hsorted).1 (tick_moves A cfg api s now price answer)
    | closed =>
      change (if s.positions = 0 then none else some { s with positions := s.positions - 1 }) = some t at hstep
      split at hstep
      · cases hstep
      · rw [← Option.some.inj hstep, show tickTimes [Event.closed] = [] from rfl, List.append_nil]
        exact ⟨hbefore.timed, hbefore.last, hbefore.apart, hbefore.placed, hbefore.idle⟩

/-- In every run of the trader, whatever the prices and whatever the broker does: the calls of
`open_trade` are in order among the signals emitted, each with the configured instrument, size, stop and
limit and with the side of its signal; any two of them are a cooldown apart, as the program subtracts their
times; and there are none in a dry run or without a session. -/
theorem orders_follow_signals (A : Rounding) (cfg : TradingConfig) (api : Bool) (positions : Nat)
    (events : List Event) (t : LeadLagTrader) (hsorted : (tickTimes events).Pairwise (· ≤ ·))
    (hrun : (trader A cfg api positions).run (trader A cfg api positions).init events = some t) :
    t.placed.Sublist (t.emitted.map (fun e => (e.1, openTrade cfg e.2))) ∧
      t.placed.Pairwise (fun a b => cfg.cooldownSeconds ≤ A.sub b.1 a.1) ∧
      (cfg.dryRun = true ∨ api = false → t.placed = []) := by
  have h := ordersInv_of_run hsorted hrun
  refine ⟨h.placed, ?_, h.idle⟩
  exact List.Pairwise.sublist h.placed (List.pairwise_map.mpr h.apart)

/-- A live trader whose broker fills every order: the price rises, and half a minute later falls. -/
def tradingDay : List Event :=
  [.price 1 100 ⟨true, true, true⟩, .price 2 101 ⟨true, true, true⟩, .closed,
    .price 40 99 ⟨true, true, true⟩]

def liveTrader : Machine LeadLagTrader Event := trader .binary64 { dryRun := false } true 0

theorem orders_follow_signals_tradingDay :
    (liveTrader.run liveTrader.init tradingDay).map (fun t => t.placed.map (fun e => e.2.isBuy)) =
        some [true, false] ∧
      ∀ t, liveTrader.run liveTrader.init tradingDay = some t →
        t.placed.Pairwise (fun a b => 30 ≤ Rounding.binary64.sub b.1 a.1) := by
  refine ⟨by decide +kernel, ?_⟩
  intro t hrun
  exact (orders_follow_signals .binary64 { dryRun := false } true 0 tradingDay t (by decide +kernel) hrun).2.1

/-! ## The cap on open positions -/

/-- A position opened at an order for which the account could not be read, with the account full. -/
def Blind (A : Rounding) (cfg : TradingConfig) (api : Bool) (t : LeadLagTrader) : Event → Prop
  | .price now price answer => answer.reads = false ∧ answer.opens = true ∧
      cfg.maxOpenPositions ≤ t.positions ∧ (t.tick A cfg api now price answer).placed ≠ t.placed
  | .closed => False

lemma step_capped_iff {A : Rounding} {cfg : TradingConfig} {api : Bool} {s t : LeadLagTrader} {a : Event}
    (hcap : (s.positions : Int) ≤ cfg.maxOpenPositions) (hstep : s.step A cfg api a = some t) :
    (t.positions : Int) ≤ cfg.maxOpenPositions ↔ ¬Blind A cfg api s a := by
  cases a with
  | price now price answer =>
    rw [LeadLagTrader.step] at hstep
    split at hstep
    · cases hstep
    · obtain rfl := Option.some.inj hstep
      have hmove := tick_moves A cfg api s now price answer
      rw [Blind]
      generalize s.tick A cfg api now price answer = t at hmove ⊢
      cases hmove with
      | quiet signal ended _ => simpa using hcap
      | skipped signal x _ _ => simpa using hcap
      | order signal x _ _ _ _ hroom =>
        obtain ⟨reads, opens, returns⟩ := answer
        cases reads <;> cases opens
        · simpa using hcap
        · have hblind : s.placed ++ [(now, openTrade cfg x)] ≠ s.placed := by simp
          simp only [if_true, hblind, ne_eq, not_false_iff, and_true, true_and]
          push_cast
          omega
        · simpa using hcap
        · simp only [if_true] at hroom
          simp only [Bool.true_eq_false, false_and, not_false_iff, iff_true, if_true]
          push_cast
          omega
  | closed =>
    rw [LeadLagTrader.step] at hstep
    split at hstep
    · cases hstep
    · rw [← Option.some.inj hstep]
      simp only [Blind, not_false_iff, iff_true]
      omega

/-- The account never holds more positions than the cap, at any point of a run that starts within it,
exactly as long as no position is opened blind: an account that cannot be read counts as empty. -/
theorem positions_capped_iff (A : Rounding) (cfg : TradingConfig) (api : Bool) (positions : Nat)
    (hstart : (positions : Int) ≤ cfg.maxOpenPositions) (events : List Event) :
    (trader A cfg api positions).Always events (fun _ _ t => (t.positions : Int) ≤ cfg.maxOpenPositions) ↔
      (trader A cfg api positions).Always events (fun s a _ => ¬Blind A cfg api s a) := by
  apply Machine.always_iff_along (I := fun s => (s.positions : Int) ≤ cfg.maxOpenPositions)
  · exact hstart
  · intro s a t _ hcap hstep hsighted
    exact (step_capped_iff hcap hstep).mpr hsighted
  · intro s a t _ hcap hstep
    exact step_capped_iff hcap hstep

theorem positions_capped_iff_tradingDay :
    liveTrader.Always tradingDay (fun _ _ t => (t.positions : Int) ≤ 1) ↔
      liveTrader.Always tradingDay (fun s a _ => ¬Blind .binary64 { dryRun := false } true s a) :=
  positions_capped_iff .binary64 { dryRun := false } true 0 (by decide) tradingDay

/-! ## The feed -/

/-- One turn of the loop of `prices`: the connection is refused, or a session delivers messages, each of
them a price or one that cannot be parsed, until it ends. -/
inductive Attempt where
  | refused
  | session (messages : List (Option ℚ))

/-- The prices of a turn up to the first message that cannot be parsed. -/
def Attempt.yields : Attempt → List ℚ
  | .refused => []
  | .session messages => (messages.takeWhile Option.isSome).filterMap id

structure BinanceWebSocket where
  backoff : ℚ
  yielded : List ℚ := []
  delays : List ℚ := []

namespace BinanceWebSocket

/-- The loop over the messages of a session, which an exception of `_parse_price` leaves. -/
def receive (ws : BinanceWebSocket) : List (Option ℚ) → BinanceWebSocket
  | [] => ws
  | none :: _ => ws
  | some price :: messages => receive { ws with yielded := ws.yielded ++ [price] } messages

def attempt (cfg : TradingConfig) (ws : BinanceWebSocket) : Attempt → BinanceWebSocket
  | .refused => ws
  | .session messages => { ws with backoff := cfg.reconnectDelay }.receive messages

def turn (cfg : TradingConfig) (ws : BinanceWebSocket) (a : Attempt) : BinanceWebSocket :=
  let ws := ws.attempt cfg a
  { ws with
    backoff := min (ws.backoff * 2) cfg.maxReconnectDelay
    delays := ws.delays ++ [ws.backoff] }

/-- A session adds its prices and leaves the rest alone. -/
lemma receive_eq (ws : BinanceWebSocket) (messages : List (Option ℚ)) :
    ws.receive messages = { ws with yielded := ws.yielded ++ (Attempt.session messages).yields } := by
  induction messages generalizing ws with
  | nil => simp [receive, Attempt.yields]
  | cons message messages ih =>
    cases message with
    | none => simp [receive, Attempt.yields]
    | some price =>
      rw [receive, ih]
      simp [Attempt.yields]

lemma turn_refused (cfg : TradingConfig) (ws : BinanceWebSocket) : ws.turn cfg .refused =
    { ws with backoff := min (ws.backoff * 2) cfg.maxReconnectDelay, delays := ws.delays ++ [ws.backoff] } := rfl

lemma turn_session (cfg : TradingConfig) (ws : BinanceWebSocket) (messages : List (Option ℚ)) :
    ws.turn cfg (.session messages) =
      { backoff := min (cfg.reconnectDelay * 2) cfg.maxReconnectDelay
        yielded := ws.yielded ++ (Attempt.session messages).yields
        delays := ws.delays ++ [cfg.reconnectDelay] } := by
  rw [turn, attempt, receive_eq]

/-- Every turn ends with a wait. -/
lemma turn_delays (cfg : TradingConfig) (ws : BinanceWebSocket) (a : Attempt) :
    ∃ delay, (ws.turn cfg a).delays = ws.delays ++ [delay] := by
  cases a with
  | refused => exact ⟨ws.backoff, rfl⟩
  | session messages =>
    rw [turn_session]
    exact ⟨cfg.reconnectDelay, rfl⟩

lemma turn_yielded (cfg : TradingConfig) (ws : BinanceWebSocket) (a : Attempt) :
    (ws.turn cfg a).yielded = ws.yielded ++ a.yields := by
  cases a with
  | refused =>
    rw [turn_refused]
    exact (List.append_nil _).symm
  | session messages => rw [turn_session]

end BinanceWebSocket

/-- `prices` over a sequence of attempts. -/
def prices (cfg : TradingConfig) (attempts : List Attempt) : BinanceWebSocket :=
  attempts.foldl (BinanceWebSocket.turn cfg) { backoff := cfg.reconnectDelay }

/-- What an attempt is for the link: a session connects before it ends. -/
def Attempt.linkEvents : Attempt → List LinkEvent
  | .refused => [.failed]
  | .session _ => [.connected, .failed]

def linkLog (attempts : List Attempt) : List LinkEvent := attempts.flatMap Attempt.linkEvents

section Feed

variable {cfg : TradingConfig}

lemma prices_concat (attempts : List Attempt) (a : Attempt) :
    prices cfg (attempts ++ [a]) = (prices cfg attempts).turn cfg a := by
  rw [prices, List.foldl_append, List.foldl_cons, List.foldl_nil, ← prices]

/-- The wait after an attempt, and the backoff it leaves. -/
lemma prices_backoff (hbase : 0 ≤ cfg.reconnectDelay) (hle : cfg.reconnectDelay ≤ cfg.maxReconnectDelay)
    (attempts : List Attempt) :
    (prices cfg attempts).backoff = backoff cfg.reconnectDelay cfg.maxReconnectDelay
      (LinkEvent.consecutive (linkLog attempts)) := by
  have hbound : 0 ≤ cfg.maxReconnectDelay := hbase.trans hle
  induction attempts using List.reverseRecOn with
  | nil => exact (backoff_zero.trans (min_eq_left hle)).symm
  | append_singleton attempts a ih =>
    have hlog : linkLog (attempts ++ [a]) = linkLog attempts ++ a.linkEvents := by
      rw [linkLog, List.flatMap_append, List.flatMap_singleton, ← linkLog]
    rw [prices_concat, hlog]
    cases a with
    | refused =>
      rw [Attempt.linkEvents, LinkEvent.consecutive_failed, ← backoff_succ hbound, ← ih,
        BinanceWebSocket.turn_refused]
    | session messages =>
      have hconnected : linkLog attempts ++ [.connected, .failed] =
          (linkLog attempts ++ [.connected]) ++ [.failed] := by simp
      rw [Attempt.linkEvents, hconnected, LinkEvent.consecutive_failed, LinkEvent.consecutive_connected,
        ← backoff_succ hbound, backoff_zero, min_eq_left hle, BinanceWebSocket.turn_session]

lemma delays_prefix (attempts later : List Attempt) :
    (prices cfg attempts).delays <+: (prices cfg (attempts ++ later)).delays := by
  induction later using List.reverseRecOn with
  | nil => rw [List.append_nil]
  | append_singleton later a ih =>
    obtain ⟨delay, hdelay⟩ := (prices cfg (attempts ++ later)).turn_delays cfg a
    rw [← List.append_assoc, prices_concat, hdelay]
    exact ih.trans (List.prefix_append _ _)

lemma delays_length (attempts : List Attempt) : (prices cfg attempts).delays.length = attempts.length := by
  induction attempts using List.reverseRecOn with
  | nil => rfl
  | append_singleton attempts a ih =>
    obtain ⟨delay, hdelay⟩ := (prices cfg attempts).turn_delays cfg a
    rw [prices_concat, hdelay, List.length_append, ih, List.length_append]
    rfl

/-- For every sequence of attempts to connect: the wait after each of them is the base doubled once for
every earlier failure since the link last connected, up to the cap; and the prices yielded are those of the
sessions in order, each up to its first message that cannot be parsed. -/
theorem prices_follow_backoff (cfg : TradingConfig) (hbase : 0 ≤ cfg.reconnectDelay)
    (hle : cfg.reconnectDelay ≤ cfg.maxReconnectDelay) (attempts : List Attempt) :
    (prices cfg attempts).yielded = attempts.flatMap Attempt.yields ∧
      ∀ pre a, pre ++ [a] <+: attempts → (prices cfg attempts).delays[pre.length]? =
        some (backoff cfg.reconnectDelay cfg.maxReconnectDelay
          (LinkEvent.consecutive (linkLog (pre ++ [a])) - 1)) := by
  constructor
  · induction attempts using List.reverseRecOn with
    | nil => rfl
    | append_singleton attempts a ih =>
      rw [prices_concat, BinanceWebSocket.turn_yielded, List.flatMap_append, List.flatMap_singleton, ih]
  · rintro pre a ⟨later, rfl⟩
    have hlog : linkLog (pre ++ [a]) = linkLog pre ++ a.linkEvents := by
      rw [linkLog, List.flatMap_append, List.flatMap_singleton, ← linkLog]
    have hwait : (prices cfg (pre ++ [a])).delays = (prices cfg pre).delays ++
        [backoff cfg.reconnectDelay cfg.maxReconnectDelay (LinkEvent.consecutive (linkLog (pre ++ [a])) - 1)] := by
      rw [prices_concat, hlog]
      cases a with
      | refused =>
        rw [Attempt.linkEvents, LinkEvent.consecutive_failed, Nat.add_sub_cancel, ← prices_backoff hbase hle]
        rfl
      | session messages =>
        have hconnected : linkLog pre ++ [.connected, .failed] =
            (linkLog pre ++ [.connected]) ++ [.failed] := by simp
        rw [Attempt.linkEvents, hconnected, LinkEvent.consecutive_failed, LinkEvent.consecutive_connected,
          Nat.add_sub_cancel, backoff_zero, min_eq_left hle, BinanceWebSocket.turn_session]
    have hlength : (prices cfg pre).delays.length = pre.length := delays_length pre
    obtain ⟨rest, hrest⟩ := delays_prefix (pre ++ [a]) later
    rw [← hrest, hwait, List.append_assoc, ← hlength]
    simp

theorem prices_follow_backoff_outage :
    (prices {} [.session [some 100, none, some 101], .refused, .refused]).delays = [2, 4, 8] ∧
      (prices {} [.session [some 100, none, some 101], .refused, .refused]).yielded =
        [Attempt.session [some 100, none, some 101], .refused, .refused].flatMap Attempt.yields :=
  ⟨by decide +kernel, (prices_follow_backoff {} (by norm_num) (by norm_num) _).1⟩

end Feed

end Trader

end LatencyArb
