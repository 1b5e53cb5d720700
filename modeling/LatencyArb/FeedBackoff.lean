import LatencyArb.FeedSessions
import LatencyArb.Library.Backoff

/-!
# The waits between the sessions of a feed reader (`fail`, `schedule_reconnect`)

The documented bounds of the backoff are `WS_RECONNECT_BASE_S` and `WS_RECONNECT_MAX_S`. The readers
double a delay of two seconds up to a minute, and only a new `run` sets it back.
-/

namespace LatencyArb

namespace FeedReader

open LinkEvent

/-- What an action is to the link of the reader. -/
def linkEvents (r : FeedReader) : Action → List LinkEvent
  | .start => if r.running then [] else [.begun]
  | .done _ op outcome =>
    if fails op outcome then (if r.stopped then [] else [.failed])
    else if op = .handshake then [.connected] else []
  | _ => []

/-- The reader with a record of what happened to its link. -/
def linked (feed : Feed) : Machine (FeedReader × List LinkEvent) Action :=
  (machine feed).recorded linkEvents

/-- The action ends a session, and a reconnect is scheduled. -/
def Schedules (r : FeedReader) : Action → Prop
  | .done _ op outcome => fails op outcome = true ∧ r.stopped = false
  | _ => False

/-- A feed whose delays go from two seconds to a minute. -/
structure TwoToSixty (feed : Feed) : Prop where
  pos : 0 < feed.delaysPerSecond
  base : feed.baseDelay = 2 * feed.delaysPerSecond
  bound : feed.maxDelay = 60 * feed.delaysPerSecond

@[simp] lemma spawnSession_running (r : FeedReader) : r.spawnSession.running = r.running := by
  unfold spawnSession
  split <;> rfl

@[simp] lemma spawnSession_timers (r : FeedReader) : r.spawnSession.timers = r.timers := by
  unfold spawnSession
  split <;> rfl

@[simp] lemma spawnSession_reconnectDelay (r : FeedReader) :
    r.spawnSession.reconnectDelay = r.reconnectDelay := by
  unfold spawnSession
  split <;> rfl

variable {feed : Feed} {r r' : FeedReader} {a : Action}

/-- Nothing is in flight while the reader is down. -/
def Quiet (r : FeedReader) : Prop := r.running = false → ∀ i, r.ops i = []

lemma Quiet.running {i : Nat} {op : Op} (h : Quiet r) (hmem : op ∈ r.ops i) : r.running = true := by
  by_contra hdown
  rw [h (Bool.eq_false_iff.mpr hdown) i] at hmem
  cases hmem

/-- What a step does to the delay and to the timers, by what it is to the link. -/
inductive LinkStep (feed : Feed) (r : FeedReader) (a : Action) (r' : FeedReader) : Prop where
  | begun (down : r.running = false) (events : linkEvents r a = [.begun]) (idle : ¬Schedules r a)
      (timers : r'.timers = r.timers) (delay : r'.reconnectDelay = feed.baseDelay)
  | failed (up : r.running = true) (events : linkEvents r a = [.failed]) (schedules : Schedules r a)
      (timers : r'.timers = r.timers ++ [truncZero (r.reconnectDelay / feed.delaysPerSecond * 1000)])
      (delay : r'.reconnectDelay = min (r.reconnectDelay * 2) feed.maxDelay)
  | kept (events : linkEvents r a = [] ∨ linkEvents r a = [.connected]) (idle : ¬Schedules r a)
      (timers : r'.timers.length ≤ r.timers.length) (delay : r'.reconnectDelay = r.reconnectDelay)
      (up : r'.running = true → r.running = true)

lemma linkStep (h : Quiet r) (hs : r.step feed a = some r') : Quiet r' ∧ LinkStep feed r a r' := by
  cases step_moves hs with
  | running running =>
    exact ⟨h, .kept (.inl (if_pos running)) id le_rfl rfl id⟩
  | start down =>
    refine ⟨fun hdown => ?_, .begun down ?_ id (spawnSession_timers _) (spawnSession_reconnectDelay _)⟩
    · rw [spawnSession_running] at hdown
      cases hdown
    · exact if_neg (by simp [down])
  | stop => exact ⟨h, .kept (.inl rfl) id le_rfl rfl id⟩
  | join stopped =>
    exact ⟨fun _ j => ops_join r j, .kept (.inl rfl) id (Nat.zero_le _) rfl (fun h => by cases h)⟩
  | fire k scheduled =>
    refine ⟨fun hdown j => ?_, .kept (.inl rfl) id ?_ (spawnSession_reconnectDelay _) (fun hup => ?_)⟩
    · rw [spawnSession_running] at hdown
      have hsame : { r with timers := r.timers.eraseIdx k }.spawnSession =
          { r with timers := r.timers.eraseIdx k } := if_pos (by simp [show r.running = false from hdown])
      rw [hsame]
      exact h hdown j
    · rw [spawnSession_timers]
      exact List.length_eraseIdx_le r.timers k
    · rw [spawnSession_running] at hup
      exact hup
  | fails i op outcome inFlight failed =>
    have hup := h.running inFlight
    cases hstopped : r.stopped with
    | true =>
      have hsame : (r.setOps i ((r.ops i).erase op)).fail feed i = r.setOps i ((r.ops i).erase op) :=
        fail_of_stopped hstopped
      rw [hsame]
      refine ⟨fun hdown => absurd (hup.symm.trans hdown) (by simp), .kept (.inl ?_) ?_ le_rfl rfl id⟩
      · simp [linkEvents, failed, hstopped]
      · simp [Schedules, hstopped]
    | false =>
      have heq := fail_eq feed (r := r.setOps i ((r.ops i).erase op)) (i := i) hstopped hup
      rw [heq]
      refine ⟨fun hdown => absurd (hup.symm.trans hdown) (by simp), .failed hup ?_ ⟨failed, hstopped⟩ rfl rfl⟩
      simp [linkEvents, failed, hstopped]
  | goesOn i op outcome next pushed inFlight ok next_ok alone =>
    have hup := h.running inFlight
    refine ⟨fun hdown => absurd (hup.symm.trans hdown) (by simp), .kept ?_ ?_ le_rfl rfl id⟩
    · by_cases hop : op = .handshake
      · subst hop
        right
        simp [linkEvents, ok]
      · left
        simp [linkEvents, ok, hop]
    · simp [Schedules, ok]

/-! ## The documented backoff -/

/-- A reconnect timer waits as long as the failures since the last handshake ask for. -/
def FollowsBackoff (cfg : Config) (s : FeedReader × List LinkEvent) (_ : Action)
    (t : FeedReader × List LinkEvent) : Prop :=
  ∀ ms : Int, t.1.timers = s.1.timers ++ [ms] →
    (ms : ℚ) = 1000 * backoff cfg.wsReconnectBaseS cfg.wsReconnectMaxS (consecutive s.2)

/-- A session that fails has no handshake between it and an earlier failure, and the configured bounds
ask for the wait that 2 and 60 seconds give. -/
def FixedDelaysServe (cfg : Config) (s : FeedReader × List LinkEvent) (a : Action)
    (_ : FeedReader × List LinkEvent) : Prop :=
  Schedules s.1 a → consecutive s.2 = failures s.2 ∧
    backoff cfg.wsReconnectBaseS cfg.wsReconnectMaxS (failures s.2) = backoff 2 60 (failures s.2)

/-- The delay counts the failures since `run`. The failures since the last handshake are all of these or
none, and the first of them waited for two seconds. -/
structure BackoffInv (feed : Feed) (cfg : Config) (s : FeedReader × List LinkEvent) : Prop where
  quiet : Quiet s.1
  delay : s.1.running = true →
    s.1.reconnectDelay = backoff feed.baseDelay feed.maxDelay (failures s.2)
  series : consecutive s.2 = failures s.2 ∨ consecutive s.2 = 0
  first : failures s.2 ≠ 0 → min (cfg.wsReconnectBaseS : ℚ) cfg.wsReconnectMaxS = 2

lemma TwoToSixty.bound_nonneg (hfeed : TwoToSixty feed) : 0 ≤ feed.maxDelay := by
  rw [hfeed.bound]
  linarith [hfeed.pos]

lemma TwoToSixty.base_eq (hfeed : TwoToSixty feed) : feed.baseDelay = backoff feed.baseDelay feed.maxDelay 0 := by
  have hle : feed.baseDelay ≤ feed.maxDelay := by
    rw [hfeed.base, hfeed.bound]
    linarith [hfeed.pos]
  rw [backoff_zero, min_eq_left hle]

lemma truncZero_intCast (n : Int) : truncZero (n : ℚ) = n := by
  unfold truncZero
  split
  · exact Int.floor_intCast n
  · rw [← Int.cast_neg, Int.floor_intCast, neg_neg]

/-- The wait of the timer that a failure schedules. -/
lemma TwoToSixty.wait (hfeed : TwoToSixty feed) (k : Nat) :
    (truncZero (backoff feed.baseDelay feed.maxDelay k / feed.delaysPerSecond * 1000) : ℚ) =
      1000 * backoff 2 60 k := by
  have hwhole : backoff 2 60 k * 1000 = ((min (2 * 2 ^ k) 60 * 1000 : Int) : ℚ) := by
    push_cast
    rfl
  rw [hfeed.base, hfeed.bound, backoff_scale hfeed.pos.le, mul_div_cancel_right₀ _ hfeed.pos.ne', hwhole,
    truncZero_intCast, ← hwhole, mul_comm]

lemma backoff_twoToSixty_of_pos {k : Nat} (hk : k ≠ 0) : 4 ≤ backoff 2 60 k := by
  have htwo : (2 : ℚ) ≤ 2 ^ k := le_self_pow₀ (by norm_num) hk
  exact le_min (by linarith) (by norm_num)

lemma BackoffInv.step {cfg : Config} {s t : FeedReader × List LinkEvent} (hfeed : TwoToSixty feed)
    (h : BackoffInv feed cfg s) (hs : (linked feed).step s a = some t)
    (hC : FixedDelaysServe cfg s a t) : BackoffInv feed cfg t := by
  obtain ⟨hstep, hlog⟩ := Machine.recorded_step hs
  obtain ⟨hquiet, hlink⟩ := linkStep h.quiet hstep
  cases hlink with
  | begun down events idle timers delay =>
    rw [events] at hlog
    refine ⟨hquiet, fun _ => ?_, ?_, ?_⟩
    · rw [delay, hlog, failures_begun]
      exact hfeed.base_eq
    · rw [hlog, consecutive_begun]
      exact .inr rfl
    · rw [hlog, failures_begun]
      exact fun hne => absurd rfl hne
  | failed up events schedules timers delay =>
    rw [events] at hlog
    obtain ⟨hseries, hbounds⟩ := hC schedules
    refine ⟨hquiet, fun _ => ?_, ?_, fun _ => ?_⟩
    · rw [delay, h.delay up, hlog, failures_failed]
      exact backoff_succ hfeed.bound_nonneg _
    · left
      rw [hlog, consecutive_failed, failures_failed, hseries]
    · by_cases hzero : failures s.2 = 0
      · rw [hzero, backoff_zero, backoff_zero] at hbounds
        rw [hbounds]
        norm_num
      · exact h.first hzero
  | kept events idle timers delay up =>
    obtain events | events := events
    · rw [events, List.append_nil] at hlog
      refine ⟨hquiet, fun hup => ?_, ?_, ?_⟩
      · rw [delay, hlog]
        exact h.delay (up hup)
      · rw [hlog]
        exact h.series
      · rw [hlog]
        exact h.first
    · rw [events] at hlog
      refine ⟨hquiet, fun hup => ?_, ?_, ?_⟩
      · rw [delay, hlog, failures_connected]
        exact h.delay (up hup)
      · rw [hlog, consecutive_connected]
        exact .inr rfl
      · rw [hlog, failures_connected]
        exact h.first

lemma BackoffInv.follows_iff {cfg : Config} {s t : FeedReader × List LinkEvent} (hfeed : TwoToSixty feed)
    (h : BackoffInv feed cfg s) (hs : (linked feed).step s a = some t) :
    FollowsBackoff cfg s a t ↔ FixedDelaysServe cfg s a t := by
  obtain ⟨hstep, -⟩ := Machine.recorded_step hs
  obtain ⟨-, hlink⟩ := linkStep h.quiet hstep
  have hidle : ¬Schedules s.1 a → t.1.timers.length ≤ s.1.timers.length →
      (FollowsBackoff cfg s a t ↔ FixedDelaysServe cfg s a t) := by
    intro hno hle
    refine ⟨fun _ hyes => absurd hyes hno, fun _ ms hms => ?_⟩
    rw [hms, List.length_append, List.length_singleton] at hle
    omega
  cases hlink with
  | begun down events idle timers delay => exact hidle idle (by rw [timers])
  | kept events idle timers delay up => exact hidle idle timers
  | failed up events schedules timers delay =>
    rw [h.delay up] at timers
    have hfollows : FollowsBackoff cfg s a t ↔
        backoff 2 60 (failures s.2) =
          backoff cfg.wsReconnectBaseS cfg.wsReconnectMaxS (consecutive s.2) := by
      constructor
      · intro hms
        have hwait := hms _ timers
        rw [hfeed.wait] at hwait
        linarith
      · intro heq ms hms
        rw [timers, List.append_cancel_left_eq, List.singleton_inj] at hms
        rw [← hms, hfeed.wait, heq]
    rw [hfollows]
    constructor
    · intro heq _
      obtain hseries | hzero := h.series
      · exact ⟨hseries, by rw [heq, hseries]⟩
      · by_cases hfirst : failures s.2 = 0
        · exact ⟨hzero.trans hfirst.symm, by rw [heq, hzero, hfirst]⟩
        · -- a failure right after a handshake waits for more than the first one did
          have hlate := backoff_twoToSixty_of_pos hfirst
          rw [heq, hzero, backoff_zero, h.first hfirst] at hlate
          norm_num at hlate
    · intro hC
      obtain ⟨hseries, hbounds⟩ := hC schedules
      rw [hseries, hbounds]

lemma init_backoffInv (feed : Feed) (cfg : Config) : BackoffInv feed cfg (linked feed).init where
  quiet _ _ := rfl
  delay h := by cases h
  series := .inl rfl
  first h := absurd rfl h

lemma follows_backoff_iff (hfeed : TwoToSixty feed) (cfg : Config) (run : List Action) :
    (linked feed).Always run (FollowsBackoff cfg) ↔ (linked feed).Always run (FixedDelaysServe cfg) :=
  (linked feed).always_iff_along (init_backoffInv feed cfg)
    (fun _ _ _ _ hI hs hC => hI.step hfeed hs hC) (fun _ _ _ _ hI hs => hI.follows_iff hfeed hs) run

/-- For every configuration and every run of each reader: each reconnect waits for the documented backoff
exactly when, since `run`, no session fails after a handshake that came after a failure, and the configured
bounds ask for the waits that 2 and 60 seconds give for as many failures as there are. -/
theorem reconnects_follow_backoff_iff (cfg : Config) (run : List Action) :
    ((linked binance).Always run (FollowsBackoff cfg) ↔
        (linked binance).Always run (FixedDelaysServe cfg)) ∧
      ((linked deribit).Always run (FollowsBackoff cfg) ↔
        (linked deribit).Always run (FixedDelaysServe cfg)) ∧
      ((linked bybit).Always run (FollowsBackoff cfg) ↔
        (linked bybit).Always run (FixedDelaysServe cfg)) := by
  have hbinance : TwoToSixty binance := ⟨by norm_num [binance], by norm_num [binance], by norm_num [binance]⟩
  have hderibit : TwoToSixty deribit := ⟨by norm_num [deribit], by norm_num [deribit], by norm_num [deribit]⟩
  have hbybit : TwoToSixty bybit := ⟨by norm_num [bybit], by norm_num [bybit], by norm_num [bybit]⟩
  exact ⟨follows_backoff_iff hbinance cfg run, follows_backoff_iff hderibit cfg run,
    follows_backoff_iff hbybit cfg run⟩

/-- The first session of the Binance reader cannot resolve its host, the second one connects and is then
dropped. -/
def droppedAfterHandshake : List Action :=
  [.start, .done 0 .resolve .failed, .fire 0, .done 1 .resolve .ok, .done 1 .connect .ok, .done 1 .tls .ok,
    .done 1 .handshake .ok, .done 1 .read .failed]

/-- The drop is the first failure since a handshake, and the reader waits for four seconds. -/
theorem dropped_after_handshake_waits_longer :
    ((linked binance).run (linked binance).init droppedAfterHandshake).map (fun s => s.1.timers) =
        some [4000] ∧
      ¬(linked binance).Always droppedAfterHandshake (FollowsBackoff {}) := by
  refine ⟨by decide +kernel, ?_⟩
  intro h
  have hwait := h (droppedAfterHandshake.take 7) (.done 1 .read .failed) _ _ ⟨[], rfl⟩ rfl rfl 4000
    (by decide +kernel)
  have hbackoff : backoff (({} : Config).wsReconnectBaseS) (({} : Config).wsReconnectMaxS) 0 = 2 := by
    norm_num [CompileTime.kReconnectBaseS, CompileTime.kReconnectMaxS]
  have hnone : consecutive [.begun, .failed, .connected] = 0 := rfl
  have hfour : ((4000 : Int) : ℚ) = 1000 * backoff (({} : Config).wsReconnectBaseS)
      (({} : Config).wsReconnectMaxS) (consecutive [.begun, .failed, .connected]) := hwait
  rw [hnone, hbackoff] at hfour
  norm_num at hfour

end FeedReader

end LatencyArb
