import LatencyArb.Backtest.Merge

/-!
# The quote of an entry (`handle_fill` in `run_impl`)

An order waits in the slot of the simulator until a valid lag tick is late enough, and what is still there
after the loop is evaluated once more. So the orders are evaluated one after the other, each at the first
quote that the delay allows.
-/

namespace LatencyArb

namespace Replay

variable (cfg : Config) (params : ExecutionParams)

/-! ## Orders and their evaluations -/

/-- What `at_fill` makes of the order in the slot. -/
def fillOf (call : Replay × Int) : Option Fill :=
  (call.1.sim.atFill call.2 call.1.lagBid call.1.lagAsk).2

/-- All orders that `at_fill` evaluates in a run, in order. -/
def evaluatedFills (delayMs : Int) (lead lag : List BinaryTick) : List Fill :=
  (fillCalls cfg params delayMs lead lag).filterMap fillOf

/-- The next iteration puts an order into the slot. -/
def submits (s : Replay) : Bool :=
  match s.evaluation params with
  | none => false
  | some (u, nowMs) => u.sim.pending.isNone && (u.evaluateQuote cfg nowMs).sim.pending.isSome

/-- The lag ticks, of so many, at which orders are submitted from this state on. -/
def submissionsFrom (lagCount fuel : Nat) (s : Replay) : List Nat :=
  ((Loop.visits (next cfg params) fuel s).filter (submits cfg params)).map (fun s => lagCount - s.lag.length)

/-- The lag ticks at which orders are submitted in a run, in order. -/
def submissions (delayMs : Int) (lead lag : List BinaryTick) : List Nat :=
  if lead = [] ∨ lag = [] then []
  else
    submissionsFrom cfg params lag.length (lead.length + lag.length) (start params delayMs lead lag)

/-- The lag tick whose quote the order of lag tick `i` is due at: the first valid one after it that is late
enough, else the last valid one. -/
def entryTick (delayMs : Int) (lag : List BinaryTick) (i : Nat) : Option BinaryTick :=
  match lag.drop i with
  | [] => none
  | t :: later =>
    (later.find? (fun u => u.isValid && decide (t.tsMs + delayMs ≤ u.tsMs))).or
      (lag.filter BinaryTick.isValid).getLast?

/-- The order of lag tick `i` is evaluated at the quote it is due at. -/
def FilledAt (delayMs : Int) (lag : List BinaryTick) (i : Nat) (f : Fill) : Prop :=
  ∃ t u, lag[i]? = some t ∧ t.isValid = true ∧ entryTick delayMs lag i = some u ∧
    f.signalTsMs = t.tsMs ∧ f.execBid = u.bid ∧ f.execAsk = u.ask

end Replay

namespace ExecutionSimulator

/-- The evaluation of an order keeps its signal and takes the quote it is made at. -/
lemma atFill_quote {sim : ExecutionSimulator} {nowMs : Int} {order : PendingOrder}
    (h : sim.due nowMs = some order) (bid ask : ℚ) : ∃ fill : Fill,
      (sim.atFill nowMs bid ask).2 = some fill ∧ fill.signalTsMs = order.signalTsMs ∧
        fill.execBid = bid ∧ fill.execAsk = ask := by
  obtain ⟨hp, hle⟩ := Option.filter_eq_some_iff.mp h
  have hdue : ¬nowMs < order.targetFillTsMs := not_lt.mpr (of_decide_eq_true hle)
  unfold atFill
  simp only [hp]
  rw [if_neg hdue]
  split
  · exact ⟨_, rfl, rfl, rfl, rfl⟩
  split
  · exact ⟨_, rfl, rfl, rfl, rfl⟩
  split <;> exact ⟨_, rfl, rfl, rfl, rfl⟩

lemma submit_order (sim : ExecutionSimulator) (side : Side) (signalTsMs : Int)
    (signalMid lagBid lagAsk : ℚ) :
    (sim.submit side signalTsMs signalMid lagBid lagAsk).1 = sim ∨
      sim.pending = none ∧ ∃ order : PendingOrder,
        (sim.submit side signalTsMs signalMid lagBid lagAsk).1 = { sim with pending := some order } ∧
        order.signalTsMs = signalTsMs ∧ order.targetFillTsMs = signalTsMs + sim.params.delayMs := by
  unfold submit
  split
  · exact .inl rfl
  · rename_i hempty
    split
    · exact .inl rfl
    split
    · exact .inl rfl
    · exact .inr ⟨Option.not_isSome_iff_eq_none.mp hempty, _, rfl, rfl, rfl⟩

end ExecutionSimulator

namespace Replay

open ExecutionSimulator

variable (cfg : Config) (params : ExecutionParams) {s : Replay} {nowMs : Int}

lemma evaluateQuote_sim (s : Replay) (nowMs : Int) :
    (s.evaluateQuote cfg nowMs).sim = s.sim ∨
      s.sim.pending = none ∧ ∃ order : PendingOrder,
        (s.evaluateQuote cfg nowMs).sim = { s.sim with pending := some order } ∧
        order.signalTsMs = nowMs ∧ order.targetFillTsMs = nowMs + s.sim.params.delayMs := by
  unfold evaluateQuote
  split
  swap
  · exact .inl rfl
  dsimp only
  split
  · exact .inl rfl
  · rename_i sig strategy hemit
    split
    · exact submit_order s.sim sig.side nowMs s.leadMid s.lagBid s.lagAsk
    · exact submit_order s.sim sig.side nowMs s.leadMid s.lagBid s.lagAsk

lemma ride_pending (s : Replay) (nowMs : Int) : (s.ride params nowMs).sim.pending = s.sim.pending := by
  obtain hl | ⟨-, hl⟩ := (s.ride_cases params nowMs).2
  · exact congrArg Ledger.pending hl
  · exact congrArg Ledger.pending hl

lemma handleFill_pending (h : s.sim.due nowMs = none) :
    (s.handleFill params nowMs).sim.pending = s.sim.pending := by
  obtain ⟨-, hsame⟩ | ⟨order, hd, -⟩ := s.handleFill_cases params nowMs
  · rw [hsame]
  · rw [h] at hd
    cases hd

lemma handleFill_clears {order : PendingOrder} (h : s.sim.due nowMs = some order) :
    (s.handleFill params nowMs).sim.pending = none := by
  obtain ⟨hd, -⟩ | ⟨-, -, -, ⟨-, hl⟩ | ⟨-, hl⟩⟩ := s.handleFill_cases params nowMs
  · rw [h] at hd
    cases hd
  · exact congrArg Ledger.pending hl
  · have hp := congrArg Ledger.pending hl
    split at hp <;> exact hp

/-! ## Where the replay stands -/

/-- The lag ticks seen, the last valid of which gave the quote. -/
structure SeenInv (delayMs : Int) (lag seen : List BinaryTick) (s : Replay) : Prop where
  split : lag = seen ++ s.lag
  quote : ∀ u, (seen.filter BinaryTick.isValid).getLast? = some u → s.lagBid = u.bid ∧ s.lagAsk = u.ask
  bound : ∀ t ∈ lag, t.tsMs ≤ s.out.endTsMs
  delay : s.out.delayMs = delayMs
  params : s.sim.params.delayMs = delayMs

/-- The slot holds the order of lag tick `i`, and no valid tick since was late enough. -/
def PendingAt (delayMs : Int) (seen : List BinaryTick) (pending : Option PendingOrder) : Option Nat → Prop
  | none => pending = none
  | some i => ∃ order t later, pending = some order ∧ seen.drop i = t :: later ∧ t.isValid = true ∧
      order.signalTsMs = t.tsMs ∧ order.targetFillTsMs = t.tsMs + delayMs ∧
      ∀ u ∈ later, u.isValid = true → u.tsMs < t.tsMs + delayMs

variable {delayMs : Int} {lag seen : List BinaryTick} {pending : Option PendingOrder}

lemma drop_append_of_cons {seen later : List BinaryTick} {t : BinaryTick} {i : Nat}
    (h : seen.drop i = t :: later) (rest : List BinaryTick) : (seen ++ rest).drop i = t :: (later ++ rest) := by
  have hlt : i < seen.length := by
    by_contra hge
    rw [List.drop_eq_nil_of_le (by omega)] at h
    cases h
  rw [List.drop_append_of_le_length hlt.le, h]
  rfl

lemma getElem?_of_drop {seen later : List BinaryTick} {t : BinaryTick} {i : Nat}
    (h : seen.drop i = t :: later) (rest : List BinaryTick) : (seen ++ rest)[i]? = some t := by
  have hhead := congrArg List.head? (drop_append_of_cons h rest)
  rw [List.head?_drop] at hhead
  exact hhead

/-- A tick that is not late enough, or not valid, leaves the order in the slot. -/
lemma PendingAt.wait {o : Option Nat} (h : PendingAt delayMs seen pending o) {u : BinaryTick}
    (hu : ∀ order, pending = some order → u.isValid = true → u.tsMs < order.targetFillTsMs) :
    PendingAt delayMs (seen ++ [u]) pending o := by
  cases o with
  | none => exact h
  | some i =>
    obtain ⟨order, t, later, hp, hdrop, hvalid, hsignal, htarget, hearly⟩ := h
    refine ⟨order, t, later ++ [u], hp, drop_append_of_cons hdrop [u], hvalid, hsignal, htarget, ?_⟩
    intro v hv hvalid'
    obtain hv | hv := List.mem_append.mp hv
    · exact hearly v hv hvalid'
    · obtain rfl := List.mem_singleton.mp hv
      rw [← htarget]
      exact hu order hp hvalid'

lemma find?_early {later : List BinaryTick} {t : BinaryTick}
    (h : ∀ u ∈ later, u.isValid = true → u.tsMs < t.tsMs + delayMs) :
    later.find? (fun u => u.isValid && decide (t.tsMs + delayMs ≤ u.tsMs)) = none := by
  rw [List.find?_eq_none]
  intro u hu hyes
  simp only [Bool.and_eq_true, decide_eq_true_eq] at hyes
  have hlt := h u hu hyes.1
  omega

/-- An order that a valid tick is late enough for is evaluated at its quote. -/
lemma PendingAt.filled {o : Option Nat} (h : PendingAt delayMs seen pending o) {order : PendingOrder}
    (hp : pending = some order) {u : BinaryTick} (rest : List BinaryTick) (hvalid : u.isValid = true)
    (hlate : order.targetFillTsMs ≤ u.tsMs) {f : Fill} (hsignal : f.signalTsMs = order.signalTsMs)
    (hbid : f.execBid = u.bid) (hask : f.execAsk = u.ask) :
    ∃ i, o = some i ∧ FilledAt delayMs (seen ++ u :: rest) i f := by
  cases o with
  | none =>
    rw [h] at hp
    cases hp
  | some i =>
    obtain ⟨order', t, later, hp', hdrop, hvalid', hsignal', htarget, hearly⟩ := h
    obtain rfl := Option.some.inj (hp.symm.trans hp')
    refine ⟨i, rfl, t, u, getElem?_of_drop hdrop _, hvalid', ?_, hsignal.trans hsignal', hbid, hask⟩
    have hfound : decide (t.tsMs + delayMs ≤ u.tsMs) = true := decide_eq_true (htarget ▸ hlate)
    unfold entryTick
    rw [drop_append_of_cons hdrop _]
    dsimp only
    rw [List.find?_append, find?_early hearly, Option.none_or, List.find?_cons, hvalid, hfound]
    rfl

/-- An order that no tick was late enough for is evaluated at the last valid quote. -/
lemma PendingAt.drained {o : Option Nat} (h : PendingAt delayMs seen pending o) {order : PendingOrder}
    (hp : pending = some order) {f : Fill} (hsignal : f.signalTsMs = order.signalTsMs)
    (hquote : ∀ u, (seen.filter BinaryTick.isValid).getLast? = some u →
      f.execBid = u.bid ∧ f.execAsk = u.ask) : ∃ i, o = some i ∧ FilledAt delayMs seen i f := by
  cases o with
  | none =>
    rw [h] at hp
    cases hp
  | some i =>
    obtain ⟨order', t, later, hp', hdrop, hvalid, hsignal', htarget, hearly⟩ := h
    obtain rfl := Option.some.inj (hp.symm.trans hp')
    have hmem : t ∈ seen.filter BinaryTick.isValid := by
      refine List.mem_filter.mpr ⟨List.mem_of_mem_drop (i := i) ?_, hvalid⟩
      rw [hdrop]
      exact List.mem_cons_self
    obtain ⟨u, hu⟩ := Option.isSome_iff_exists.mp (List.getLast?_isSome.mpr (List.ne_nil_of_mem hmem))
    obtain ⟨hbid, hask⟩ := hquote u hu
    have hget := getElem?_of_drop hdrop []
    rw [List.append_nil] at hget
    refine ⟨i, rfl, t, u, hget, hvalid, ?_, hsignal.trans hsignal', hbid, hask⟩
    unfold entryTick
    rw [hdrop]
    dsimp only
    rw [find?_early hearly, Option.none_or, hu]

/-! ## The iterations -/

lemma SeenInv.more (h : SeenInv delayMs lag seen s) {s' : Replay} {more : List BinaryTick}
    (hlag : s.lag = more ++ s'.lag)
    (hheader : s'.header = { s.header with lead := s'.lead, lag := s'.lag })
    (hquote : ∀ u, ((seen ++ more).filter BinaryTick.isValid).getLast? = some u →
      s'.lagBid = u.bid ∧ s'.lagAsk = u.ask) : SeenInv delayMs lag (seen ++ more) s' := by
  have hend : s'.out.endTsMs = s.out.endTsMs := congrArg Header.endTsMs hheader
  have hdelay : s'.out.delayMs = s.out.delayMs := congrArg Header.delayMs hheader
  have hparams : s'.sim.params = s.sim.params := congrArg Header.params hheader
  refine ⟨?_, hquote, hend ▸ h.bound, hdelay ▸ h.delay, hparams ▸ h.params⟩
  rw [h.split, hlag, List.append_assoc]

lemma quote_of_invalid (h : SeenInv delayMs lag seen s) {u : BinaryTick} (hinvalid : u.isValid = false)
    (v : BinaryTick) (hv : ((seen ++ [u]).filter BinaryTick.isValid).getLast? = some v) :
    s.lagBid = v.bid ∧ s.lagAsk = v.ask := by
  rw [List.filter_append, List.filter_singleton, hinvalid] at hv
  simp only [Bool.cond_false, List.append_nil] at hv
  exact h.quote v hv

lemma SeenInv.leadTick (h : SeenInv delayMs lag seen s) {s' : Replay} {tick : BinaryTick}
    (hp : s.pick = some (.lead, tick, s')) : SeenInv delayMs lag seen (s'.leadTick tick) := by
  obtain ⟨-, hheader, -⟩ := pick_spec hp
  obtain ⟨-, -, hlag, -⟩ | ⟨⟨⟩, -⟩ := pick_streams hp
  have hfeeds := pick_feeds hp
  have hbid : s'.lagBid = s.lagBid := congrArg Feeds.lagBid hfeeds
  have hask : s'.lagAsk = s.lagAsk := congrArg Feeds.lagAsk hfeeds
  have hsame := (s'.leadTick_same tick).2
  have htlag : (s'.leadTick tick).lag = s'.lag := congrArg Header.lag hsame
  have htlead : (s'.leadTick tick).lead = s'.lead := congrArg Header.lead hsame
  obtain ⟨htbid, htask, -⟩ := s'.leadTick_quotes tick
  rw [← List.append_nil seen]
  apply h.more
  · rw [htlag, hlag, List.nil_append]
  · rw [hsame, hheader, htlag, htlead]
  · intro u hu
    rw [List.append_nil] at hu
    obtain ⟨hub, hua⟩ := h.quote u hu
    exact ⟨(htbid.trans hbid).trans hub, (htask.trans hask).trans hua⟩

lemma SeenInv.invalidTick (h : SeenInv delayMs lag seen s) {s' : Replay} {tick : BinaryTick}
    (hp : s.pick = some (.lag, tick, s')) (hinvalid : tick.isValid = false) :
    SeenInv delayMs lag (seen ++ [tick]) s' := by
  obtain ⟨-, hheader, -⟩ := pick_spec hp
  obtain ⟨⟨⟩, -⟩ | ⟨-, hlag, -⟩ := pick_streams hp
  have hfeeds := pick_feeds hp
  have hbid : s'.lagBid = s.lagBid := congrArg Feeds.lagBid hfeeds
  have hask : s'.lagAsk = s.lagAsk := congrArg Feeds.lagAsk hfeeds
  apply h.more hlag hheader
  intro u hu
  obtain ⟨hub, hua⟩ := quote_of_invalid h hinvalid u hu
  exact ⟨hbid.trans hub, hask.trans hua⟩

/-- A lead tick, or a lag tick that is not valid, does nothing to the orders. -/
lemma next_idle {t : Replay} (h : SeenInv delayMs lag seen s) (hs : next cfg params s = some t)
    (hcall : s.fillCall = none) : s.submits cfg params = false ∧ t.sim.pending = s.sim.pending ∧
      ∃ more, SeenInv delayMs lag (seen ++ more) t ∧ ∀ o, PendingAt delayMs seen s.sim.pending o →
        PendingAt delayMs (seen ++ more) s.sim.pending o := by
  obtain ⟨tick, s', hp, rfl⟩ | ⟨tick, s', hp, rfl⟩ := next_cases cfg params hs
  · have hledger := (s'.leadTick_same tick).1.trans (pick_spec hp).1
    refine ⟨?_, congrArg Ledger.pending hledger, [], ?_, ?_⟩
    · unfold submits evaluation
      rw [hp]
    · rw [List.append_nil]
      exact h.leadTick hp
    · intro o ho
      rw [List.append_nil]
      exact ho
  · have hinvalid : tick.isValid = false := by
      rw [← Bool.not_eq_true]
      intro hvalid
      simp [fillCall, hp, hvalid] at hcall
    have hsame : s'.lagTick cfg params tick = s' := by
      rw [lagTick, hinvalid]
      rfl
    rw [hsame]
    refine ⟨?_, congrArg Ledger.pending (pick_spec hp).1, [tick], h.invalidTick hp hinvalid, ?_⟩
    · unfold submits evaluation
      rw [hp]
      simp [hinvalid]
    · intro o ho
      apply ho.wait
      intro order _ hvalid
      rw [hinvalid] at hvalid
      cases hvalid

/-- The state in which the strategy sees a valid lag tick. -/
def ridden (s : Replay) (u : BinaryTick) : Replay :=
  ((s.quoted u).handleFill params u.tsMs).ride params u.tsMs

lemma submits_eq {s' : Replay} {u : BinaryTick} (hp : s.pick = some (.lag, u, s'))
    (hvalid : u.isValid = true) : s.submits cfg params =
      ((ridden params s' u).sim.pending.isNone &&
        ((ridden params s' u).evaluateQuote cfg u.tsMs).sim.pending.isSome) := by
  unfold submits evaluation
  rw [hp]
  dsimp only
  by_cases hgate : 0 < (ridden params s' u).leadMid ∧ 0 < (ridden params s' u).lagBid ∧
      0 < (ridden params s' u).lagAsk
  · rw [if_pos ⟨hvalid, hgate⟩]
    rfl
  · rw [if_neg (fun h => hgate h.2)]
    have hsame : (ridden params s' u).evaluateQuote cfg u.tsMs = ridden params s' u := if_neg hgate
    rw [hsame]
    cases (ridden params s' u).sim.pending <;> rfl

/-- The call of `handle_fill` at a valid tick evaluates the order it is late enough for. -/
lemma ridden_pending {s' : Replay} {u : BinaryTick} (rest : List BinaryTick) {o : Option Nat}
    (hvalid : u.isValid = true) (h : PendingAt delayMs seen s'.sim.pending o) :
    ∃ o₁, PendingAt delayMs (seen ++ [u]) (ridden params s' u).sim.pending o₁ ∧
      ((o₁ = o ∧ fillOf (s'.quoted u, u.tsMs) = none) ∨
        (o₁ = none ∧ ∃ i f, o = some i ∧ fillOf (s'.quoted u, u.tsMs) = some f ∧
          FilledAt delayMs (seen ++ u :: rest) i f)) := by
  have hpending : (ridden params s' u).sim.pending = ((s'.quoted u).handleFill params u.tsMs).sim.pending :=
    ride_pending params _ _
  cases hdue : (s'.quoted u).sim.due u.tsMs with
  | none =>
    refine ⟨o, ?_, .inl ⟨rfl, ?_⟩⟩
    · rw [hpending, handleFill_pending params hdue]
      apply h.wait
      intro order hp _
      by_contra hlate
      have hsome : (s'.quoted u).sim.due u.tsMs = some order :=
        Option.filter_eq_some_iff.mpr ⟨hp, decide_eq_true (not_lt.mp hlate)⟩
      rw [hdue] at hsome
      cases hsome
    · unfold fillOf
      rw [atFill_of_not_due hdue]
  | some order =>
    obtain ⟨hp, hlate⟩ := Option.filter_eq_some_iff.mp hdue
    obtain ⟨f, hf, hsignal, hbid, hask⟩ := atFill_quote hdue u.bid u.ask
    obtain ⟨i, hi, hfilled⟩ :=
      h.filled hp rest hvalid (of_decide_eq_true hlate) hsignal hbid hask
    refine ⟨none, ?_, .inr ⟨rfl, i, f, hi, hf, hfilled⟩⟩
    rw [hpending, handleFill_clears params hdue]
    rfl

lemma ridden_header (s : Replay) (u : BinaryTick) : (ridden params s u).header = s.header := by
  unfold ridden
  rw [(ride_cases params _ _).1, handleFill_header]
  rfl

/-- The strategy may submit an order for the tick it sees, if the slot is empty. -/
lemma evaluated_pending {s' : Replay} {u : BinaryTick} {o : Option Nat} (hp : s.pick = some (.lag, u, s'))
    (hvalid : u.isValid = true) (hdelay : s'.sim.params.delayMs = delayMs)
    (h : PendingAt delayMs (seen ++ [u]) (ridden params s' u).sim.pending o) :
    ∃ o₁, PendingAt delayMs (seen ++ [u]) ((ridden params s' u).evaluateQuote cfg u.tsMs).sim.pending o₁ ∧
      ((s.submits cfg params = false ∧ o₁ = o) ∨
        (s.submits cfg params = true ∧ o = none ∧ o₁ = some seen.length)) := by
  rw [submits_eq cfg params hp hvalid]
  obtain hsame | ⟨hempty, order, horder, hsignal, htarget⟩ :=
    evaluateQuote_sim cfg (ridden params s' u) u.tsMs
  · rw [hsame]
    refine ⟨o, h, .inl ⟨?_, rfl⟩⟩
    cases (ridden params s' u).sim.pending <;> rfl
  · have hnone : o = none := by
      cases o with
      | none => rfl
      | some i =>
        obtain ⟨order', -, -, hp', -⟩ := h
        rw [hempty] at hp'
        cases hp'
    have hparams : (ridden params s' u).sim.params = s'.sim.params :=
      congrArg Header.params (ridden_header params s' u)
    rw [horder, hempty]
    refine ⟨some seen.length, ?_, .inr ⟨rfl, hnone, rfl⟩⟩
    refine ⟨order, u, [], rfl, List.drop_left, hvalid, hsignal, ?_, by simp⟩
    rw [htarget, hparams, hdelay]

lemma SeenInv.validTick (h : SeenInv delayMs lag seen s) {s' : Replay} {u : BinaryTick}
    (hp : s.pick = some (.lag, u, s')) (hvalid : u.isValid = true) :
    SeenInv delayMs lag (seen ++ [u]) (s'.lagTick cfg params u) := by
  obtain ⟨-, hheader, -⟩ := pick_spec hp
  obtain ⟨⟨⟩, -⟩ | ⟨-, hlag, -⟩ := pick_streams hp
  have htheader := s'.lagTick_header cfg params u
  have htfeeds := s'.lagTick_feeds cfg params u
  rw [if_pos hvalid] at htfeeds
  have htlag : (s'.lagTick cfg params u).lag = s'.lag := congrArg Header.lag htheader
  have htlead : (s'.lagTick cfg params u).lead = s'.lead := congrArg Header.lead htheader
  apply h.more
  · rw [htlag, hlag]
    rfl
  · rw [htheader, hheader, htlag, htlead]
  · intro v hv
    rw [List.filter_append, List.filter_singleton, hvalid] at hv
    obtain rfl : u = v := by simpa using hv
    exact ⟨congrArg Feeds.lagBid htfeeds, congrArg Feeds.lagAsk htfeeds⟩

/-- A valid lag tick evaluates the order it is late enough for, and then may submit another one. -/
lemma next_quoted {t : Replay} {call : Replay × Int} {o : Option Nat} (h : SeenInv delayMs lag seen s)
    (hs : next cfg params s = some t) (hcall : s.fillCall = some call)
    (ho : PendingAt delayMs seen s.sim.pending o) :
    ∃ u o₁ o₂, SeenInv delayMs lag (seen ++ [u]) t ∧ PendingAt delayMs (seen ++ [u]) t.sim.pending o₂ ∧
      ((o₁ = o ∧ fillOf call = none) ∨
        (o₁ = none ∧ ∃ i f, o = some i ∧ fillOf call = some f ∧ FilledAt delayMs lag i f)) ∧
      ((s.submits cfg params = false ∧ o₂ = o₁) ∨
        (s.submits cfg params = true ∧ o₁ = none ∧ o₂ = some seen.length)) := by
  unfold fillCall at hcall
  obtain ⟨tick, s', hp, rfl⟩ | ⟨u, s', hp, rfl⟩ := next_cases cfg params hs
  · simp [hp] at hcall
  · simp only [hp] at hcall
    split at hcall
    case isFalse => cases hcall
    case isTrue hvalid =>
      obtain rfl := Option.some.inj hcall
      obtain ⟨hledger, hheader, -⟩ := pick_spec hp
      obtain ⟨⟨⟩, -⟩ | ⟨-, hlag, -⟩ := pick_streams hp
      have hpending : s'.sim.pending = s.sim.pending := congrArg Ledger.pending hledger
      have hparams : s'.sim.params = s.sim.params := congrArg Header.params hheader
      have hticked : s'.lagTick cfg params u =
          ((ridden params s' u).evaluateQuote cfg u.tsMs).remember := by
        rw [lagTick, if_neg (by simp [hvalid])]
        rfl
      rw [← hpending] at ho
      obtain ⟨o₁, ho₁, hfill⟩ := ridden_pending params s'.lag hvalid ho
      obtain ⟨o₂, ho₂, hsubmit⟩ :=
        evaluated_pending cfg params hp hvalid (by rw [hparams, h.params]) ho₁
      refine ⟨u, o₁, o₂, h.validTick cfg params hp hvalid, ?_, ?_, hsubmit⟩
      · rw [hticked]
        exact ho₂
      · rw [h.split, hlag]
        exact hfill

/-- What the call after the loop evaluates. -/
lemma drain_filled {o : Option Nat} (h : SeenInv delayMs lag seen s) (hlag : s.lag = [])
    (ho : PendingAt delayMs seen s.sim.pending o) :
    List.Forall₂ (FilledAt delayMs lag) o.toList (fillOf (s, s.drainMs)).toList := by
  have hseen : lag = seen := by
    rw [h.split, hlag, List.append_nil]
  cases o with
  | none =>
    have hnone : s.sim.due s.drainMs = none := by
      rw [due, show s.sim.pending = none from ho]
      rfl
    have hfill : fillOf (s, s.drainMs) = none := by
      unfold fillOf
      rw [atFill_of_not_due hnone]
    rw [hfill]
    exact .nil
  | some i =>
    have hpending := ho
    obtain ⟨order, t, later, hp, hdrop, -, -, htarget, -⟩ := ho
    have hmem : t ∈ lag := by
      rw [hseen]
      apply List.mem_of_mem_drop (i := i)
      rw [hdrop]
      exact List.mem_cons_self
    have hbound := h.bound t hmem
    have hlate : order.targetFillTsMs ≤ s.drainMs := by
      unfold drainMs
      rw [htarget, h.delay]
      omega
    have hdue : s.sim.due s.drainMs = some order :=
      Option.filter_eq_some_iff.mpr ⟨hp, decide_eq_true hlate⟩
    obtain ⟨f, hf, hsignal, hbid, hask⟩ := atFill_quote hdue s.lagBid s.lagAsk
    have hfill : fillOf (s, s.drainMs) = some f := hf
    obtain ⟨j, hj, hfilled⟩ := hpending.drained hp hsignal (fun u hu => by
      rw [hbid, hask]
      exact h.quote u hu)
    obtain rfl := Option.some.inj hj
    rw [hfill, hseen]
    exact .cons hfilled .nil

/-- From any state of the loop on, the order in the slot and those submitted later are evaluated in that
order, each at the quote it is due at. -/
theorem loop_filled {fuel : Nat} {o : Option Nat} (hfuel : s.lead.length + s.lag.length ≤ fuel)
    (h : SeenInv delayMs lag seen s) (ho : PendingAt delayMs seen s.sim.pending o) :
    List.Forall₂ (FilledAt delayMs lag)
      (o.toList ++ submissionsFrom cfg params lag.length fuel s)
      (((Loop.visits (next cfg params) fuel s).filterMap fillCall).filterMap fillOf ++
        (fillOf (Loop.run (next cfg params) fuel s, (Loop.run (next cfg params) fuel s).drainMs)).toList) := by
  induction fuel generalizing s seen o with
  | zero =>
    have hlag : s.lag = [] := List.eq_nil_of_length_eq_zero (by omega)
    simpa [submissionsFrom, Loop.visits, Loop.run] using drain_filled h hlag ho
  | succ fuel ih =>
    rw [submissionsFrom, Loop.visits, Loop.run]
    cases hn : next cfg params s with
    | none =>
      have hlag := (next_eq_none cfg params hn).2
      simpa using drain_filled h hlag ho
    | some t =>
      dsimp only
      obtain ⟨a, -, hmerged⟩ := next_merged cfg params hn
      have hlength := congrArg List.length hmerged
      rw [merged_length, List.length_cons, merged_length] at hlength
      have hindex : lag.length - s.lag.length = seen.length := by
        rw [h.split, List.length_append]
        omega
      rw [List.filter_cons, List.filterMap_cons]
      cases hcall : s.fillCall with
      | none =>
        obtain ⟨hsubmits, hpending, more, hmore, hwait⟩ := next_idle cfg params h hn hcall
        rw [hsubmits]
        simp only [Bool.false_eq_true, if_false]
        exact ih (by omega) hmore (hpending ▸ hwait o ho)
      | some call =>
        obtain ⟨u, o₁, o₂, hseen, ho₂, hfill, hsubmit⟩ := next_quoted cfg params h hn hcall ho
        have hrest := ih (by omega) hseen ho₂
        unfold submissionsFrom at hrest
        obtain ⟨hno, rfl⟩ | ⟨hyes, rfl, rfl⟩ := hsubmit
        · rw [hno]
          obtain ⟨rfl, hf⟩ | ⟨rfl, i, f, rfl, hf, hfilled⟩ := hfill
          · simpa [hf] using hrest
          · simpa [hf] using And.intro hfilled hrest
        · rw [hyes]
          obtain ⟨rfl, hf⟩ | ⟨-, i, f, rfl, hf, hfilled⟩ := hfill
          · simpa [hf, hindex] using hrest
          · simpa [hf, hindex] using And.intro hfilled hrest

/-- A submission is made at a lag tick after those before. -/
lemma submissions_increase {fuel : Nat} {o : Option Nat} (h : SeenInv delayMs lag seen s)
    (ho : PendingAt delayMs seen s.sim.pending o) :
    (∀ i ∈ submissionsFrom cfg params lag.length fuel s, seen.length ≤ i) ∧
      (submissionsFrom cfg params lag.length fuel s).Pairwise (· < ·) := by
  induction fuel generalizing s seen o with
  | zero => simp [submissionsFrom, Loop.visits]
  | succ fuel ih =>
    rw [submissionsFrom, Loop.visits]
    cases hn : next cfg params s with
    | none => simp
    | some t =>
      dsimp only
      rw [List.filter_cons]
      cases hcall : s.fillCall with
      | none =>
        obtain ⟨hsubmits, hpending, more, hmore, hwait⟩ := next_idle cfg params h hn hcall
        obtain ⟨hlater, hsorted⟩ := ih hmore (hpending ▸ hwait o ho)
        rw [hsubmits, if_neg Bool.false_ne_true]
        refine ⟨?_, hsorted⟩
        intro i hi
        have hle := hlater i hi
        rw [List.length_append] at hle
        omega
      | some call =>
        obtain ⟨u, o₁, o₂, hseen, ho₂, -, -⟩ := next_quoted cfg params h hn hcall ho
        obtain ⟨hlater, hsorted⟩ := ih hseen ho₂
        rw [List.length_append, List.length_singleton] at hlater
        split
        · have hindex : lag.length - s.lag.length = seen.length := by
            rw [h.split, List.length_append]
            omega
          rw [List.map_cons, hindex]
          refine ⟨?_, List.pairwise_cons.mpr ⟨hlater, hsorted⟩⟩
          intro i hi
          obtain rfl | hi := List.mem_cons.mp hi
          · exact le_rfl
          · exact (Nat.le_succ _).trans (hlater i hi)
        · exact ⟨fun i hi => (Nat.le_succ _).trans (hlater i hi), hsorted⟩

/-- The orders of a run are evaluated in the order of their submission, each once: the order of lag tick `i`
at the first valid lag tick after it that is late enough, or after the loop at the last valid one. -/
theorem entries_at_due_quotes (delayMs : Int) (lead lag : List BinaryTick)
    (hlag : lag.Pairwise (fun a b => a.tsMs ≤ b.tsMs)) :
    (submissions cfg params delayMs lead lag).Pairwise (· < ·) ∧
    List.Forall₂ (FilledAt delayMs lag) (submissions cfg params delayMs lead lag)
      (evaluatedFills cfg params delayMs lead lag) := by
  unfold submissions evaluatedFills fillCalls
  by_cases hempty : lead = [] ∨ lag = []
  · simp [hempty]
  · rw [if_neg hempty, if_neg hempty, List.filterMap_append]
    have hstart : SeenInv delayMs lag [] (start params delayMs lead lag) := by
      refine ⟨rfl, by simp, ?_, rfl, rfl⟩
      intro t ht
      exact (getLast_ge hlag ht).trans (le_max_right _ _)
    have hlast : ∀ call, [call].filterMap fillOf = (fillOf call).toList := by
      intro call
      cases hf : fillOf call <;> simp [hf]
    rw [hlast]
    exact ⟨(submissions_increase cfg params hstart (o := none) rfl).2,
      loop_filled cfg params (o := none) le_rfl hstart rfl⟩

theorem entries_at_due_quotes_minute :
    submissions {} {} 5 minuteLead minuteLag = [0] ∧
      List.Forall₂ (FilledAt 5 minuteLag) (submissions {} {} 5 minuteLead minuteLag)
        (evaluatedFills {} {} 5 minuteLead minuteLag) :=
  ⟨by decide +kernel, (entries_at_due_quotes {} {} 5 minuteLead minuteLag (by decide)).2⟩

end Replay

end LatencyArb
