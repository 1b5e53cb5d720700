import LatencyArb.Backtest.Quantity
import LatencyArb.Library.Online

/-!
# No look-ahead in the replay (`run_impl`)

The loop reads neither the ticks that are still to come nor the ends of the streams, and a trade is stamped
with the time of the lag tick that made it. So two recordings that agree up to a time are traded alike up
to that time.
-/

namespace LatencyArb

namespace Replay

variable (cfg : Config) (params : ExecutionParams)

/-- The state without what the body of the loop does not read. -/
def bare (s : Replay) : Replay :=
  { s with lead := [], lag := [], out := { s.out with startTsMs := 0, endTsMs := 0 } }

/-- The body of the loop, once it has taken its tick. -/
def handleTick (s : Replay) (a : Feed × BinaryTick) : Replay :=
  match a.1 with
  | .lead => s.leadTick a.2
  | .lag => s.lagTick cfg params a.2

/-! ## The body reads nothing else -/

lemma recordTrade_bare (s : Replay) (tr : Trade) : (s.recordTrade tr).bare = s.bare.recordTrade tr := by
  unfold recordTrade
  by_cases hdeeper : s.out.maxDrawdown < max s.peak s.equity - s.equity
  · simp [bare, hdeeper]
  · simp [bare, hdeeper]

lemma instantTrade_bare (s : Replay) (f : Fill) : (s.instantTrade f).bare = s.bare.instantTrade f := by
  unfold instantTrade
  exact recordTrade_bare _ _

lemma closed_bare (s : Replay) (p : OpenPosition) (nowMs : Int) (curBid curAsk : ℚ) :
    (s.closed params p nowMs curBid curAsk).bare = s.bare.closed params p nowMs curBid curAsk := by
  have hrelease : ∀ (t : Replay) (pnl comm : ℚ), ({ t.orderClosed pnl comm with held := none } : Replay).bare =
      { t.bare.orderClosed pnl comm with held := none } := fun _ _ _ => rfl
  unfold closed
  dsimp only
  rw [hrelease, recordTrade_bare]
  rfl

lemma closeOpen_bare (s : Replay) (nowMs : Int) (curLead curBid curAsk : ℚ) (force : Bool) :
    (s.closeOpen params nowMs curLead curBid curAsk force).bare =
      s.bare.closeOpen params nowMs curLead curBid curAsk force := by
  have hheld : s.bare.held = s.held := rfl
  cases hh : s.held with
  | none =>
    unfold closeOpen
    rw [hheld, hh]
  | some p =>
    rw [closeOpen_eq params hh, closeOpen_eq params (hheld.trans hh), apply_ite bare, closed_bare]

lemma handleFill_bare (s : Replay) (nowMs : Int) :
    (s.handleFill params nowMs).bare = s.bare.handleFill params nowMs := by
  have hcall : s.bare.sim.atFill nowMs s.bare.lagBid s.bare.lagAsk = s.sim.atFill nowMs s.lagBid s.lagAsk := rfl
  unfold handleFill
  rw [hcall]
  generalize s.sim.atFill nowMs s.lagBid s.lagAsk = r
  obtain ⟨sim, fill⟩ := r
  cases fill with
  | none => rfl
  | some f =>
    dsimp only
    by_cases hfilled : f.filled = true
    · rw [if_pos hfilled, if_pos hfilled, apply_ite bare, instantTrade_bare]
      rfl
    · rw [if_neg hfilled, if_neg hfilled]
      rfl

lemma ride_bare (s : Replay) (nowMs : Int) : (s.ride params nowMs).bare = s.bare.ride params nowMs := by
  unfold ride
  rw [apply_ite bare, closeOpen_bare]
  rfl

lemma act_bare (s : Replay) (nowMs : Int) (answer : Option Signal × Strategy) :
    (s.act nowMs answer).bare = s.bare.act nowMs answer := by
  obtain ⟨sig, strategy⟩ := answer
  cases sig with
  | none => rfl
  | some sig =>
    unfold act
    dsimp only
    rw [apply_ite bare]
    rfl

lemma evaluateQuote_bare (s : Replay) (nowMs : Int) :
    (s.evaluateQuote cfg nowMs).bare = s.bare.evaluateQuote cfg nowMs := by
  rw [evaluateQuote_eq, evaluateQuote_eq, apply_ite bare, act_bare]
  rfl

lemma handleTick_bare (s : Replay) (a : Feed × BinaryTick) :
    (s.handleTick cfg params a).bare = s.bare.handleTick cfg params a := by
  obtain ⟨feed, t⟩ := a
  cases feed with
  | lead =>
    unfold handleTick leadTick
    dsimp only
    rw [apply_ite bare]
    rfl
  | lag =>
    unfold handleTick lagTick
    dsimp only
    have hremember : ∀ u : Replay, u.remember.bare = u.bare.remember := fun _ => rfl
    rw [apply_ite bare, hremember, evaluateQuote_bare, ride_bare, handleFill_bare]
    rfl

lemma bare_of_pick {s s' : Replay} {feed : Feed} {t : BinaryTick} (h : s.pick = some (feed, t, s')) :
    s'.bare = s.bare := by
  rw [pick_same h]
  rfl

/-- The loop handles the merged streams tick by tick. -/
lemma run_bare {fuel : Nat} {s : Replay} (hfuel : s.lead.length + s.lag.length ≤ fuel) :
    (Loop.run (next cfg params) fuel s).bare = (merged s.lead s.lag).foldl (handleTick cfg params) s.bare := by
  induction fuel generalizing s with
  | zero =>
    have hempty : (merged s.lead s.lag).length = 0 := by
      rw [merged_length]
      omega
    rw [List.length_eq_zero_iff.mp hempty]
    rfl
  | succ fuel ih =>
    rw [Loop.run]
    cases hn : next cfg params s with
    | none =>
      obtain ⟨hlead, hlag⟩ := next_eq_none cfg params hn
      simp [hlead, hlag, merged]
    | some t =>
      obtain ⟨a, ha, hmerged⟩ := next_merged cfg params hn
      have hlen := congrArg List.length hmerged
      rw [merged_length, List.length_cons, merged_length] at hlen
      have hstep : t.bare = s.bare.handleTick cfg params a := by
        unfold taken at ha
        obtain ⟨tick, s', hp, rfl⟩ | ⟨tick, s', hp, rfl⟩ := next_cases cfg params hn
        · rw [hp] at ha
          obtain rfl := Option.some.inj ha
          rw [← bare_of_pick hp, ← handleTick_bare]
          rfl
        · rw [hp] at ha
          obtain rfl := Option.some.inj ha
          rw [← bare_of_pick hp, ← handleTick_bare]
          rfl
      dsimp only
      rw [hmerged, List.foldl_cons, ih (by omega), hstep]

/-! ## The trades of one step -/

/-- `s'` has the trades of `s` and some that were made at the time `nowMs`. -/
def TradesAt (nowMs : Int) (s s' : Replay) : Prop :=
  ∃ new, s'.out.trades = s.out.trades ++ new ∧ ∀ tr ∈ new, tr.fillTsMs = nowMs

variable {nowMs : Int} {s s' s'' : Replay}

lemma TradesAt.none (h : s'.out.trades = s.out.trades) : TradesAt nowMs s s' :=
  ⟨[], by rw [h, List.append_nil], by simp⟩

lemma TradesAt.trans (h : TradesAt nowMs s s') (h' : TradesAt nowMs s' s'') : TradesAt nowMs s s'' := by
  obtain ⟨new, hnew, hstamps⟩ := h
  obtain ⟨later, hlater, hstamps'⟩ := h'
  refine ⟨new ++ later, by rw [hlater, hnew, List.append_assoc], ?_⟩
  intro tr htr
  obtain htr | htr := List.mem_append.mp htr
  · exact hstamps tr htr
  · exact hstamps' tr htr

lemma bookTrade_at (s : Replay) (tr : Trade) (htime : tr.fillTsMs = nowMs) (comm : ℚ) :
    TradesAt nowMs s (s.bookTrade tr comm) := by
  refine ⟨_, s.bookTrade_trades tr comm, ?_⟩
  intro tr' htr'
  rw [List.mem_singleton.mp htr']
  exact htime

lemma closeOpen_at (s : Replay) (nowMs : Int) (curLead curBid curAsk : ℚ) (force : Bool) :
    TradesAt nowMs s (s.closeOpen params nowMs curLead curBid curAsk force) := by
  cases hh : s.held with
  | none =>
    unfold closeOpen
    rw [hh]
    exact .none rfl
  | some p =>
    rw [closeOpen_eq params hh]
    split
    · exact s.bookTrade_at { signalTsMs := p.sigTs, fillTsMs := nowMs, side := p.side, signalMark := p.mark
                             fillPrice := p.price
                             pnl := roundTrip p.side p.price (exitPrice params p curBid curAsk) - p.comm }
        rfl p.comm
    · exact .none rfl

lemma handleFill_at (s : Replay) (nowMs : Int) : TradesAt nowMs s (s.handleFill params nowMs) := by
  obtain ⟨-, heq⟩ | ⟨order, f, -, hfill, ⟨-, -, heq⟩ | ⟨-, hfilled, heq⟩⟩ :=
    s.handleFill_spec params nowMs
  · rw [heq]
    exact .none rfl
  · rw [heq]
    exact .none rfl
  · obtain ⟨-, -, -, -, -, htime⟩ := ExecutionSimulator.atFill_filled hfill hfilled
    rw [heq]
    split
    · exact .none rfl
    · exact s.cleared.bookTrade_at { signalTsMs := f.signalTsMs, fillTsMs := f.fillTsMs, side := f.side
                                     signalMark := f.signalMark, fillPrice := f.fillPrice
                                     pnl := roundTrip f.side f.fillPrice (instantExit f) - f.commission }
        htime f.commission

lemma forceClose_at (s : Replay) (nowMs : Int) : TradesAt nowMs s (s.forceClose params nowMs) := by
  unfold forceClose
  split
  · exact .none rfl
  · refine TradesAt.trans (.none ?_) (closeOpen_at params _ _ _ _ _ _)
    split <;> rfl

lemma handleTick_at (s : Replay) (a : Feed × BinaryTick) :
    TradesAt a.2.tsMs s (s.handleTick cfg params a) := by
  obtain ⟨feed, t⟩ := a
  cases feed with
  | lead => exact .none (congrArg Books.trades (s.leadTick_books t).1)
  | lag =>
    unfold handleTick lagTick
    dsimp only
    split
    · exact .none rfl
    · have hfill : TradesAt t.tsMs s ((s.quoted t).handleFill params t.tsMs) :=
        handleFill_at params (s.quoted t) t.tsMs
      have hride : TradesAt t.tsMs ((s.quoted t).handleFill params t.tsMs)
          (((s.quoted t).handleFill params t.tsMs).ride params t.tsMs) := by
        unfold ride
        split
        · exact closeOpen_at params _ _ _ _ _ _
        · exact .none rfl
      exact (hfill.trans hride).trans (.none (congrArg Books.trades (evaluateQuote_books cfg _ t.tsMs).1))

/-! ## Two recordings -/

/-- What a recording holds up to the time `T`. -/
def upTo (T : Int) (ticks : List BinaryTick) : List BinaryTick := ticks.filter (fun t => decide (t.tsMs ≤ T))

/-- The merged streams up to a time are the merge of what the streams hold up to that time. -/
lemma merged_upTo (T : Int) {lead lag : List BinaryTick} (hlead : lead.Pairwise (fun a b => a.tsMs ≤ b.tsMs))
    (hlag : lag.Pairwise (fun a b => a.tsMs ≤ b.tsMs)) :
    (merged lead lag).filter (fun a => decide (a.2.tsMs ≤ T)) = merged (upTo T lead) (upTo T lag) := by
  have hfeed : ∀ (feed : Feed) (ticks : List BinaryTick), ticks.Pairwise (fun a b => a.tsMs ≤ b.tsMs) →
      (ticks.map (feed, ·)).Pairwise (fun a b => precedes a b = true) := by
    intro feed ticks hticks
    refine List.pairwise_map.mpr (hticks.imp ?_)
    intro a b hab
    simp only [precedes, decide_eq_true_eq]
    cases feed <;> simp <;> omega
  have hupTo : ∀ (feed : Feed) (ticks : List BinaryTick),
      (ticks.map (feed, ·)).filter (fun a => decide (a.2.tsMs ≤ T)) = (upTo T ticks).map (feed, ·) :=
    fun feed ticks => List.filter_map
  unfold merged
  rw [Online.filter_merge precedes_trans (hfeed .lead lead hlead) (hfeed .lag lag hlag), hupTo, hupTo]

lemma merged_in_time {lead lag : List BinaryTick} (hlead : lead.Pairwise (fun a b => a.tsMs ≤ b.tsMs))
    (hlag : lag.Pairwise (fun a b => a.tsMs ≤ b.tsMs)) :
    (merged lead lag).Pairwise (fun a b => a.2.tsMs ≤ b.2.tsMs) := by
  refine (merged_sorted hlead hlag).imp ?_
  intro a b hab
  obtain h | ⟨h, -⟩ := of_decide_eq_true hab
  · exact h.le
  · exact h.le

lemma replayed_drainMs (delayMs : Int) (lead lag : List BinaryTick) :
    (replayed cfg params delayMs lead lag).drainMs = max lead.getLast!.tsMs lag.getLast!.tsMs + delayMs + 1 := by
  have hnext : ∀ s t : Replay, s.drainMs = max lead.getLast!.tsMs lag.getLast!.tsMs + delayMs + 1 →
      next cfg params s = some t → t.drainMs = max lead.getLast!.tsMs lag.getLast!.tsMs + delayMs + 1 := by
    intro s t hs hn
    have hdrain : ∀ u : Replay, u.drainMs = u.header.endTsMs + u.header.delayMs + 1 := fun _ => rfl
    obtain ⟨tick, s', hp, rfl⟩ | ⟨tick, s', hp, rfl⟩ := next_cases cfg params hn
    · rw [hdrain, (s'.leadTick_same tick).2, ← hdrain, pick_same hp]
      exact hs
    · rw [hdrain, s'.lagTick_header cfg params tick, ← hdrain, pick_same hp]
      exact hs
  exact (Loop.run_invariant hnext rfl _).1

/-- The trades of the loop, with those that the end of the recording adds. -/
lemma runImpl_trades (delayMs : Int) {lead lag : List BinaryTick} (hlead : lead ≠ []) (hlag : lag ≠ []) :
    ∃ last, (runImpl cfg params delayMs lead lag).trades =
        ((merged lead lag).foldl (handleTick cfg params) (start params delayMs [] []).bare).out.trades ++ last ∧
      ∀ tr ∈ last, max lead.getLast!.tsMs lag.getLast!.tsMs + delayMs < tr.fillTsMs := by
  have hloop : (replayed cfg params delayMs lead lag).bare =
      (merged lead lag).foldl (handleTick cfg params) (start params delayMs [] []).bare :=
    run_bare cfg params (s := start params delayMs lead lag) le_rfl
  have hdrain := replayed_drainMs cfg params delayMs lead lag
  have htrades : (replayed cfg params delayMs lead lag).out.trades =
      ((merged lead lag).foldl (handleTick cfg params) (start params delayMs [] []).bare).out.trades := by
    rw [← hloop]
    rfl
  obtain ⟨filled, hfilled, hfillTimes⟩ := handleFill_at params (replayed cfg params delayMs lead lag)
    (replayed cfg params delayMs lead lag).drainMs
  obtain ⟨closed, hclosed, hcloseTimes⟩ := forceClose_at params
    ((replayed cfg params delayMs lead lag).handleFill params (replayed cfg params delayMs lead lag).drainMs)
    ((replayed cfg params delayMs lead lag).drainMs + 1)
  refine ⟨filled ++ closed, ?_, ?_⟩
  · rw [runImpl, if_neg (not_or.mpr ⟨hlead, hlag⟩), ← htrades, ← List.append_assoc, ← hfilled, ← hclosed]
    rfl
  · intro tr htr
    obtain htr | htr := List.mem_append.mp htr
    · have htime := hfillTimes tr htr
      omega
    · have htime := hcloseTimes tr htr
      omega

/-- Two recordings in order of time that agree up to `T`, neither of them at its end by then: the trades up
to `T` are the same, down to their equity, and all others are later. -/
theorem no_look_ahead (delayMs T : Int) {lead lead' lag lag' : List BinaryTick}
    (hlead : lead.Pairwise (fun a b => a.tsMs ≤ b.tsMs)) (hlead' : lead'.Pairwise (fun a b => a.tsMs ≤ b.tsMs))
    (hlag : lag.Pairwise (fun a b => a.tsMs ≤ b.tsMs)) (hlag' : lag'.Pairwise (fun a b => a.tsMs ≤ b.tsMs))
    (hsameLead : upTo T lead = upTo T lead') (hsameLag : upTo T lag = upTo T lag')
    (hticks : lead ≠ [] ∧ lag ≠ [] ∧ lead' ≠ [] ∧ lag' ≠ [])
    (hend : T ≤ max lead.getLast!.tsMs lag.getLast!.tsMs + delayMs)
    (hend' : T ≤ max lead'.getLast!.tsMs lag'.getLast!.tsMs + delayMs) :
    ∃ past rest rest', (runImpl cfg params delayMs lead lag).trades = past ++ rest ∧
      (runImpl cfg params delayMs lead' lag').trades = past ++ rest' ∧
      (∀ tr ∈ past, tr.fillTsMs ≤ T) ∧ ∀ tr ∈ rest ++ rest', T < tr.fillTsMs := by
  obtain ⟨hne, hne', hneLead', hneLag'⟩ := hticks
  have hsame : (merged lead lag).filter (fun a => decide (a.2.tsMs ≤ T)) =
      (merged lead' lag').filter (fun a => decide (a.2.tsMs ≤ T)) := by
    rw [merged_upTo T hlead hlag, merged_upTo T hlead' hlag', hsameLead, hsameLag]
  obtain ⟨past, rest, rest', hpast, hpast', hearly, hlate⟩ :=
    Online.logs_agree (fun s : Replay => s.out.trades) Trade.fillTsMs T (handleTick_at cfg params)
      (merged_in_time hlead hlag) (merged_in_time hlead' hlag') hsame (start params delayMs [] []).bare
  obtain ⟨last, htrades, hlast⟩ := runImpl_trades cfg params delayMs hne hne'
  obtain ⟨last', htrades', hlast'⟩ := runImpl_trades cfg params delayMs hneLead' hneLag'
  refine ⟨past, rest ++ last, rest' ++ last', ?_, ?_, hearly, ?_⟩
  · rw [htrades, hpast, List.append_assoc]
    rfl
  · rw [htrades', hpast', List.append_assoc]
    rfl
  · intro tr htr
    rcases List.mem_append.mp htr with htr | htr <;> obtain htr | htr := List.mem_append.mp htr
    · exact hlate tr (List.mem_append_left _ htr)
    · exact hend.trans_lt (hlast tr htr)
    · exact hlate tr (List.mem_append_right _ htr)
    · exact hend'.trans_lt (hlast' tr htr)

/-- A lead that stays where it is, and one that comes down with the last quote. -/
theorem no_look_ahead_minute :
    (runImpl {} { pnlModel := .instant } 5 minuteLead minuteLag).trades.map Trade.fillTsMs =
        [120000, 180000, 180006] ∧
      ∃ past rest rest', (runImpl {} { pnlModel := .instant } 5 minuteLead minuteLag).trades = past ++ rest ∧
        (runImpl {} { pnlModel := .instant } 5
          (minuteLead ++ [{ tsMs := 180000, bid := 99, ask := 100, flags := 1 }]) minuteLag).trades =
            past ++ rest' ∧
        (∀ tr ∈ past, tr.fillTsMs ≤ 120000) ∧ ∀ tr ∈ rest ++ rest', 120000 < tr.fillTsMs := by
  constructor
  · decide +kernel
  · exact no_look_ahead {} { pnlModel := .instant } 5 120000 (by decide +kernel) (by decide +kernel)
      (by decide +kernel) (by decide +kernel) (by decide +kernel) (by decide +kernel) (by decide +kernel)
      (by decide +kernel) (by decide +kernel)

end Replay

end LatencyArb
