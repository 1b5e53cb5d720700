import LatencyArb.Backtest.Merge

/-!
# What the instant model can win

A round trip of the instant model is marked at the quote of its fill, so its P&L is the negative spread
of that quote less all charges. It wins exactly when the bid is above the ask by more than these.
-/

namespace LatencyArb

open Books

namespace Books

/-- What the winning trades won. -/
def winnings (trades : List Trade) : ℚ := (trades.map (fun tr => max 0 tr.pnl)).sum

lemma book_winnings {b : Books} (h : b.grossP = winnings b.trades) (tr : Trade) (comm : ℚ) :
    (b.book tr comm).grossP = winnings (b.book tr comm).trades := by
  have hsum : winnings (b.book tr comm).trades = b.grossP + max 0 tr.pnl := by
    simp [winnings, Books.book, h]
  rw [hsum]
  unfold Books.book
  dsimp only
  by_cases hwon : 0 ≤ tr.pnl
  · rw [if_pos hwon, max_eq_right hwon]
  · rw [if_neg hwon, max_eq_left (not_le.mp hwon).le, add_zero]

/-- The gross profit is what the winning trades won. -/
lemma Grown.winnings {capital : ℚ} {b : Books} (h : Grown (start capital) b) :
    b.grossP = Books.winnings b.trades := by
  induction h with
  | refl => rfl
  | tail _ hstep ih =>
    obtain ⟨tr, comm, rfl⟩ := hstep
    exact book_winnings ih tr comm

/-- Without a winning trade nothing is won. -/
lemma no_winnings {trades : List Trade} (h : ∀ tr ∈ trades, tr.pnl ≤ 0) : winnings trades = 0 := by
  apply List.sum_eq_zero
  intro x hx
  obtain ⟨tr, htr, rfl⟩ := List.mem_map.mp hx
  exact max_eq_left (h tr htr)

end Books

namespace Replay

variable (cfg : Config) (params : ExecutionParams) {delayMs : Int} {s : Replay}

/-- The P&L that a call of `handle_fill` books in the instant model. -/
def settled (call : Replay × Int) : List ℚ :=
  if call.1.settles params call.2 then [call.1.instantPnl] else []

/-- Nothing is held, and the simulator has the parameters of the run. -/
structure Flat (delayMs : Int) (s : Replay) : Prop where
  held : s.held = none
  params : s.sim.params = { params with delayMs := delayMs }

lemma Flat.same {s' : Replay} (h : s.Flat params delayMs) (hheader : s'.header = s.header)
    (hheld : s'.held = s.held) : s'.Flat params delayMs := by
  have hparams : s'.sim.params = s.sim.params := congrArg Header.params hheader
  exact ⟨hheld.trans h.held, hparams.trans h.params⟩

lemma handleFill_held (hmodel : params.pnlModel = .instant) (hnone : s.held = none) (nowMs : Int) :
    (s.handleFill params nowMs).held = none := by
  have hflat : s.ledger.held = false := by
    rw [ledger, hnone]
    rfl
  have hno : params.pnlModel ≠ .holdConvergence := by
    rw [hmodel]
    decide
  have hkept : (s.handleFill params nowMs).ledger.held = false := by
    obtain ⟨-, hsame⟩ | ⟨-, -, -, ⟨-, hl⟩ | ⟨-, hl⟩⟩ := s.handleFill_cases params nowMs
    · rw [hsame, hflat]
    · rw [hl, Ledger.reject, hflat]
    · rw [hl, if_neg hno, Ledger.settle, hflat]
  exact Option.not_isSome_iff_eq_none.mp (by simpa [ledger] using hkept)

/-- A call of `handle_fill` adds its trade to the trades, if it books one. -/
lemma handleFill_settled (hmodel : params.pnlModel = .instant) (h : s.Flat params delayMs)
    (nowMs : Int) : (s.handleFill params nowMs).Flat params delayMs ∧
      (s.handleFill params nowMs).out.trades.map Trade.pnl =
        s.out.trades.map Trade.pnl ++ settled params (s, nowMs) := by
  have hheader := s.handleFill_header params nowMs
  have hheld := handleFill_held params hmodel h.held nowMs
  refine ⟨h.same params hheader (hheld.trans h.held.symm), ?_⟩
  unfold settled
  obtain ⟨hno, hsame, -⟩ | ⟨hyes, -, tr, hbook, hpnl⟩ := s.handleFill_books params nowMs
  · have htrades : (s.handleFill params nowMs).out.trades = s.out.trades := congrArg Books.trades hsame
    rw [htrades, hno]
    simp
  · have htrades : (s.handleFill params nowMs).out.trades =
        s.out.trades ++ [{ tr with equityAfter := s.equity + tr.pnl }] := congrArg Books.trades hbook
    rw [htrades, hyes]
    simp [hpnl]

lemma closeOpen_flat (hnone : s.held = none) (nowMs : Int) (curLead curBid curAsk : ℚ) (force : Bool) :
    s.closeOpen params nowMs curLead curBid curAsk force = s := by
  unfold closeOpen
  rw [hnone]

/-- The step lemma of the trades. -/
lemma next_settled (hmodel : params.pnlModel = .instant) (s t : Replay) (h : s.Flat params delayMs)
    (hs : next cfg params s = some t) : t.Flat params delayMs ∧
      t.out.trades.map Trade.pnl =
        s.out.trades.map Trade.pnl ++ s.fillCall.toList.flatMap (settled params) := by
  unfold fillCall
  obtain ⟨tick, taken, hp, rfl⟩ | ⟨tick, taken, hp, rfl⟩ := next_cases cfg params hs
  · obtain ⟨hbooks, -, hheld⟩ := pick_books hp
    obtain ⟨hsame, hkept⟩ := taken.leadTick_books tick
    have hparams : (taken.leadTick tick).sim.params = s.sim.params :=
      (congrArg Header.params (taken.leadTick_same tick).2).trans
        (congrArg Header.params (pick_spec hp).2.1)
    have htrades : (taken.leadTick tick).out.trades = s.out.trades :=
      congrArg Books.trades (hsame.trans hbooks)
    refine ⟨⟨hkept.trans (hheld.trans h.held), hparams.trans h.params⟩, ?_⟩
    rw [htrades, hp]
    simp
  · obtain ⟨hbooks, -, hheld⟩ := pick_books hp
    have htrades : taken.out.trades = s.out.trades := congrArg Books.trades hbooks
    have hparams : taken.sim.params = s.sim.params := congrArg Header.params (pick_spec hp).2.1
    have htaken : taken.Flat params delayMs := ⟨hheld.trans h.held, hparams.trans h.params⟩
    rw [hp, ← htrades]
    unfold lagTick
    dsimp only
    by_cases hvalid : tick.isValid = true
    · have hquoted : (taken.quoted tick).Flat params delayMs := htaken.same params rfl rfl
      obtain ⟨hfilled, hlog⟩ := handleFill_settled params hmodel hquoted tick.tsMs
      set filled := (taken.quoted tick).handleFill params tick.tsMs
      have hridden : filled.ride params tick.tsMs = filled := by
        unfold ride
        rw [closeOpen_flat params hfilled.held, ite_self]
      obtain ⟨hkept, hkept'⟩ := filled.evaluateQuote_books cfg tick.tsMs
      have hlast : (filled.evaluateQuote cfg tick.tsMs).out.trades = filled.out.trades :=
        congrArg Books.trades hkept
      have hheader := (filled.evaluateQuote_cases cfg tick.tsMs).1
      rw [if_neg (by simp [hvalid]), hridden, if_pos hvalid]
      refine ⟨(hfilled.same params hheader hkept').same params rfl rfl, ?_⟩
      change (filled.evaluateQuote cfg tick.tsMs).out.trades.map Trade.pnl = _
      rw [hlast, hlog, Option.toList_some, List.flatMap_singleton]
      rfl
    · rw [if_pos (by simpa using hvalid), if_neg hvalid]
      exact ⟨htaken, by simp⟩

/-- Nothing is ever held in the instant model. -/
lemma replayed_flat (hmodel : params.pnlModel = .instant) (delayMs : Int) (lead lag : List BinaryTick) :
    (replayed cfg params delayMs lead lag).Flat params delayMs ∧
      ∀ s ∈ Loop.visits (next cfg params) (lead.length + lag.length) (start params delayMs lead lag),
        s.Flat params delayMs :=
  Loop.run_invariant (fun s t h hs => (next_settled cfg params hmodel s t h hs).1) ⟨rfl, rfl⟩ _

/-- The trades of a run of the instant model are the round trips that its calls of `handle_fill` book. -/
theorem instant_pnls (hmodel : params.pnlModel = .instant) (delayMs : Int) (lead lag : List BinaryTick) :
    (runImpl cfg params delayMs lead lag).trades.map Trade.pnl =
      (fillCalls cfg params delayMs lead lag).flatMap (settled params) := by
  unfold runImpl fillCalls
  by_cases hempty : lead = [] ∨ lag = []
  · rw [if_pos hempty, if_pos hempty]
    rfl
  rw [if_neg hempty, if_neg hempty]
  have hstart : (start params delayMs lead lag).Flat params delayMs := ⟨rfl, rfl⟩
  have hlog := Loop.run_log (fun s : Replay => s.out.trades.map Trade.pnl)
    (fun s => s.fillCall.toList.flatMap (settled params)) (next_settled cfg params hmodel) hstart
    (lead.length + lag.length)
  have hflat := (replayed_flat cfg params hmodel delayMs lead lag).1
  obtain ⟨hdrained, hdrain⟩ := handleFill_settled params hmodel hflat
    (replayed cfg params delayMs lead lag).drainMs
  have hclosed : ∀ u : Replay, u.held = none → ∀ nowMs, u.forceClose params nowMs = u := by
    intro u hu nowMs
    unfold forceClose
    rw [hu]
  have hcalls : ((Loop.visits (next cfg params) (lead.length + lag.length)
      (start params delayMs lead lag)).filterMap fillCall).flatMap (settled params) =
        (replayed cfg params delayMs lead lag).out.trades.map Trade.pnl := by
    rw [List.filterMap_eq_flatMap_toList, List.flatMap_assoc]
    exact hlog.symm
  dsimp only
  rw [hclosed _ hdrained.held, List.flatMap_append, hcalls, List.flatMap_singleton]
  exact hdrain

/-- The charges of a call are those of the run. -/
lemma fillCalls_pnl (hmodel : params.pnlModel = .instant) {delayMs : Int} {lead lag : List BinaryTick}
    {call : Replay × Int} (h : call ∈ fillCalls cfg params delayMs lead lag) :
    call.1.instantPnl = call.1.lagBid - call.1.lagAsk -
      (params.spreadMarkupPts + params.slippagePts) - params.commissionPerLot * params.quantity := by
  have hparams : call.1.sim.params = { params with delayMs := delayMs } := by
    obtain ⟨hfinal, hall⟩ := replayed_flat cfg params hmodel delayMs lead lag
    unfold fillCalls at h
    split at h
    · cases h
    obtain h | h := List.mem_append.mp h
    · obtain ⟨s, hs, hcall⟩ := List.mem_filterMap.mp h
      unfold fillCall at hcall
      split at hcall
      · rename_i t taken hp
        split at hcall <;> cases hcall
        exact (congrArg Header.params (pick_spec hp).2.1).trans (hall s hs).params
      · cases hcall
    · obtain rfl := List.mem_singleton.mp h
      exact hfinal.params
  rw [instantPnl, instantGain, charge, hparams]

/-- The gross profit of a replay, in both P&L models. -/
lemma grossProfit_eq (delayMs : Int) (lead lag : List BinaryTick) :
    (runImpl cfg params delayMs lead lag).grossProfit =
      winnings (runImpl cfg params delayMs lead lag).trades := by
  unfold runImpl
  by_cases hempty : lead = [] ∨ lag = []
  · rw [if_pos hempty]
    rfl
  · rw [if_neg hempty]
    exact (ended_grown cfg params delayMs lead lag).winnings

lemma mem_settled {call : Replay × Int} {x : ℚ} :
    x ∈ settled params call ↔ call.1.settles params call.2 = true ∧ x = call.1.instantPnl := by
  unfold settled
  by_cases hyes : call.1.settles params call.2 = true
  · simp [hyes]
  · simp [hyes]

/-- In the instant model no trade wins, nothing is gained and the gross profit is 0 exactly when every
order is filled at a quote whose bid is above its ask by no more than the charges. -/
theorem instant_never_wins_iff (hmodel : params.pnlModel = .instant) (delayMs : Int)
    (lead lag : List BinaryTick) :
    ((∀ tr ∈ (runImpl cfg params delayMs lead lag).trades, tr.pnl ≤ 0) ∧
        (runImpl cfg params delayMs lead lag).totalPnl ≤ 0 ∧
        (runImpl cfg params delayMs lead lag).grossProfit = 0) ↔
      ∀ call ∈ fillCalls cfg params delayMs lead lag, call.1.settles params call.2 = true →
        call.1.lagBid - call.1.lagAsk ≤
          params.spreadMarkupPts + params.slippagePts + params.commissionPerLot * params.quantity := by
  have htrades : (∀ tr ∈ (runImpl cfg params delayMs lead lag).trades, tr.pnl ≤ 0) ↔
      ∀ x ∈ (fillCalls cfg params delayMs lead lag).flatMap (settled params), x ≤ 0 := by
    rw [← instant_pnls cfg params hmodel, List.forall_mem_map]
  constructor
  · rintro ⟨hlost, -⟩ call hcall hyes
    have hpnl := fillCalls_pnl cfg params hmodel hcall
    have hle := htrades.mp hlost call.1.instantPnl
      (List.mem_flatMap.mpr ⟨call, hcall, (mem_settled params).mpr ⟨hyes, rfl⟩⟩)
    linarith
  · intro hspread
    have hlost : ∀ tr ∈ (runImpl cfg params delayMs lead lag).trades, tr.pnl ≤ 0 := by
      apply htrades.mpr
      intro x hx
      obtain ⟨call, hcall, hx⟩ := List.mem_flatMap.mp hx
      obtain ⟨hyes, rfl⟩ := (mem_settled params).mp hx
      have hpnl := fillCalls_pnl cfg params hmodel hcall
      have hle := hspread call hcall hyes
      linarith
    have hprofit : (runImpl cfg params delayMs lead lag).grossProfit = 0 :=
      (grossProfit_eq cfg params delayMs lead lag).trans (no_winnings hlost)
    obtain ⟨-, -, -, htotal, -, hloss, -⟩ := result_identities cfg params delayMs lead lag
    refine ⟨hlost, ?_, hprofit⟩
    linarith

theorem instant_never_wins_minute :
    (runImpl {} { pnlModel := .instant } 5 minuteLead minuteLag).grossProfit = 0 :=
  ((instant_never_wins_iff {} { pnlModel := .instant } rfl 5 minuteLead minuteLag).mpr
    (by decide +kernel)).2.2

/-- A lag quote of 99/100 that is crossed a minute later. -/
def crossedLag : List BinaryTick :=
  [{ tsMs := 60000, bid := 99, ask := 100, flags := 1 },
   { tsMs := 120000, bid := 101, ask := 100, flags := 1 }]

/-- The order is accepted at a sound quote and filled at a crossed one. -/
theorem crossed_quote_wins :
    ((runImpl {} { pnlModel := .instant } 5 minuteLead crossedLag).trades.map Trade.pnl,
      (runImpl {} { pnlModel := .instant } 5 minuteLead crossedLag).totalPnl,
      (runImpl {} { pnlModel := .instant } 5 minuteLead crossedLag).grossProfit) = ([1], 1, 1) := by
  decide +kernel

/-! ## Uncrossed quotes -/

/-- Neither the quote in use nor a valid one to come is crossed. -/
structure Uncrossed (s : Replay) : Prop where
  quote : s.lagBid ≤ s.lagAsk
  lag : ∀ t ∈ s.lag, t.isValid = true → t.bid ≤ t.ask

/-- The quote changes at valid lag ticks only. -/
lemma next_uncrossed (s t : Replay) (h : s.Uncrossed) (hs : next cfg params s = some t) :
    t.Uncrossed := by
  obtain ⟨tick, taken, hp, rfl⟩ | ⟨tick, taken, hp, rfl⟩ := next_cases cfg params hs
  · have hfeeds := pick_feeds hp
    have hbid : taken.lagBid = s.lagBid := congrArg Feeds.lagBid hfeeds
    have hask : taken.lagAsk = s.lagAsk := congrArg Feeds.lagAsk hfeeds
    obtain ⟨htbid, htask, -⟩ := taken.leadTick_quotes tick
    have hlag : (taken.leadTick tick).lag = taken.lag :=
      congrArg Header.lag (taken.leadTick_same tick).2
    refine ⟨?_, fun u hu => h.lag u ((pick_spec hp).2.2.1 (hlag ▸ hu))⟩
    rw [htbid, htask, hbid, hask]
    exact h.quote
  · have hfeeds := taken.lagTick_feeds cfg params tick
    have hbid := congrArg Feeds.lagBid hfeeds
    have hask := congrArg Feeds.lagAsk hfeeds
    have hlag : (taken.lagTick cfg params tick).lag = taken.lag :=
      congrArg Header.lag (taken.lagTick_header cfg params tick)
    refine ⟨?_, fun u hu => h.lag u ((pick_spec hp).2.2.1 (hlag ▸ hu))⟩
    change (taken.lagTick cfg params tick).feeds.lagBid ≤ (taken.lagTick cfg params tick).feeds.lagAsk
    rw [hbid, hask]
    by_cases hvalid : tick.isValid = true
    · rw [if_pos hvalid]
      exact h.lag tick ((pick_spec hp).2.2.2.1 rfl) hvalid
    · rw [if_neg hvalid, pick_feeds hp]
      exact h.quote

lemma fillCalls_uncrossed {delayMs : Int} {lead lag : List BinaryTick}
    (hlag : ∀ t ∈ lag, t.isValid = true → t.bid ≤ t.ask) {call : Replay × Int}
    (h : call ∈ fillCalls cfg params delayMs lead lag) : call.1.lagBid ≤ call.1.lagAsk := by
  obtain ⟨hfinal, hall⟩ := Loop.run_invariant (next_uncrossed cfg params)
    (s := start params delayMs lead lag) ⟨le_rfl, hlag⟩ (lead.length + lag.length)
  unfold fillCalls at h
  split at h
  · cases h
  obtain h | h := List.mem_append.mp h
  · obtain ⟨s, hs, hcall⟩ := List.mem_filterMap.mp h
    unfold fillCall at hcall
    split at hcall
    · rename_i t taken hp
      split at hcall
      · rename_i hvalid
        cases hcall
        exact (hall s hs).lag t ((pick_spec hp).2.2.2.1 rfl) hvalid
      · cases hcall
    · cases hcall
  · obtain rfl := List.mem_singleton.mp h
    exact hfinal.quote

/-- As long as no valid quote of the lag is crossed, the instant model wins nothing. -/
theorem uncrossed_never_wins (hmodel : params.pnlModel = .instant) (hmarkup : 0 ≤ params.spreadMarkupPts)
    (hslippage : 0 ≤ params.slippagePts) (hcommission : 0 ≤ params.commissionPerLot)
    (hquantity : 0 ≤ params.quantity) (delayMs : Int) (lead lag : List BinaryTick)
    (hlag : ∀ t ∈ lag, t.isValid = true → t.bid ≤ t.ask) :
    (∀ tr ∈ (runImpl cfg params delayMs lead lag).trades, tr.pnl ≤ 0) ∧
      (runImpl cfg params delayMs lead lag).totalPnl ≤ 0 ∧
      (runImpl cfg params delayMs lead lag).grossProfit = 0 := by
  apply (instant_never_wins_iff cfg params hmodel delayMs lead lag).mpr
  intro call hcall _
  have hspread := fillCalls_uncrossed cfg params hlag hcall
  have hcharge := mul_nonneg hcommission hquantity
  linarith

end Replay

end LatencyArb
