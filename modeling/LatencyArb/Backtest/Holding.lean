import LatencyArb.Backtest.EntryQuotes
import LatencyArb.Backtest.Quantity

/-!
# How long a position is held (`close_open` in `run_impl`)

A held position rides the lag feed until it has converged or its time is up, and what is still held after
both streams is closed by force. The loop tries to close a position right after it was opened, at the very
tick that opened it.
-/

namespace LatencyArb

namespace Replay

variable (cfg : Config) (params : ExecutionParams)

/-! ## Openings and closes -/

/-- The position that a filled order becomes. -/
def positionOf (f : Fill) : OpenPosition :=
  { side := f.side, sigTs := f.signalTsMs, fillTs := f.fillTsMs, price := f.fillPrice
    comm := f.commission, mark := f.signalMark }

/-- What a call of `handle_fill` opens at lag tick `j`. -/
def openingAt (j : Nat) (call : Replay × Int) : Option (Nat × Fill) :=
  ((fillOf call).filter Fill.filled).map (fun f => (j, f))

/-- A close: its lag tick (the number of lag ticks if it is after both streams), the position, and the
quote it is closed at. -/
structure Close where
  tick : Nat
  position : OpenPosition
  bid : ℚ
  ask : ℚ
  deriving DecidableEq

/-- What a closing call closes at lag tick `k`. -/
def Closing.close (k : Nat) : Closing → Option Close
  | .fill _ _ => none
  | .ride s nowMs =>
    if s.converges params nowMs then s.held.map (fun p => ⟨k, p, s.lagBid, s.lagAsk⟩) else none
  | .force s _ => s.held.map (fun p => ⟨k, p, (s.forceQuote p).1, (s.forceQuote p).2⟩)

/-- The openings, at one of so many lag ticks each, from this state on. -/
def openingsFrom (lagCount fuel : Nat) (s : Replay) : List (Nat × Fill) :=
  (Loop.visits (next cfg params) fuel s).filterMap
    (fun s => s.fillCall.bind (openingAt (lagCount - s.lag.length)))

def closesFrom (lagCount fuel : Nat) (s : Replay) : List Close :=
  (Loop.visits (next cfg params) fuel s).flatMap
    (fun s => (s.closings params).filterMap (Closing.close params (lagCount - s.lag.length)))

/-- The positions that a run opens, in order: the lag tick (the number of lag ticks if it is after both
streams) and the fill. -/
def openings (delayMs : Int) (lead lag : List BinaryTick) : List (Nat × Fill) :=
  if lead = [] ∨ lag = [] then []
  else
    let s := replayed cfg params delayMs lead lag
    openingsFrom cfg params lag.length (lead.length + lag.length) (start params delayMs lead lag) ++
      (openingAt lag.length (s, s.drainMs)).toList

/-- The closes of a run, in order. -/
def closes (delayMs : Int) (lead lag : List BinaryTick) : List Close :=
  if lead = [] ∨ lag = [] then []
  else
    let s := replayed cfg params delayMs lead lag
    closesFrom cfg params lag.length (lead.length + lag.length) (start params delayMs lead lag) ++
      (Closing.close params lag.length (.force (s.handleFill params s.drainMs) (s.drainMs + 1))).toList

/-! ## The reported trades -/

/-- What a trade says about its position and its P&L. -/
def tradeTerms (tr : Trade) : Int × Side × ℚ × ℚ × ℚ :=
  (tr.signalTsMs, tr.side, tr.signalMark, tr.fillPrice, tr.pnl)

def Close.terms (c : Close) : Int × Side × ℚ × ℚ × ℚ :=
  (c.position.sigTs, c.position.side, c.position.mark, c.position.price,
    Replay.priceGain params c.position c.bid c.ask - c.position.comm)

lemma close_force (k : Nat) (s : Replay) (nowMs : Int) : Closing.close params k (.force s nowMs) =
    s.held.map (fun p => ⟨k, p, (s.forceQuote p).1, (s.forceQuote p).2⟩) := rfl

lemma closed_terms (s : Replay) (p : OpenPosition) (nowMs : Int) (curBid curAsk : ℚ) (k : Nat) :
    (s.closed params p nowMs curBid curAsk).out.trades.map tradeTerms =
      s.out.trades.map tradeTerms ++ [Close.terms params ⟨k, p, curBid, curAsk⟩] := by
  have htrades := s.bookTrade_trades { signalTsMs := p.sigTs, fillTsMs := nowMs, side := p.side
                                       signalMark := p.mark, fillPrice := p.price
                                       pnl := priceGain params p curBid curAsk - p.comm } p.comm
  have hclosed : (s.closed params p nowMs curBid curAsk).out.trades =
      (s.bookTrade { signalTsMs := p.sigTs, fillTsMs := nowMs, side := p.side, signalMark := p.mark
                     fillPrice := p.price
                     pnl := priceGain params p curBid curAsk - p.comm } p.comm).out.trades := rfl
  rw [hclosed, htrades, List.map_append]
  rfl

/-- A closing call reports its close. -/
lemma Closing.reports (hmodel : params.pnlModel = .holdConvergence) (call : Closing) (k : Nat) :
    (call.result params).out.trades.map tradeTerms =
      call.state.out.trades.map tradeTerms ++ ((call.close params k).map (Close.terms params)).toList := by
  cases call with
  | fill s nowMs =>
    have hopen : s.settles params nowMs = false := by simp [settles, hmodel]
    obtain ⟨-, hsame, -⟩ | ⟨hyes, -⟩ := s.handleFill_books params nowMs
    · have htrades : (s.handleFill params nowMs).out.trades = s.out.trades := congrArg Books.trades hsame
      simp [Closing.result, Closing.state, Closing.close, htrades]
    · rw [hopen] at hyes
      cases hyes
  | ride s nowMs =>
    change (s.ride params nowMs).out.trades.map tradeTerms = s.out.trades.map tradeTerms ++
      ((if s.converges params nowMs then s.held.map (fun p => ⟨k, p, s.lagBid, s.lagAsk⟩)
        else none).map (Close.terms params)).toList
    unfold Replay.ride converges
    cases hh : s.held with
    | none => simp [hmodel]
    | some p =>
      rw [if_pos (.inl rfl), closeOpen_eq params hh, Option.any_some]
      by_cases hclose : mustClose params p nowMs s.leadMid s.lagBid s.lagAsk false = true
      · rw [if_pos hclose, if_pos hclose]
        exact closed_terms params s p nowMs s.lagBid s.lagAsk k
      · rw [if_neg hclose, if_neg hclose]
        simp
  | force s nowMs =>
    change (s.forceClose params nowMs).out.trades.map tradeTerms = s.out.trades.map tradeTerms ++
      ((s.held.map (fun p => ⟨k, p, (s.forceQuote p).1, (s.forceQuote p).2⟩)).map
        (Close.terms params)).toList
    cases hh : s.held with
    | none =>
      have hidle : s.forceClose params nowMs = s := by
        unfold forceClose
        rw [hh]
      rw [hidle]
      simp
    | some p =>
      have hheld : ({ s with lastBid := (s.forceQuote p).1, lastAsk := (s.forceQuote p).2 } : Replay).held =
          some p := hh
      have hforce : mustClose params p nowMs s.lastLead (s.forceQuote p).1 (s.forceQuote p).2 true = true :=
        rfl
      rw [forceClose_eq params hh, closeOpen_eq params hheld, if_pos hforce]
      exact closed_terms params { s with lastBid := (s.forceQuote p).1, lastAsk := (s.forceQuote p).2 } p
        nowMs (s.forceQuote p).1 (s.forceQuote p).2 k

/-- Of the two calls at a valid lag tick only the second one can close a position. -/
lemma closings_close {s s' : Replay} {u : BinaryTick} (hp : s.pick = some (.lag, u, s'))
    (hvalid : u.isValid = true) (k : Nat) :
    (s.closings params).filterMap (Closing.close params k) =
      (Closing.close params k (.ride ((s'.quoted u).handleFill params u.tsMs) u.tsMs)).toList := by
  have htwo : s.closings params = [Closing.fill (s'.quoted u) u.tsMs,
      .ride ((s'.quoted u).handleFill params u.tsMs) u.tsMs] := by
    unfold closings
    rw [hp]
    exact if_pos hvalid
  have hfill : Closing.close params k (.fill (s'.quoted u) u.tsMs) = none := rfl
  rw [htwo, List.filterMap_cons_none hfill]
  cases hride : Closing.close params k (.ride ((s'.quoted u).handleFill params u.tsMs) u.tsMs) <;>
    simp [hride]

/-- An iteration reports the closes of its calls. -/
lemma next_reports (hmodel : params.pnlModel = .holdConvergence) {s t : Replay}
    (hs : next cfg params s = some t) (k : Nat) : t.out.trades.map tradeTerms =
      s.out.trades.map tradeTerms ++
        ((s.closings params).filterMap (Closing.close params k)).map (Close.terms params) := by
  obtain ⟨tick, s', hp, rfl⟩ | ⟨tick, s', hp, rfl⟩ := next_cases cfg params hs
  · have htrades : (s'.leadTick tick).out.trades = s.out.trades :=
      congrArg Books.trades ((s'.leadTick_books tick).1.trans (pick_books hp).1)
    unfold closings
    rw [htrades, hp]
    simp
  · have htrades : s'.out.trades = s.out.trades := congrArg Books.trades (pick_books hp).1
    rw [← htrades]
    by_cases hvalid : tick.isValid = true
    · have hfill : ((s'.quoted tick).handleFill params tick.tsMs).out.trades.map tradeTerms =
          s'.out.trades.map tradeTerms := by
        rw [← List.append_nil (s'.out.trades.map tradeTerms)]
        exact Closing.reports params hmodel (.fill (s'.quoted tick) tick.tsMs) k
      have hride : (ridden params s' tick).out.trades.map tradeTerms =
          ((s'.quoted tick).handleFill params tick.tsMs).out.trades.map tradeTerms ++
            ((Closing.close params k (.ride ((s'.quoted tick).handleFill params tick.tsMs) tick.tsMs)).map
              (Close.terms params)).toList :=
        Closing.reports params hmodel (.ride ((s'.quoted tick).handleFill params tick.tsMs) tick.tsMs) k
      have hlast : (s'.lagTick cfg params tick).out.trades = (ridden params s' tick).out.trades := by
        rw [lagTick, if_neg (by simp [hvalid])]
        exact congrArg Books.trades (evaluateQuote_books cfg (ridden params s' tick) tick.tsMs).1
      rw [closings_close params hp hvalid, hlast, hride, hfill, Option.toList_map]
    · have hno : s.closings params = [] := by
        unfold closings
        rw [hp]
        exact if_neg hvalid
      rw [hno, lagTick, if_pos (by simpa using hvalid)]
      simp

/-- The trades of a result are the closes of the run, each with the P&L of its two prices less the
commission. -/
theorem trades_report_closes (hmodel : params.pnlModel = .holdConvergence) (delayMs : Int)
    (lead lag : List BinaryTick) :
    (runImpl cfg params delayMs lead lag).trades.map tradeTerms =
      (closes cfg params delayMs lead lag).map (Close.terms params) := by
  unfold runImpl closes
  by_cases hempty : lead = [] ∨ lag = []
  · rw [if_pos hempty, if_pos hempty]
    rfl
  rw [if_neg hempty, if_neg hempty]
  have hlog := Loop.run_log (I := fun _ : Replay => True) (fun s : Replay => s.out.trades.map tradeTerms)
    (fun s => ((s.closings params).filterMap
      (Closing.close params (lag.length - s.lag.length))).map (Close.terms params))
    (fun s t _ hs => ⟨trivial, next_reports cfg params hmodel hs _⟩) trivial (lead.length + lag.length)
    (s := start params delayMs lead lag)
  have hrun : (replayed cfg params delayMs lead lag).out.trades.map tradeTerms =
      (closesFrom cfg params lag.length (lead.length + lag.length) (start params delayMs lead lag)).map
        (Close.terms params) := by
    rw [closesFrom, List.map_flatMap]
    exact hlog
  dsimp only
  set r := replayed cfg params delayMs lead lag
  have hdrain : (r.handleFill params r.drainMs).out.trades.map tradeTerms = r.out.trades.map tradeTerms := by
    rw [← List.append_nil (r.out.trades.map tradeTerms)]
    exact Closing.reports params hmodel (.fill r r.drainMs) lag.length
  rw [List.map_append, ← hrun, ← hdrain, ← Option.toList_map]
  exact Closing.reports params hmodel (.force (r.handleFill params r.drainMs) (r.drainMs + 1)) lag.length

/-! ## The rule -/

variable (lead lag : List BinaryTick)

/-- The tick ends a hold that began at `fillTs`: the lag has converged to the lead, or the time is up. -/
def endsHold (fillTs : Int) (u : BinaryTick) : Bool :=
  u.isValid && (decide (|leadMidAt lead u.tsMs - u.mid| ≤ params.holdTolPts) ||
    decide (0 < params.holdMaxMs ∧ params.holdMaxMs ≤ u.tsMs - fillTs))

/-- The first lag tick from `j` on that ends the hold, else the number of lag ticks. -/
def closeTick (fillTs : Int) (j : Nat) : Nat :=
  min lag.length (j + (lag.drop j).findIdx (endsHold params lead fillTs))

/-- The last valid lag quote. -/
def lastQuote : Option BinaryTick := (lag.filter BinaryTick.isValid).getLast?

/-- The close follows the documented rule: at the first later lag tick that ends the hold, at its quote, or
after both streams at the last valid quote. -/
structure ClosedByRule (o : Nat × Fill) (c : Close) : Prop where
  later : o.1 < lag.length → o.1 < c.tick
  tick : c.tick = closeTick params lead lag o.2.fillTsMs (o.1 + 1)
  position : c.position = positionOf o.2
  quote : ∃ q, lag[c.tick]?.or (lastQuote lag) = some q ∧ c.bid = q.bid ∧ c.ask = q.ask

/-- The close is what the loop makes of the opening: the tick that opened the position may close it, and a
last quote that is no price gives way to the price of the position. -/
structure ClosedByLoop (o : Nat × Fill) (c : Close) : Prop where
  opened : ∀ u, lag[o.1]? = some u → u.isValid = true ∧ o.2.fillTsMs = u.tsMs
  price : 0 < o.2.fillPrice
  tick : c.tick = closeTick params lead lag o.2.fillTsMs o.1
  position : c.position = positionOf o.2
  quote : ∃ q, lag[c.tick]?.or (lastQuote lag) = some q ∧ (c.bid, c.ask) =
    if c.tick = lag.length ∧ (q.bid ≤ 0 ∨ q.ask ≤ 0) then (o.2.fillPrice, o.2.fillPrice) else (q.bid, q.ask)

/-- The tick of the opening has not converged, and if no later one ends the hold, then the last valid quote
has two prices. -/
structure RidesOn (o : Nat × Fill) : Prop where
  apart : ∀ u, lag[o.1]? = some u → params.holdTolPts < |leadMidAt lead u.tsMs - u.mid|
  priced : closeTick params lead lag o.2.fillTsMs (o.1 + 1) = lag.length →
    ∀ q, lastQuote lag = some q → 0 < q.bid ∧ 0 < q.ask

variable {params lead lag}

lemma closeTick_none {j : Nat} (h : lag.length ≤ j) (fillTs : Int) :
    closeTick params lead lag fillTs j = lag.length := by
  unfold closeTick
  omega

/-- The tick `j` itself ends the hold, or it is left out. -/
lemma closeTick_at {j : Nat} {u : BinaryTick} (hu : lag[j]? = some u) (fillTs : Int) :
    closeTick params lead lag fillTs j =
      if endsHold params lead fillTs u then j else closeTick params lead lag fillTs (j + 1) := by
  obtain ⟨hj, rfl⟩ := List.getElem?_eq_some_iff.mp hu
  unfold closeTick
  rw [List.drop_eq_getElem_cons hj, List.findIdx_cons]
  cases endsHold params lead fillTs lag[j] with
  | true =>
    rw [if_pos rfl]
    simp only [cond_true]
    omega
  | false =>
    rw [if_neg Bool.false_ne_true]
    simp only [cond_false]
    omega

/-- At the tick of the fill no time has passed. -/
lemma endsHold_opened {u : BinaryTick} (hvalid : u.isValid = true) :
    endsHold params lead u.tsMs u = true ↔ |leadMidAt lead u.tsMs - u.mid| ≤ params.holdTolPts := by
  simp [endsHold, hvalid]

lemma closeTick_gt {j : Nat} (h : j < lag.length) (fillTs : Int) :
    j < closeTick params lead lag fillTs (j + 1) := by
  unfold closeTick
  omega

/-- The quote after both streams. -/
lemma quote_at_end (lag : List BinaryTick) : lag[lag.length]?.or (lastQuote lag) = lastQuote lag := by
  rw [List.getElem?_eq_none le_rfl, Option.none_or]

lemma ridesOn_of_rule {o : Nat × Fill} {c : Close} (h : ClosedByLoop params lead lag o c)
    (hrule : ClosedByRule params lead lag o c) : RidesOn params lead lag o := by
  constructor
  · intro u hu
    obtain ⟨hvalid, hfill⟩ := h.opened u hu
    by_contra hnear
    have hends : endsHold params lead o.2.fillTsMs u = true :=
      hfill ▸ (endsHold_opened hvalid).mpr (not_lt.mp hnear)
    have htick := h.tick
    rw [closeTick_at hu, if_pos hends] at htick
    have hlater := hrule.later (List.getElem?_eq_some_iff.mp hu).1
    omega
  · intro hend q hq
    have htick : c.tick = lag.length := hrule.tick.trans hend
    obtain ⟨q', hq', hbid, hask⟩ := hrule.quote
    obtain ⟨q'', hq'', hquote⟩ := h.quote
    rw [htick, quote_at_end, hq] at hq' hq''
    obtain rfl := Option.some.inj hq'
    obtain rfl := Option.some.inj hq''
    by_contra hpriceless
    have hno : q.bid ≤ 0 ∨ q.ask ≤ 0 := by
      rwa [not_and_or, not_lt, not_lt] at hpriceless
    rw [if_pos ⟨htick, hno⟩, Prod.mk.injEq] at hquote
    have hprice := h.price
    apply hpriceless
    rw [← hbid, ← hask, hquote.1, hquote.2]
    exact ⟨hprice, hprice⟩

lemma closedByRule_of_ridesOn {o : Nat × Fill} {c : Close} (h : ClosedByLoop params lead lag o c)
    (hrides : RidesOn params lead lag o) : ClosedByRule params lead lag o c := by
  have htick : c.tick = closeTick params lead lag o.2.fillTsMs (o.1 + 1) := by
    rw [h.tick]
    cases hu : lag[o.1]? with
    | none =>
      have hend := List.getElem?_eq_none_iff.mp hu
      rw [closeTick_none hend, closeTick_none (hend.trans (Nat.le_succ _))]
    | some u =>
      obtain ⟨hvalid, hfill⟩ := h.opened u hu
      have hfar : ¬endsHold params lead o.2.fillTsMs u = true := by
        rw [hfill, endsHold_opened hvalid, not_le]
        exact hrides.apart u hu
      rw [closeTick_at hu, if_neg hfar]
  refine ⟨fun hj => htick ▸ closeTick_gt hj _, htick, h.position, ?_⟩
  obtain ⟨q, hq, hquote⟩ := h.quote
  refine ⟨q, hq, ?_⟩
  have hpriced : ¬(c.tick = lag.length ∧ (q.bid ≤ 0 ∨ q.ask ≤ 0)) := by
    rintro ⟨hend, hno⟩
    rw [hend, quote_at_end] at hq
    obtain ⟨hbid, hask⟩ := hrides.priced (htick ▸ hend) q hq
    obtain hno | hno := hno
    · exact absurd hbid (not_lt.mpr hno)
    · exact absurd hask (not_lt.mpr hno)
  rw [if_neg hpriced, Prod.mk.injEq] at hquote
  exact hquote

/-- Pairs that are related in one way are related in another one exactly when all left sides allow it. -/
lemma forall₂_iff_of_iff {α β : Type} {R Q : α → β → Prop} {P : α → Prop}
    (hiff : ∀ x y, R x y → (Q x y ↔ P x)) {xs : List α} {ys : List β} (h : List.Forall₂ R xs ys) :
    List.Forall₂ Q xs ys ↔ ∀ x ∈ xs, P x := by
  induction h with
  | nil => simp
  | cons hr _ ih => rw [List.forall₂_cons, List.forall_mem_cons, hiff _ _ hr, ih]

/-! ## Where the hold stands -/

/-- The position of the fill is held since lag tick `j`, and no tick seen since then ended the hold. -/
structure HeldSince (params : ExecutionParams) (lead lag seen : List BinaryTick) (o : Nat × Fill)
    (held : Option OpenPosition) : Prop where
  held : held = some (positionOf o.2)
  price : 0 < o.2.fillPrice
  since : o.1 ≤ seen.length
  opened : ∀ u, lag[o.1]? = some u → u.isValid = true ∧ o.2.fillTsMs = u.tsMs
  quoted : (lastQuote lag).isSome = true
  rides : ∀ u ∈ seen.drop o.1, endsHold params lead o.2.fillTsMs u = false

/-- What is held, if anything. -/
def HeldAt (params : ExecutionParams) (lead lag seen : List BinaryTick) (held : Option OpenPosition) :
    Option (Nat × Fill) → Prop
  | none => held = none
  | some o => HeldSince params lead lag seen o held

variable {seen : List BinaryTick} {held : Option OpenPosition}

lemma HeldSince.wait {o : Nat × Fill} (h : HeldSince params lead lag seen o held) {more : List BinaryTick}
    (hmore : ∀ u ∈ more, endsHold params lead o.2.fillTsMs u = false) :
    HeldSince params lead lag (seen ++ more) o held := by
  refine ⟨h.held, h.price, ?_, h.opened, h.quoted, ?_⟩
  · rw [List.length_append]
    exact h.since.trans (Nat.le_add_right _ _)
  · rw [List.drop_append_of_le_length h.since]
    exact List.forall_mem_append.mpr ⟨h.rides, hmore⟩

lemma HeldAt.wait {o : Option (Nat × Fill)} (h : HeldAt params lead lag seen held o)
    {more : List BinaryTick} (hmore : ∀ u ∈ more, u.isValid = false) :
    HeldAt params lead lag (seen ++ more) held o := by
  cases o with
  | none => exact h
  | some o =>
    apply HeldSince.wait h
    intro u hu
    simp [endsHold, hmore u hu]

lemma HeldAt.eq_none {o : Option (Nat × Fill)} (h : HeldAt params lead lag seen held o)
    (hnone : held = none) : o = none := by
  cases o with
  | none => rfl
  | some x =>
    have hbusy := h.held
    rw [hnone] at hbusy
    cases hbusy

/-- The first tick that ends the hold is the one that closes the position. -/
lemma HeldSince.closeTick_eq {o : Nat × Fill} {rest : List BinaryTick} {u : BinaryTick}
    (h : HeldSince params lead (seen ++ u :: rest) seen o held)
    (hends : endsHold params lead o.2.fillTsMs u = true) :
    closeTick params lead (seen ++ u :: rest) o.2.fillTsMs o.1 = seen.length := by
  have hsince := h.since
  have hnone := List.findIdx_eq_length.mpr h.rides
  unfold closeTick
  rw [List.drop_append_of_le_length hsince, List.findIdx_append, hnone, if_neg (lt_irrefl _),
    List.findIdx_cons, hends, List.length_append, List.length_drop]
  simp only [cond_true]
  omega

/-- A hold that no tick ended lasts until both streams are consumed. -/
lemma HeldSince.closeTick_end {o : Nat × Fill} (h : HeldSince params lead lag lag o held) :
    closeTick params lead lag o.2.fillTsMs o.1 = lag.length := by
  have hsince := h.since
  have hnone := List.findIdx_eq_length.mpr h.rides
  unfold closeTick
  rw [hnone, List.length_drop]
  omega

/-! ## The calls -/

variable {s : Replay} {nowMs : Int} {delayMs : Int}

/-- A call of `handle_fill` opens a position where none is held, or changes nothing about it. -/
lemma handleFill_opens (hmodel : params.pnlModel = .holdConvergence)
    (hsingle : s.overwrites params nowMs = false) (j : Nat) :
    (openingAt j (s, nowMs) = none ∧ (s.handleFill params nowMs).held = s.held) ∨
      ∃ f, openingAt j (s, nowMs) = some (j, f) ∧ s.held = none ∧
        (s.handleFill params nowMs).held = some (positionOf f) ∧ f.fillTsMs = nowMs ∧
        0 < f.fillPrice := by
  unfold openingAt fillOf
  obtain ⟨hd, heq⟩ | ⟨order, f, hd, hfill, ⟨hr, hno, heq⟩ | ⟨hr, hyes, heq⟩⟩ :=
    s.handleFill_spec params nowMs
  · rw [heq, ExecutionSimulator.atFill_of_not_due hd]
    exact .inl ⟨rfl, rfl⟩
  · rw [heq, hfill]
    exact .inl ⟨by simp [hno], rfl⟩
  · have hnone : s.held = none := by
      simpa [overwrites, hmodel, hd, hr] using hsingle
    obtain ⟨-, -, -, -, hprice, hnow⟩ := ExecutionSimulator.atFill_filled hfill hyes
    rw [heq, hfill, if_pos hmodel]
    exact .inr ⟨f, by simp [hyes], hnone, rfl, hnow, hprice⟩

/-- A held position is closed at the quote in use, or stays held. -/
lemma ride_closes (hmodel : params.pnlModel = .holdConvergence) (k : Nat) :
    (Closing.close params k (.ride s nowMs) = none ∧ s.converges params nowMs = false ∧
        (s.ride params nowMs).held = s.held) ∨
      ∃ p, s.held = some p ∧ s.converges params nowMs = true ∧
        Closing.close params k (.ride s nowMs) = some ⟨k, p, s.lagBid, s.lagAsk⟩ ∧
        (s.ride params nowMs).held = none := by
  unfold Closing.close ride
  cases hh : s.held with
  | none =>
    left
    have hno : s.converges params nowMs = false := by rw [converges, hh]; rfl
    simp [hno, hmodel, hh]
  | some p =>
    obtain ⟨hno, hsame⟩ | ⟨p', tr, hp, hclose, -, hnone⟩ :=
      s.closeOpen_books params nowMs s.leadMid s.lagBid s.lagAsk false
    · left
      have hopen : s.converges params nowMs = false := hno
      refine ⟨by simp [hopen], hopen, ?_⟩
      rw [hsame, ite_self, hh]
    · right
      have hyes : s.converges params nowMs = true := by
        rw [converges, hp]
        exact hclose
      exact ⟨p, rfl, hyes, by simp [hyes, hh], by simpa using hnone⟩

/-! ## The iterations -/

/-- What holds between two iterations besides the held position. -/
structure HoldInv (delayMs : Int) (lead lag seen : List BinaryTick) (s : Replay) : Prop where
  ticks : SeenInv delayMs lag seen s
  mid : MidInv lead s
  accounts : s.LoopInv
  lots : s.ledger.lots ≤ 1
  last : s.lastBid = s.lagBid ∧ s.lastAsk = s.lagAsk
  ordered : s.sim.pending.isSome = true → (lastQuote seen).isSome = true

lemma start_holdInv (delayMs : Int) (lead : List BinaryTick) {lag : List BinaryTick}
    (hlag : lag.Pairwise (fun a b => a.tsMs ≤ b.tsMs)) :
    HoldInv delayMs lead lag [] (start params delayMs lead lag) := by
  refine ⟨⟨rfl, by simp, ?_, rfl, rfl⟩, start_midInv params delayMs lead hlag,
    start_loopInv params delayMs lead hlag, by simp [start, ledger], ⟨rfl, rfl⟩, ?_⟩
  · intro t ht
    exact (getLast_ge hlag ht).trans (le_max_right _ _)
  · intro hpending
    cases hpending

lemma lastQuote_append (h : (lastQuote seen).isSome = true) (more : List BinaryTick) :
    (lastQuote (seen ++ more)).isSome = true := by
  unfold lastQuote at h ⊢
  rw [List.filter_append, List.getLast?_append]
  cases ((more.filter BinaryTick.isValid).getLast?) with
  | none => simpa using h
  | some u => rfl

lemma lastQuote_of_mem {ticks : List BinaryTick} {u : BinaryTick} (hu : u ∈ ticks)
    (hvalid : u.isValid = true) : (lastQuote ticks).isSome = true :=
  List.getLast?_isSome.mpr (List.ne_nil_of_mem (List.mem_filter.mpr ⟨hu, hvalid⟩))

variable {t : Replay}

/-- The parts of the invariant that every iteration keeps. -/
lemma HoldInv.step (h : HoldInv delayMs lead lag seen s) (hlots : cfg.maxOpenLots ≤ 1)
    (hs : next cfg params s = some t) {more : List BinaryTick}
    (hticks : SeenInv delayMs lag (seen ++ more) t)
    (hlast : t.lastBid = t.lagBid ∧ t.lastAsk = t.lagAsk)
    (hordered : t.sim.pending.isSome = true → (lastQuote (seen ++ more)).isSome = true) :
    HoldInv delayMs lead lag (seen ++ more) t :=
  ⟨hticks, next_midInv cfg params h.mid hs, (next_accounts cfg params s t h.accounts hs).1,
    next_lots cfg params hlots h.lots hs, hlast, hordered⟩

/-- A lead tick, or a lag tick that is not valid, leaves the held position alone. -/
lemma next_rests (h : HoldInv delayMs lead lag seen s) (hlots : cfg.maxOpenLots ≤ 1)
    (hs : next cfg params s = some t) (hcall : s.fillCall = none) :
    s.closings params = [] ∧ t.held = s.held ∧
      ∃ more, HoldInv delayMs lead lag (seen ++ more) t ∧ ∀ u ∈ more, u.isValid = false := by
  obtain ⟨tick, s', hp, rfl⟩ | ⟨tick, s', hp, rfl⟩ := next_cases cfg params hs
  · have hlast : s'.lastBid = s'.lagBid ∧ s'.lastAsk = s'.lagAsk := by
      rw [pick_same hp]
      exact h.last
    have hpending : (s'.leadTick tick).sim.pending = s.sim.pending :=
      congrArg Ledger.pending ((s'.leadTick_same tick).1.trans (pick_spec hp).1)
    refine ⟨?_, (s'.leadTick_books tick).2.trans (pick_books hp).2.2, [], h.step cfg hlots hs ?_ ?_ ?_,
      by simp⟩
    · unfold closings
      rw [hp]
    · rw [List.append_nil]
      exact h.ticks.leadTick hp
    · obtain ⟨htbid, htask, htlastBid, htlastAsk⟩ := s'.leadTick_quotes tick
      rw [htbid, htask, htlastBid, htlastAsk]
      exact hlast
    · rw [hpending, List.append_nil]
      exact h.ordered
  · have hinvalid : tick.isValid = false := by
      rw [← Bool.not_eq_true]
      intro hvalid
      simp [fillCall, hp, hvalid] at hcall
    have hsame : s'.lagTick cfg params tick = s' := by
      rw [lagTick, hinvalid]
      rfl
    have hpending : s'.sim.pending = s.sim.pending := congrArg Ledger.pending (pick_spec hp).1
    rw [hsame] at hs ⊢
    refine ⟨?_, (pick_books hp).2.2, [tick], h.step cfg hlots hs ?_ ?_ ?_, by simpa using hinvalid⟩
    · unfold closings
      rw [hp]
      simp [hinvalid]
    · exact h.ticks.invalidTick hp hinvalid
    · rw [pick_same hp]
      exact h.last
    · rw [hpending]
      intro hsome
      exact lastQuote_append (h.ordered hsome) [tick]

/-- The test of `close_open` is that the tick ends the hold. -/
lemma mustClose_eq {u : BinaryTick} (hvalid : u.isValid = true) (f : Fill) :
    mustClose params (positionOf f) u.tsMs (leadMidAt lead u.tsMs) u.bid u.ask false =
      endsHold params lead f.fillTsMs u := by
  have hmid : 1 / 2 * (u.bid + u.ask) = u.mid := mul_comm _ _
  unfold mustClose endsHold positionOf
  rw [hmid, hvalid, if_neg Bool.false_ne_true]
  by_cases htime : 0 < params.holdMaxMs ∧ params.holdMaxMs ≤ u.tsMs - f.fillTsMs
  · rw [if_pos htime, decide_eq_true htime]
    simp
  · rw [if_neg htime, decide_eq_false htime]
    simp

/-- The first call at a valid lag tick: an order becomes the held position. -/
lemma filled_heldAt (hmodel : params.pnlModel = .holdConvergence) {u : BinaryTick}
    {rest : List BinaryTick} {o : Option (Nat × Fill)} (hlag : lag = seen ++ u :: rest)
    (hvalid : u.isValid = true) (hsingle : s.overwrites params u.tsMs = false)
    (ho : HeldAt params lead lag seen s.held o) :
    ∃ o₁, HeldAt params lead lag seen (s.handleFill params u.tsMs).held o₁ ∧
      ((openingAt seen.length (s, u.tsMs) = none ∧ o₁ = o) ∨
        ∃ x, openingAt seen.length (s, u.tsMs) = some x ∧ o = none ∧ o₁ = some x) := by
  obtain ⟨hnone, hsame⟩ | ⟨f, hsome, hempty, hheld, hnow, hprice⟩ :=
    handleFill_opens hmodel hsingle seen.length
  · refine ⟨o, ?_, .inl ⟨hnone, rfl⟩⟩
    rw [hsame]
    exact ho
  · have hidle := ho.eq_none hempty
    have hmem : u ∈ lag := by
      rw [hlag]
      exact List.mem_append_right _ (List.mem_cons_self ..)
    refine ⟨some (seen.length, f), ⟨hheld, hprice, le_rfl, ?_, lastQuote_of_mem hmem hvalid, ?_⟩,
      .inr ⟨_, hsome, hidle, rfl⟩⟩
    · intro v hv
      rw [hlag, List.getElem?_append_right le_rfl, Nat.sub_self, List.getElem?_cons_zero,
        Option.some.injEq] at hv
      rw [← hv]
      exact ⟨hvalid, hnow⟩
    · simp

/-- The second call: the tick closes the held position, or the position rides on. -/
lemma ridden_heldAt (hmodel : params.pnlModel = .holdConvergence) {u : BinaryTick}
    {rest : List BinaryTick} {o : Option (Nat × Fill)} (hlag : lag = seen ++ u :: rest)
    (hvalid : u.isValid = true) (hmid : s.leadMid = leadMidAt lead u.tsMs) (hbid : s.lagBid = u.bid)
    (hask : s.lagAsk = u.ask) (ho : HeldAt params lead lag seen s.held o) :
    ∃ o₁, HeldAt params lead lag (seen ++ [u]) (s.ride params u.tsMs).held o₁ ∧
      ((Closing.close params seen.length (.ride s u.tsMs) = none ∧ o₁ = o) ∨
        ∃ x c, o = some x ∧ Closing.close params seen.length (.ride s u.tsMs) = some c ∧ o₁ = none ∧
          ClosedByLoop params lead lag x c) := by
  have hends : ∀ x : Nat × Fill, s.held = some (positionOf x.2) →
      s.converges params u.tsMs = endsHold params lead x.2.fillTsMs u := by
    intro x hx
    rw [converges, hx, Option.any_some, hmid, hbid, hask, mustClose_eq hvalid]
  obtain ⟨hnone, hopen, hsame⟩ | ⟨p, hp, hyes, hsome, hempty⟩ := ride_closes hmodel seen.length
  · refine ⟨o, ?_, .inl ⟨hnone, rfl⟩⟩
    rw [hsame]
    cases o with
    | none => exact ho
    | some x =>
      apply HeldSince.wait ho
      intro v hv
      obtain rfl := List.mem_singleton.mp hv
      rw [← hends x ho.held, hopen]
  · cases o with
    | none =>
      have hidle : s.held = none := ho
      rw [hp] at hidle
      cases hidle
    | some x =>
      have hx : HeldSince params lead (seen ++ u :: rest) seen x s.held := hlag ▸ ho
      have hend : endsHold params lead x.2.fillTsMs u = true := by rw [← hends x hx.held, hyes]
      have hlt : seen.length ≠ lag.length := by
        rw [hlag, List.length_append, List.length_cons]
        omega
      have hget : lag[seen.length]? = some u := by
        rw [hlag, List.getElem?_append_right le_rfl, Nat.sub_self, List.getElem?_cons_zero]
      refine ⟨none, hempty, .inr ⟨x, _, rfl, hsome, rfl, ho.opened, hx.price, ?_, ?_, u, ?_, ?_⟩⟩
      · rw [hlag]
        exact (hx.closeTick_eq hend).symm
      · exact Option.some.inj (hp.symm.trans hx.held)
      · rw [hget, Option.some_or]
      · rw [if_neg (fun h => hlt h.1), hbid, hask]

/-- A valid lag tick may open a position, and then may close the one that is held. -/
lemma next_rides (h : HoldInv delayMs lead lag seen s) (hmodel : params.pnlModel = .holdConvergence)
    (hlead : lead.Pairwise (fun a b => a.tsMs ≤ b.tsMs)) (hlots : cfg.maxOpenLots ≤ 1)
    (hs : next cfg params s = some t) {call : Replay × Int} (hcall : s.fillCall = some call)
    {o : Option (Nat × Fill)} (ho : HeldAt params lead lag seen s.held o) :
    ∃ u o₁ o₂, HoldInv delayMs lead lag (seen ++ [u]) t ∧
      HeldAt params lead lag (seen ++ [u]) t.held o₂ ∧
      ((openingAt seen.length call = none ∧ o₁ = o) ∨
        ∃ x, openingAt seen.length call = some x ∧ o = none ∧ o₁ = some x) ∧
      (((s.closings params).filterMap (Closing.close params seen.length) = [] ∧ o₂ = o₁) ∨
        ∃ x c, o₁ = some x ∧ (s.closings params).filterMap (Closing.close params seen.length) = [c] ∧
          o₂ = none ∧ ClosedByLoop params lead lag x c) := by
  unfold fillCall at hcall
  obtain ⟨tick, s', hp, rfl⟩ | ⟨u, s', hp, rfl⟩ := next_cases cfg params hs
  · simp [hp] at hcall
  · simp only [hp] at hcall
    split at hcall
    case isFalse => cases hcall
    case isTrue hvalid =>
      obtain rfl := Option.some.inj hcall
      obtain ⟨hledger, -⟩ := pick_spec hp
      obtain ⟨⟨⟩, -⟩ | ⟨-, hsplit, -⟩ := pick_streams hp
      have hlag : lag = seen ++ u :: s'.lag := by rw [h.ticks.split, hsplit]
      have hsingle : (s'.quoted u).overwrites params u.tsMs = false := by
        have haccounts : (s'.quoted u).LoopInv := (pick_loopInv h.accounts hp).same rfl rfl
        have hone : (s'.quoted u).ledger.lots ≤ 1 := hledger ▸ h.lots
        exact not_overwrites_of_lots params haccounts.sound hone u.tsMs
      have hheld : HeldAt params lead lag seen (s'.quoted u).held o := by
        have hsame : (s'.quoted u).held = s.held := (pick_books hp).2.2
        rw [hsame]
        exact ho
      obtain ⟨o₁, ho₁, hopens⟩ := filled_heldAt hmodel hlag hvalid hsingle hheld
      have hfeeds := (s'.quoted u).handleFill_feeds params u.tsMs
      have hmid : ((s'.quoted u).handleFill params u.tsMs).leadMid = leadMidAt lead u.tsMs := by
        have hpicked : s'.leadMid = s.leadMid := congrArg Feeds.leadMid (pick_feeds hp)
        have hquoted : ((s'.quoted u).handleFill params u.tsMs).leadMid = s'.leadMid :=
          congrArg Feeds.leadMid hfeeds
        rw [hquoted, hpicked, h.mid.leadMid_at hlead hp]
      obtain ⟨o₂, ho₂, hcloses⟩ := ridden_heldAt hmodel hlag hvalid hmid (congrArg Feeds.lagBid hfeeds)
        (congrArg Feeds.lagAsk hfeeds) ho₁
      have hticked : s'.lagTick cfg params u =
          ((ridden params s' u).evaluateQuote cfg u.tsMs).remember := by
        rw [lagTick, if_neg (by simp [hvalid])]
        rfl
      have hkept : (s'.lagTick cfg params u).held = (ridden params s' u).held := by
        rw [hticked]
        exact (evaluateQuote_books cfg (ridden params s' u) u.tsMs).2
      refine ⟨u, o₁, o₂, h.step cfg hlots hs (h.ticks.validTick cfg params hp hvalid) ?_ ?_, ?_, hopens, ?_⟩
      · rw [hticked]
        exact ⟨rfl, rfl⟩
      · intro _
        exact lastQuote_of_mem (List.mem_append_right _ (List.mem_singleton_self u)) hvalid
      · rw [hkept]
        exact ho₂
      · rw [closings_close params hp hvalid]
        obtain ⟨hnone, hsame⟩ | ⟨x, c, hx, hc, hnone, hclosed⟩ := hcloses
        · exact .inl ⟨by rw [hnone]; rfl, hsame⟩
        · exact .inr ⟨x, c, hx, by rw [hc]; rfl, hnone, hclosed⟩

/-! ## The run -/

lemma openingAt_pending {j : Nat} {x : Nat × Fill} (h : openingAt j (s, nowMs) = some x) :
    s.sim.pending.isSome = true := by
  cases hp : s.sim.pending with
  | none =>
    unfold openingAt fillOf ExecutionSimulator.atFill at h
    rw [hp] at h
    cases h
  | some order => rfl

/-- What is held after both streams is closed at the last valid quote. -/
lemma force_closes (nowMs : Int) {x : Nat × Fill} (hx : HeldSince params lead lag lag x s.held)
    (hquote : ∀ q, lastQuote lag = some q → s.lastBid = q.bid ∧ s.lastAsk = q.ask) :
    ∃ c, Closing.close params lag.length (.force s nowMs) = some c ∧ ClosedByLoop params lead lag x c := by
  obtain ⟨q, hq⟩ := Option.isSome_iff_exists.mp hx.quoted
  obtain ⟨hbid, hask⟩ := hquote q hq
  refine ⟨⟨lag.length, positionOf x.2, (s.forceQuote (positionOf x.2)).1,
    (s.forceQuote (positionOf x.2)).2⟩, ?_, hx.opened, hx.price, hx.closeTick_end.symm, rfl, q, ?_, ?_⟩
  · rw [close_force, hx.held, Option.map_some]
  · rw [quote_at_end, hq]
  · unfold forceQuote
    rw [hbid, hask]
    by_cases hno : q.bid ≤ 0 ∨ q.ask ≤ 0
    · rw [if_pos hno, if_pos ⟨rfl, hno⟩]
      rfl
    · rw [if_neg hno, if_neg (fun h => hno h.2)]

/-- The calls after the loop open a last position, or none, and close what is held. -/
lemma drain_closes (h : HoldInv delayMs lead lag seen s) (hmodel : params.pnlModel = .holdConvergence)
    (hlag : s.lag = []) {o : Option (Nat × Fill)} (ho : HeldAt params lead lag seen s.held o) :
    List.Forall₂ (ClosedByLoop params lead lag)
      (o.toList ++ (openingAt lag.length (s, s.drainMs)).toList)
      (Closing.close params lag.length
        (.force (s.handleFill params s.drainMs) (s.drainMs + 1))).toList := by
  have hseen : seen = lag := by rw [h.ticks.split, hlag, List.append_nil]
  subst hseen
  have hsingle := not_overwrites_of_lots params h.accounts.sound h.lots s.drainMs
  have hquote : ∀ q, lastQuote seen = some q → (s.handleFill params s.drainMs).lastBid = q.bid ∧
      (s.handleFill params s.drainMs).lastAsk = q.ask := by
    intro q hq
    obtain ⟨hbid, hask⟩ := h.ticks.quote q hq
    obtain ⟨hlastBid, hlastAsk⟩ := s.handleFill_last params s.drainMs
    exact ⟨hlastBid.trans (h.last.1.trans hbid), hlastAsk.trans (h.last.2.trans hask)⟩
  obtain ⟨hnone, hsame⟩ | ⟨f, hsome, hempty, hheld, -, hprice⟩ :=
    handleFill_opens hmodel hsingle seen.length
  · rw [hnone, Option.toList_none, List.append_nil]
    cases o with
    | none =>
      have hidle : (s.handleFill params s.drainMs).held = none := hsame.trans ho
      have hclose : Closing.close params seen.length
          (.force (s.handleFill params s.drainMs) (s.drainMs + 1)) = none := by
        rw [close_force, hidle, Option.map_none]
      rw [hclose]
      exact .nil
    | some x =>
      have hx : HeldSince params lead seen seen x (s.handleFill params s.drainMs).held := hsame ▸ ho
      obtain ⟨c, hc, hclosed⟩ := force_closes (s.drainMs + 1) hx hquote
      rw [hc]
      exact .cons hclosed .nil
  · have hidle := ho.eq_none hempty
    have hx : HeldSince params lead seen seen (seen.length, f) (s.handleFill params s.drainMs).held := by
      refine ⟨hheld, hprice, le_rfl, ?_, h.ordered (openingAt_pending hsome), by simp⟩
      intro u hu
      rw [List.getElem?_eq_none le_rfl] at hu
      cases hu
    obtain ⟨c, hc, hclosed⟩ := force_closes (s.drainMs + 1) hx hquote
    rw [hidle, hsome, hc]
    exact .cons hclosed .nil

/-- From any state of the loop on, the position that is held and those opened later are closed in that
order, each as the loop does it. -/
theorem loop_closes {fuel : Nat} {o : Option (Nat × Fill)} (hfuel : s.lead.length + s.lag.length ≤ fuel)
    (h : HoldInv delayMs lead lag seen s) (hmodel : params.pnlModel = .holdConvergence)
    (hlead : lead.Pairwise (fun a b => a.tsMs ≤ b.tsMs)) (hlots : cfg.maxOpenLots ≤ 1)
    (ho : HeldAt params lead lag seen s.held o) :
    List.Forall₂ (ClosedByLoop params lead lag)
      (o.toList ++ (openingsFrom cfg params lag.length fuel s ++
        (openingAt lag.length (Loop.run (next cfg params) fuel s,
          (Loop.run (next cfg params) fuel s).drainMs)).toList))
      (closesFrom cfg params lag.length fuel s ++
        (Closing.close params lag.length
          (.force ((Loop.run (next cfg params) fuel s).handleFill params
            (Loop.run (next cfg params) fuel s).drainMs)
              ((Loop.run (next cfg params) fuel s).drainMs + 1))).toList) := by
  induction fuel generalizing s seen o with
  | zero =>
    have hlag : s.lag = [] := List.eq_nil_of_length_eq_zero (by omega)
    simpa [openingsFrom, closesFrom, Loop.visits, Loop.run] using drain_closes h hmodel hlag ho
  | succ fuel ih =>
    rw [openingsFrom, closesFrom, Loop.visits, Loop.run]
    cases hn : next cfg params s with
    | none =>
      have hlag := (next_eq_none cfg params hn).2
      simpa using drain_closes h hmodel hlag ho
    | some t =>
      dsimp only
      obtain ⟨a, -, hmerged⟩ := next_merged cfg params hn
      have hlength := congrArg List.length hmerged
      rw [merged_length, List.length_cons, merged_length] at hlength
      have hindex : lag.length - s.lag.length = seen.length := by
        rw [h.ticks.split, List.length_append]
        omega
      rw [List.filterMap_cons, List.flatMap_cons, hindex]
      cases hcall : s.fillCall with
      | none =>
        obtain ⟨hclosings, hheld, more, hmore, hinvalid⟩ := next_rests cfg h hlots hn hcall
        rw [hclosings]
        have hrest := ih (by omega) hmore (hheld ▸ ho.wait hinvalid)
        unfold openingsFrom closesFrom at hrest
        simpa using hrest
      | some call =>
        obtain ⟨u, o₁, o₂, hinv, ho₂, hopens, hcloses⟩ := next_rides cfg h hmodel hlead hlots hn hcall ho
        have hrest := ih (by omega) hinv ho₂
        unfold openingsFrom closesFrom at hrest
        rw [Option.bind_some]
        obtain ⟨hopen, rfl⟩ | ⟨x, hopen, rfl, rfl⟩ := hopens
        · rw [hopen]
          obtain ⟨hclose, rfl⟩ | ⟨x, c, rfl, hclose, rfl, hclosed⟩ := hcloses
          · simpa [hclose] using hrest
          · simpa [hclose] using And.intro hclosed hrest
        · rw [hopen]
          obtain ⟨hclose, rfl⟩ | ⟨y, c, hy, hclose, rfl, hclosed⟩ := hcloses
          · simpa [hclose] using hrest
          · obtain rfl := Option.some.inj hy
            simpa [hclose] using And.intro hclosed hrest

lemma run_closes (hmodel : params.pnlModel = .holdConvergence) (hlots : cfg.maxOpenLots ≤ 1) (delayMs : Int)
    (hlead : lead.Pairwise (fun a b => a.tsMs ≤ b.tsMs))
    (hlag : lag.Pairwise (fun a b => a.tsMs ≤ b.tsMs)) :
    List.Forall₂ (ClosedByLoop params lead lag) (openings cfg params delayMs lead lag)
      (closes cfg params delayMs lead lag) := by
  unfold openings closes
  by_cases hempty : lead = [] ∨ lag = []
  · rw [if_pos hempty, if_pos hempty]
    exact .nil
  · rw [if_neg hempty, if_neg hempty]
    exact loop_closes cfg (o := none) le_rfl (start_holdInv delayMs lead hlag) hmodel hlead hlots rfl

variable (params)

/-- With one lot, every position of a run is closed by the documented rule exactly when none is opened at a
tick where the lag has converged already, and those that no tick closes find two prices in the last valid
quote. -/
theorem positions_close_by_rule_iff (hmodel : params.pnlModel = .holdConvergence)
    (hlots : cfg.maxOpenLots = 1) (delayMs : Int) (lead lag : List BinaryTick)
    (hlead : lead.Pairwise (fun a b => a.tsMs ≤ b.tsMs))
    (hlag : lag.Pairwise (fun a b => a.tsMs ≤ b.tsMs)) :
    List.Forall₂ (ClosedByRule params lead lag) (openings cfg params delayMs lead lag)
        (closes cfg params delayMs lead lag) ↔
      ∀ o ∈ openings cfg params delayMs lead lag, RidesOn params lead lag o := by
  have hiff : ∀ o c, ClosedByLoop params lead lag o c →
      (ClosedByRule params lead lag o c ↔ RidesOn params lead lag o) :=
    fun o c h => ⟨ridesOn_of_rule h, closedByRule_of_ridesOn h⟩
  exact forall₂_iff_of_iff hiff (run_closes cfg hmodel hlots.le delayMs hlead hlag)

instance (lead lag : List BinaryTick) (o : Nat × Fill) : Decidable (RidesOn params lead lag o) :=
  decidable_of_iff
    ((∀ u ∈ lag[o.1]?, params.holdTolPts < |leadMidAt lead u.tsMs - u.mid|) ∧
      (closeTick params lead lag o.2.fillTsMs (o.1 + 1) = lag.length →
        ∀ q ∈ lastQuote lag, 0 < q.bid ∧ 0 < q.ask))
    ⟨fun h => ⟨h.1, h.2⟩, fun h => ⟨h.apart, h.priced⟩⟩

/-- A lag that has caught up with a lead of 102 two minutes after the signal. -/
def catchUpLag : List BinaryTick :=
  [{ tsMs := 60000, bid := 99, ask := 100, flags := 1 },
   { tsMs := 120000, bid := 100, ask := 101, flags := 1 },
   { tsMs := 180000, bid := 101.5, ask := 102.5, flags := 1 },
   { tsMs := 240000, bid := 103, ask := 104, flags := 1 }]

theorem positions_close_by_rule_catch_up :
    (closes { maxOrdersPerInterval := 1 } {} 5 minuteLead catchUpLag).map Close.tick = [2] ∧
      List.Forall₂ (ClosedByRule {} minuteLead catchUpLag)
        (openings { maxOrdersPerInterval := 1 } {} 5 minuteLead catchUpLag)
        (closes { maxOrdersPerInterval := 1 } {} 5 minuteLead catchUpLag) :=
  ⟨by decide +kernel, (positions_close_by_rule_iff { maxOrdersPerInterval := 1 } {} rfl rfl 5 minuteLead
    catchUpLag (by decide) (by decide)).mpr (by decide +kernel)⟩

/-- A lag that jumps to the lead before the order is filled. -/
def jumpedLag : List BinaryTick :=
  [{ tsMs := 60000, bid := 99, ask := 100, flags := 1 },
   { tsMs := 120000, bid := 101.5, ask := 102.5, flags := 1 },
   { tsMs := 180000, bid := 103, ask := 104, flags := 1 }]

/-- The position of the second tick is closed at the second tick. -/
theorem closed_on_opening_tick :
    (openings { maxOrdersPerInterval := 1 } {} 5 minuteLead jumpedLag).map Prod.fst = [1] ∧
      (closes { maxOrdersPerInterval := 1 } {} 5 minuteLead jumpedLag).map Close.tick = [1] ∧
      ¬List.Forall₂ (ClosedByRule {} minuteLead jumpedLag)
        (openings { maxOrdersPerInterval := 1 } {} 5 minuteLead jumpedLag)
        (closes { maxOrdersPerInterval := 1 } {} 5 minuteLead jumpedLag) := by
  have hopened : (openings { maxOrdersPerInterval := 1 } {} 5 minuteLead jumpedLag).map Prod.fst = [1] := by
    decide +kernel
  have hclosed : (closes { maxOrdersPerInterval := 1 } {} 5 minuteLead jumpedLag).map Close.tick = [1] := by
    decide +kernel
  refine ⟨hopened, hclosed, ?_⟩
  intro hrule
  have hlater : List.Forall₂ (fun j k => j < jumpedLag.length → j < k)
      ((openings { maxOrdersPerInterval := 1 } {} 5 minuteLead jumpedLag).map Prod.fst)
      ((closes { maxOrdersPerInterval := 1 } {} 5 minuteLead jumpedLag).map Close.tick) := by
    rw [List.forall₂_map_left_iff, List.forall₂_map_right_iff]
    exact hrule.imp (fun _ _ h => h.later)
  rw [hopened, hclosed, List.forall₂_cons] at hlater
  exact lt_irrefl 1 (hlater.1 (by decide))

end Replay

end LatencyArb
