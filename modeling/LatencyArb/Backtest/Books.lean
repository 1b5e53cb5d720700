import LatencyArb.Backtest.Accounting
import LatencyArb.Library.Drawdown

/-!
# The money of a replay

`Books` is what a replay keeps about money. Every function of the replay leaves the books alone or
books one trade; the identities of the result, and what the loss limit of the strategy sees, follow
from that one operation.
-/

namespace LatencyArb

open Drawdown

/-- The trades of a replay with all that is accumulated over them, the strategy's `day_pnl_` included. -/
structure Books where
  capital : ℚ
  trades : List Trade
  fills : Nat
  equity : ℚ
  peak : ℚ
  grossP : ℚ
  grossL : ℚ
  maxDrawdown : ℚ
  maxDrawdownPct : ℚ
  dayPnl : ℚ

namespace Books

/-- A round trip is closed with the P&L of `tr`, net of the commission `comm`. -/
def book (b : Books) (tr : Trade) (comm : ℚ) : Books :=
  let equity := b.equity + tr.pnl
  let peak := max b.peak equity
  let deeper := b.maxDrawdown < peak - equity
  { capital := b.capital
    trades := b.trades ++ [{ tr with equityAfter := equity }]
    fills := b.fills + 1
    equity := equity
    peak := peak
    grossP := if 0 ≤ tr.pnl then b.grossP + tr.pnl else b.grossP
    grossL := if 0 ≤ tr.pnl then b.grossL else b.grossL + -tr.pnl
    maxDrawdown := if deeper then peak - equity else b.maxDrawdown
    maxDrawdownPct :=
      if deeper then (if 0 < peak then (peak - equity) / peak * 100 else 0) else b.maxDrawdownPct
    dayPnl := b.dayPnl + (tr.pnl - comm) }

def totalPnl (trades : List Trade) : ℚ := (trades.map Trade.pnl).sum

def equityCurve (capital : ℚ) (trades : List Trade) : List ℚ := capital :: trades.map Trade.equityAfter

/-- The percentage of the drawdown `drop` below the peak `top`. -/
def drawdownPct (drop top : ℚ) : ℚ := if 0 < top then drop / top * 100 else 0

/-- The closed forms of the accumulators when every trade was booked with the commission `comm`. -/
structure Sound (comm : ℚ) (b : Books) : Prop where
  count : b.trades.length = b.fills
  total : b.equity = b.capital + totalPnl b.trades
  running : ∀ i tr, b.trades[i]? = some tr →
    tr.equityAfter = b.capital + totalPnl (b.trades.take (i + 1))
  gross : b.equity - b.capital = b.grossP - b.grossL
  profit : 0 ≤ b.grossP
  loss : 0 ≤ b.grossL
  drawdown : ∃ top, Records (equityCurve b.capital b.trades) ⟨b.peak, b.maxDrawdown, top⟩ ∧
    b.maxDrawdownPct = drawdownPct b.maxDrawdown top
  day : b.dayPnl = b.equity - b.capital - comm * b.fills

def start (capital : ℚ) : Books := ⟨capital, [], 0, capital, capital, 0, 0, 0, 0, 0⟩

lemma start_sound (capital comm : ℚ) : (start capital).Sound comm := by
  refine ⟨rfl, by simp [start, totalPnl], by simp [start], by simp [start], le_rfl, le_rfl, ?_,
    by simp [start]⟩
  exact ⟨capital, records_start capital, by simp [start, drawdownPct]⟩

@[simp] lemma totalPnl_append (trades : List Trade) (tr : Trade) :
    totalPnl (trades ++ [tr]) = totalPnl trades + tr.pnl := by
  simp [totalPnl]

lemma equityCurve_append (capital : ℚ) (trades : List Trade) (tr : Trade) :
    equityCurve capital (trades ++ [tr]) = equityCurve capital trades ++ [tr.equityAfter] := by
  simp [equityCurve]

variable {b : Books} {comm : ℚ}

lemma book_running (h : b.Sound comm) (tr : Trade) (i : Nat) (t : Trade)
    (ht : (b.trades ++ [{ tr with equityAfter := b.equity + tr.pnl }])[i]? = some t) :
    t.equityAfter = b.capital +
      totalPnl ((b.trades ++ [{ tr with equityAfter := b.equity + tr.pnl }]).take (i + 1)) := by
  by_cases hi : i < b.trades.length
  · rw [List.getElem?_append_left hi] at ht
    rw [List.take_append_of_le_length (by omega)]
    exact h.running i t ht
  · have hlen : i < (b.trades ++ [{ tr with equityAfter := b.equity + tr.pnl }]).length :=
      (List.getElem?_eq_some_iff.mp ht).1
    rw [List.length_append, List.length_singleton] at hlen
    have hieq : i = b.trades.length := by omega
    rw [hieq, List.getElem?_append_right le_rfl, Nat.sub_self, List.getElem?_cons_zero,
      Option.some.injEq] at ht
    rw [hieq, List.take_of_length_le (by simp), totalPnl_append, ← ht, h.total, add_assoc]

lemma book_drawdown (h : b.Sound comm) (tr : Trade) :
    ∃ top, Records (equityCurve b.capital (b.book tr comm).trades)
        ⟨(b.book tr comm).peak, (b.book tr comm).maxDrawdown, top⟩ ∧
      (b.book tr comm).maxDrawdownPct = drawdownPct (b.book tr comm).maxDrawdown top := by
  obtain ⟨top, hrecords, hpct⟩ := h.drawdown
  have hnext := hrecords.observe (b.equity + tr.pnl)
  unfold book
  dsimp only
  rw [equityCurve_append]
  unfold Tracker.observe at hnext
  dsimp only at hnext
  by_cases hdeeper : b.maxDrawdown < max b.peak (b.equity + tr.pnl) - (b.equity + tr.pnl)
  · simp only [if_pos hdeeper] at hnext ⊢
    exact ⟨_, hnext, rfl⟩
  · simp only [if_neg hdeeper] at hnext ⊢
    exact ⟨top, hnext, hpct⟩

/-- The step lemma of the accounts. -/
theorem Sound.book (h : b.Sound comm) (tr : Trade) : (b.book tr comm).Sound comm := by
  have hgross := h.gross
  refine ⟨?_, ?_, book_running h tr, ?_, ?_, ?_, book_drawdown h tr, ?_⟩
  · simp [Books.book, h.count]
  · simp only [Books.book, totalPnl_append, h.total]
    ring
  · simp only [Books.book]
    split <;> linarith
  · have hprofit := h.profit
    simp only [Books.book]
    split <;> linarith
  · have hloss := h.loss
    simp only [Books.book]
    split <;> linarith
  · simp only [Books.book, h.day]
    push_cast
    ring

/-- The second books are the first ones with more trades booked. -/
def Grown : Books → Books → Prop := Relation.ReflTransGen (fun b b' => ∃ tr comm, b' = b.book tr comm)

lemma Grown.booked (b : Books) (tr : Trade) (comm : ℚ) : Grown b (b.book tr comm) :=
  .single ⟨tr, comm, rfl⟩

lemma Grown.trades {b b' : Books} (h : Grown b b') : b.trades <+: b'.trades := by
  induction h with
  | refl => exact List.prefix_rfl
  | tail _ hstep ih =>
    obtain ⟨tr, comm, rfl⟩ := hstep
    exact ih.trans (List.prefix_append _ _)

end Books

namespace Replay

open Books

variable (cfg : Config) (params : ExecutionParams)

def books (s : Replay) : Books where
  capital := s.out.initialCapital
  trades := s.out.trades
  fills := s.out.fills
  equity := s.equity
  peak := s.peak
  grossP := s.grossP
  grossL := s.grossL
  maxDrawdown := s.out.maxDrawdown
  maxDrawdownPct := s.out.maxDrawdownPct
  dayPnl := s.strategy.dayPnl

/-- The commission that the simulator charges for an order. -/
def charge (s : Replay) : ℚ := s.sim.params.commissionPerLot * s.sim.params.quantity

/-- What the prices alone gain in a round trip of the instant model that is marked now, on either side. -/
def instantGain (s : Replay) : ℚ :=
  s.lagBid - s.lagAsk - (s.sim.params.spreadMarkupPts + s.sim.params.slippagePts)

def instantPnl (s : Replay) : ℚ := s.instantGain - s.charge

/-- `handle_fill` would now book the round trip of the instant model. -/
def settles (s : Replay) (nowMs : Int) : Bool :=
  decide (params.pnlModel ≠ .holdConvergence) && (s.sim.due nowMs).isSome && !s.rejects nowMs

/-- `close_open` would now close the held position. -/
def converges (s : Replay) (nowMs : Int) : Bool :=
  s.held.any (fun p => mustClose params p nowMs s.leadMid s.lagBid s.lagAsk false)

lemma realize_books (s : Replay) (tr : Trade) (comm : ℚ) :
    (((s.realize tr.pnl).recordTrade tr).orderClosed tr.pnl comm).books = s.books.book tr comm := by
  unfold recordTrade Books.book
  by_cases hdeeper : s.out.maxDrawdown < max s.peak (s.equity + tr.pnl) - (s.equity + tr.pnl)
  · simp [realize, orderClosed, books, Strategy.onOrderClosed, hdeeper]
  · simp [realize, orderClosed, books, Strategy.onOrderClosed, hdeeper]

/-- The two functions that close a round trip tell the strategy at different times, which makes no
difference. -/
lemma orderClosed_recordTrade (s : Replay) (tr : Trade) (pnl comm : ℚ) :
    (s.orderClosed pnl comm).recordTrade tr = (s.recordTrade tr).orderClosed pnl comm := rfl

lemma instantTrade_books (s : Replay) (f : Fill) : (s.instantTrade f).held = s.held ∧
    ∃ tr, (s.instantTrade f).books = s.books.book tr f.commission ∧
      tr.pnl = (if f.side = .buy then f.execBid - f.fillPrice else f.fillPrice - f.execAsk) -
        f.commission := by
  unfold instantTrade
  dsimp only
  rw [orderClosed_recordTrade]
  constructor
  · unfold recordTrade
    dsimp only
    split <;> rfl
  · refine ⟨_, realize_books s _ f.commission, ?_⟩
    by_cases hbuy : f.side = .buy
    · simp only [hbuy, if_true]
    · simp only [hbuy, if_false]

/-- Both sides of the instant model pay the spread and the charges on their prices. -/
lemma instantGain_of_fill {s : Replay} {sim : ExecutionSimulator} {nowMs : Int} {f : Fill}
    (h : s.sim.atFill nowMs s.lagBid s.lagAsk = (sim, some f)) (hfilled : f.filled = true) :
    (if f.side = .buy then f.execBid - f.fillPrice else f.fillPrice - f.execAsk) = s.instantGain := by
  obtain ⟨hprice, hbid, hask, -⟩ := ExecutionSimulator.atFill_filled h hfilled
  rw [hprice, hbid, hask, instantGain, ExecutionSimulator.modelPrice]
  by_cases hbuy : f.side = .buy
  · rw [if_pos hbuy, if_pos hbuy]
    ring
  · rw [if_neg hbuy, if_neg hbuy]
    ring

/-- What `close_open` does to the money and to the position. -/
lemma closeOpen_books (s : Replay) (nowMs : Int) (curLead curBid curAsk : ℚ) (force : Bool) :
    (s.held.any (fun p => mustClose params p nowMs curLead curBid curAsk force) = false ∧
        s.closeOpen params nowMs curLead curBid curAsk force = s) ∨
      ∃ p tr, s.held = some p ∧ mustClose params p nowMs curLead curBid curAsk force = true ∧
        (s.closeOpen params nowMs curLead curBid curAsk force).books = s.books.book tr p.comm ∧
        (s.closeOpen params nowMs curLead curBid curAsk force).held = none := by
  unfold closeOpen
  cases hh : s.held with
  | none => exact .inl ⟨rfl, rfl⟩
  | some p =>
    dsimp only
    by_cases hclose : mustClose params p nowMs curLead curBid curAsk force = true
    · right
      rw [if_neg (by simp [hclose])]
      exact ⟨p, _, rfl, hclose, realize_books s _ p.comm, rfl⟩
    · left
      rw [if_pos (by simpa using hclose)]
      exact ⟨by simpa using hclose, rfl⟩

/-- What `handle_fill` does to the money and to the position. -/
lemma handleFill_books (s : Replay) (nowMs : Int) :
    (s.settles params nowMs = false ∧ (s.handleFill params nowMs).books = s.books ∧
        ∀ p, (s.handleFill params nowMs).held = some p → s.held = some p ∨ p.comm = s.charge) ∨
      s.settles params nowMs = true ∧ (s.handleFill params nowMs).held = s.held ∧
        ∃ tr, (s.handleFill params nowMs).books = s.books.book tr s.charge ∧
          tr.pnl = s.instantPnl := by
  unfold settles
  obtain ⟨hd, heq⟩ | ⟨order, f, hd, hfill, ⟨hr, -, heq⟩ | ⟨hr, hyes, heq⟩⟩ :=
    s.handleFill_spec params nowMs
  · rw [heq, hd]
    exact .inl ⟨by simp, rfl, fun p hp => .inl hp⟩
  · rw [heq, hr]
    exact .inl ⟨by simp, rfl, fun p hp => .inl hp⟩
  · have hcharge : f.commission = s.charge := (ExecutionSimulator.atFill_filled hfill hyes).2.2.2.1
    rw [heq, hd, hr]
    by_cases hmodel : params.pnlModel = .holdConvergence
    · left
      rw [if_pos hmodel]
      refine ⟨by simp [hmodel], rfl, ?_⟩
      intro p hp
      simp only [openPosition, Option.some.injEq] at hp
      exact .inr (hp ▸ hcharge)
    · right
      obtain ⟨hheld, tr, hbook, hpnl⟩ := s.cleared.instantTrade_books f
      rw [instantGain_of_fill hfill hyes, hcharge] at hpnl
      rw [hcharge] at hbook
      rw [if_neg hmodel]
      exact ⟨by simp [hmodel], hheld, tr, hbook, hpnl⟩

lemma evaluateQuote_books (s : Replay) (nowMs : Int) :
    (s.evaluateQuote cfg nowMs).books = s.books ∧ (s.evaluateQuote cfg nowMs).held = s.held := by
  unfold evaluateQuote
  split
  swap
  · exact ⟨rfl, rfl⟩
  dsimp only
  generalize ({ tsMs := nowMs, bid := s.lagBid, ask := s.lagAsk, spread := s.lagAsk - s.lagBid,
                valid := 1 } : BrokerQuote) = q
  obtain hemit | ⟨-, -, hemit⟩ :=
    s.strategy.maybeEmit_cases cfg (Strategy.evaluate cfg s.leadMid q).1 s.leadMid q nowMs
  · rw [hemit]
    exact ⟨rfl, rfl⟩
  · rw [hemit]
    dsimp only
    split <;> exact ⟨rfl, rfl⟩

/-! ## The calls that close round trips -/

/-- The calls of `run_impl` that may close a round trip, with the state each is made in. -/
inductive Closing where
  | fill (s : Replay) (nowMs : Int)
  | ride (s : Replay) (nowMs : Int)
  | force (s : Replay) (nowMs : Int)

namespace Closing

def state : Closing → Replay
  | .fill s _ => s
  | .ride s _ => s
  | .force s _ => s

def result : Closing → Replay
  | .fill s nowMs => s.handleFill params nowMs
  | .ride s nowMs => s.ride params nowMs
  | .force s nowMs => s.forceClose params nowMs

def closes : Closing → Bool
  | .fill s nowMs => s.settles params nowMs
  | .ride s nowMs => s.converges params nowMs
  | .force s _ => s.held.isSome

end Closing

/-- The closing calls of the iteration from `s`. -/
def closings (s : Replay) : List Closing :=
  match s.pick with
  | some (.lag, t, s) =>
    if t.isValid then
      [Closing.fill (s.quoted t) t.tsMs, .ride ((s.quoted t).handleFill params t.tsMs) t.tsMs]
    else []
  | _ => []

/-- The states of the iteration from `s`, once it has its tick and after each of its calls. -/
def within (s : Replay) : List Replay :=
  match s.pick with
  | none => []
  | some (.lead, t, s) => [s.leadTick t]
  | some (.lag, t, s) =>
    if t.isValid then
      let filled := (s.quoted t).handleFill params t.tsMs
      let ridden := filled.ride params t.tsMs
      [s.quoted t, filled, ridden, (ridden.evaluateQuote cfg t.tsMs).remember]
    else [s]

/-- All closing calls of a run. -/
def allClosings (delayMs : Int) (lead lag : List BinaryTick) : List Closing :=
  if lead = [] ∨ lag = [] then []
  else
    let s := replayed cfg params delayMs lead lag
    (Loop.visits (next cfg params) (lead.length + lag.length)
      (start params delayMs lead lag)).flatMap (closings params) ++
      [Closing.fill s s.drainMs, .force (s.handleFill params s.drainMs) (s.drainMs + 1)]

/-- All states of a run. -/
def points (delayMs : Int) (lead lag : List BinaryTick) : List Replay :=
  if lead = [] ∨ lag = [] then []
  else
    let s := replayed cfg params delayMs lead lag
    let drained := s.handleFill params s.drainMs
    start params delayMs lead lag ::
      (Loop.visits (next cfg params) (lead.length + lag.length)
        (start params delayMs lead lag)).flatMap (within cfg params) ++
      [drained, drained.forceClose params (s.drainMs + 1)]

/-- Sound books whose commission is the one charged for every order and owed by the held position. -/
structure BooksInv (comm : ℚ) (s : Replay) : Prop where
  sound : s.books.Sound comm
  charge : s.charge = comm
  held : ∀ p, s.held = some p → p.comm = comm

lemma BooksInv.same {comm : ℚ} {s s' : Replay} (h : s.BooksInv comm) (hb : s'.books = s.books)
    (hc : s'.charge = s.charge) (hh : s'.held = s.held) : s'.BooksInv comm :=
  ⟨hb ▸ h.sound, hc.trans h.charge, hh ▸ h.held⟩

lemma charge_of_header {s s' : Replay} (h : s'.header = s.header) : s'.charge = s.charge := by
  have hparams : s'.sim.params = s.sim.params := congrArg Header.params h
  rw [charge, hparams, charge]

/-- A call that does not close leaves the money alone, a call that closes books one trade. -/
def Books.Booked (comm : ℚ) (closes : Bool) (b b' : Books) : Prop :=
  closes = false ∧ b' = b ∨ closes = true ∧ ∃ tr, b' = b.book tr comm

lemma Books.Booked.of_open {comm : ℚ} {closes : Bool} {b b' : Books} (h : Books.Booked comm closes b b')
    (hno : closes = false) : b' = b := by
  obtain ⟨-, hsame⟩ | ⟨hyes, -⟩ := h
  · exact hsame
  · cases hno.symm.trans hyes

variable {comm : ℚ} {s : Replay}

lemma closeOpen_booked (h : s.BooksInv comm) (nowMs : Int) (curLead curBid curAsk : ℚ) (force : Bool) :
    (s.closeOpen params nowMs curLead curBid curAsk force).BooksInv comm ∧
      Books.Booked comm (s.held.any (fun p => mustClose params p nowMs curLead curBid curAsk force))
        s.books (s.closeOpen params nowMs curLead curBid curAsk force).books := by
  have hcharge := charge_of_header (s.closeOpen_cases params nowMs curLead curBid curAsk force).1
  obtain ⟨hno, hsame⟩ | ⟨p, tr, hp, hclose, hbook, hnone⟩ :=
    s.closeOpen_books params nowMs curLead curBid curAsk force
  · rw [hsame]
    exact ⟨h, .inl ⟨hno, rfl⟩⟩
  · rw [h.held p hp] at hbook
    refine ⟨⟨hbook ▸ h.sound.book tr, hcharge.trans h.charge, by simp [hnone]⟩, .inr ⟨?_, tr, hbook⟩⟩
    rw [hp, Option.any_some, hclose]

lemma handleFill_booked (h : s.BooksInv comm) (nowMs : Int) :
    (s.handleFill params nowMs).BooksInv comm ∧
      Books.Booked comm (s.settles params nowMs) s.books (s.handleFill params nowMs).books := by
  have hcharge := charge_of_header (s.handleFill_header params nowMs)
  obtain ⟨hno, hsame, hheld⟩ | ⟨hyes, hheld, tr, hbook, -⟩ := s.handleFill_books params nowMs
  · refine ⟨⟨hsame ▸ h.sound, hcharge.trans h.charge, ?_⟩, .inl ⟨hno, hsame⟩⟩
    intro p hp
    obtain hold | hnew := hheld p hp
    · exact h.held p hold
    · exact hnew.trans h.charge
  · rw [h.charge] at hbook
    exact ⟨⟨hbook ▸ h.sound.book tr, hcharge.trans h.charge, hheld ▸ h.held⟩, .inr ⟨hyes, tr, hbook⟩⟩

lemma ride_booked (h : s.BooksInv comm) (nowMs : Int) :
    (s.ride params nowMs).BooksInv comm ∧
      Books.Booked comm (s.converges params nowMs) s.books (s.ride params nowMs).books := by
  unfold ride
  split
  case isTrue => exact closeOpen_booked params h nowMs s.leadMid s.lagBid s.lagAsk false
  case isFalse hno =>
    have hnone : s.held = none := by simpa using (not_or.mp hno).1
    exact ⟨h, .inl ⟨by simp [converges, hnone], rfl⟩⟩

lemma forceClose_booked (h : s.BooksInv comm) (nowMs : Int) :
    (s.forceClose params nowMs).BooksInv comm ∧
      Books.Booked comm s.held.isSome s.books (s.forceClose params nowMs).books := by
  have hforce : ∀ p : OpenPosition, ∀ t : Replay, t.BooksInv comm → t.held = some p →
      (t.closeOpen params nowMs t.lastLead t.lastBid t.lastAsk true).BooksInv comm ∧
        Books.Booked comm true t.books
          (t.closeOpen params nowMs t.lastLead t.lastBid t.lastAsk true).books := by
    intro p t ht hp
    have hclose := closeOpen_booked params ht nowMs t.lastLead t.lastBid t.lastAsk true
    rw [hp, Option.any_some] at hclose
    exact hclose
  unfold forceClose
  split
  case h_1 hnone =>
    rw [hnone]
    exact ⟨h, .inl ⟨rfl, rfl⟩⟩
  case h_2 p hsome =>
    have hheld : s.held.isSome = true := by rw [hsome]; rfl
    rw [hheld]
    dsimp only
    split
    · exact hforce p { s with lastBid := p.price, lastAsk := p.price } (h.same rfl rfl rfl) hsome
    · exact hforce p s h hsome

/-- The spec of the closing calls. -/
lemma Closing.booked (call : Closing) (h : call.state.BooksInv comm) :
    (call.result params).BooksInv comm ∧
      Books.Booked comm (call.closes params) call.state.books (call.result params).books := by
  cases call with
  | fill s nowMs => exact handleFill_booked params h nowMs
  | ride s nowMs => exact ride_booked params h nowMs
  | force s nowMs => exact forceClose_booked params h nowMs

/-! ## The run -/

lemma pick_books {s s' : Replay} {feed : Feed} {t : BinaryTick} (h : s.pick = some (feed, t, s')) :
    s'.books = s.books ∧ s'.charge = s.charge ∧ s'.held = s.held := by
  rw [pick_same h]
  exact ⟨rfl, rfl, rfl⟩

lemma leadTick_books (s : Replay) (t : BinaryTick) :
    (s.leadTick t).books = s.books ∧ (s.leadTick t).held = s.held := by
  unfold leadTick
  split <;> exact ⟨rfl, rfl⟩

/-- Every closing call of an iteration is made with sound books, and its result is among the states of
the iteration. Books change only in calls that close. -/
lemma within_booked (h : s.BooksInv comm) :
    (∀ call ∈ s.closings params, call.state.BooksInv comm ∧ call.result params ∈ s.within cfg params) ∧
      ∀ t ∈ s.within cfg params, t.BooksInv comm ∧
        ((∀ call ∈ s.closings params, call.closes params = false) → t.books = s.books) := by
  unfold closings within
  cases hp : s.pick with
  | none => simp
  | some picked =>
    obtain ⟨feed, t, taken⟩ := picked
    obtain ⟨hb, hc, hh⟩ := pick_books hp
    have htaken := h.same hb hc hh
    cases feed with
    | lead =>
      have hlead := taken.leadTick_books t
      have hinv := htaken.same hlead.1 (charge_of_header (taken.leadTick_same t).2) hlead.2
      simpa using ⟨hinv, hlead.1.trans hb⟩
    | lag =>
      dsimp only
      by_cases hvalid : t.isValid = true
      · rw [if_pos hvalid, if_pos hvalid]
        have hquoted : (taken.quoted t).BooksInv comm := htaken.same rfl rfl rfl
        obtain ⟨hfilled, hfill⟩ := handleFill_booked params hquoted t.tsMs
        obtain ⟨hridden, hride⟩ := ride_booked params hfilled t.tsMs
        set filled := (taken.quoted t).handleFill params t.tsMs
        set ridden := filled.ride params t.tsMs
        obtain ⟨hbooks, hheld⟩ := ridden.evaluateQuote_books cfg t.tsMs
        have hlast : (ridden.evaluateQuote cfg t.tsMs).remember.BooksInv comm :=
          hridden.same hbooks (charge_of_header (ridden.evaluateQuote_cases cfg t.tsMs).1) hheld
        have hfill_same : (taken.quoted t).settles params t.tsMs = false → filled.books = s.books :=
          fun hno => (hfill.of_open hno).trans hb
        have hride_same : (taken.quoted t).settles params t.tsMs = false →
            filled.converges params t.tsMs = false → ridden.books = s.books :=
          fun hno hno' => (hride.of_open hno').trans (hfill_same hno)
        simp only [List.forall_mem_cons, List.not_mem_nil, IsEmpty.forall_iff, implies_true, and_true]
        refine ⟨⟨⟨hquoted, ?_⟩, hfilled, ?_⟩, ⟨hquoted, fun _ => hb⟩,
          ⟨hfilled, fun hno => hfill_same hno.1⟩, ⟨hridden, fun hno => hride_same hno.1 hno.2⟩, hlast,
          fun hno => hbooks.trans (hride_same hno.1 hno.2)⟩
        · exact List.mem_cons_of_mem _ (List.mem_cons_self ..)
        · exact List.mem_cons_of_mem _ (List.mem_cons_of_mem _ (List.mem_cons_self ..))
      · rw [if_neg hvalid, if_neg hvalid]
        simpa using ⟨htaken, hb⟩

lemma next_mem_within {t : Replay} (h : next cfg params s = some t) : t ∈ s.within cfg params := by
  unfold within
  obtain ⟨tick, taken, hp, rfl⟩ | ⟨tick, taken, hp, rfl⟩ := next_cases cfg params h
  · simp [hp]
  · rw [hp]
    unfold lagTick
    by_cases hvalid : tick.isValid = true
    · simp [hvalid]
    · simp [hvalid]

lemma start_booksInv (delayMs : Int) (lead lag : List BinaryTick) :
    (start params delayMs lead lag).BooksInv (params.commissionPerLot * params.quantity) :=
  ⟨Books.start_sound _ _, rfl, fun p hp => by cases hp⟩

lemma replayed_booksInv (delayMs : Int) (lead lag : List BinaryTick) :
    (replayed cfg params delayMs lead lag).BooksInv (params.commissionPerLot * params.quantity) ∧
      ∀ s ∈ Loop.visits (next cfg params) (lead.length + lag.length) (start params delayMs lead lag),
        s.BooksInv (params.commissionPerLot * params.quantity) :=
  Loop.run_invariant (fun _ t h hs => ((within_booked cfg params h).2 t (next_mem_within cfg params hs)).1)
    (start_booksInv params delayMs lead lag) _

/-- Sound books at every point of a run. -/
theorem points_booksInv (delayMs : Int) (lead lag : List BinaryTick) :
    ∀ s ∈ points cfg params delayMs lead lag,
      s.BooksInv (params.commissionPerLot * params.quantity) := by
  intro u hu
  unfold points at hu
  split at hu
  · simp at hu
  obtain ⟨hfinal, hall⟩ := replayed_booksInv cfg params delayMs lead lag
  have hdrained := (handleFill_booked params hfinal
    (replayed cfg params delayMs lead lag).drainMs).1
  rw [List.mem_append] at hu
  obtain hu | hu := hu
  · obtain rfl | hu := List.mem_cons.mp hu
    · exact start_booksInv params delayMs lead lag
    · obtain ⟨s, hs, hu⟩ := List.mem_flatMap.mp hu
      exact ((within_booked cfg params (hall s hs)).2 u hu).1
  · simp only [List.mem_cons, List.not_mem_nil, or_false] at hu
    obtain rfl | rfl := hu
    · exact hdrained
    · exact (forceClose_booked params hdrained _).1

lemma mem_points {delayMs : Int} {lead lag : List BinaryTick} {call : Closing}
    (h : call ∈ allClosings cfg params delayMs lead lag) :
    call.state.BooksInv (params.commissionPerLot * params.quantity) ∧
      call.result params ∈ points cfg params delayMs lead lag := by
  unfold allClosings at h
  unfold points
  split at h
  · simp at h
  rw [if_neg ‹_›]
  obtain ⟨hfinal, hall⟩ := replayed_booksInv cfg params delayMs lead lag
  dsimp only at h ⊢
  rw [List.mem_append] at h
  obtain h | h := h
  · obtain ⟨s, hs, hcall⟩ := List.mem_flatMap.mp h
    obtain ⟨hinv, hmem⟩ := (within_booked cfg params (hall s hs)).1 call hcall
    exact ⟨hinv, List.mem_append_left _ (List.mem_cons_of_mem _ (List.mem_flatMap.mpr ⟨s, hs, hmem⟩))⟩
  · simp only [List.mem_cons, List.not_mem_nil, or_false] at h
    obtain rfl | rfl := h
    · exact ⟨hfinal, List.mem_append_right _ (List.mem_cons_self ..)⟩
    · exact ⟨(handleFill_booked params hfinal _).1,
        List.mem_append_right _ (List.mem_cons_of_mem _ (List.mem_cons_self ..))⟩

/-- When no call of a run closes a round trip, its books stay the ones it started with. -/
lemma points_unbooked {delayMs : Int} {lead lag : List BinaryTick}
    (hopen : ∀ call ∈ allClosings cfg params delayMs lead lag, call.closes params = false) :
    ∀ s ∈ points cfg params delayMs lead lag, s.books = Books.start (params.quantity * 1000) := by
  unfold allClosings at hopen
  unfold points
  split at hopen
  · simp [*]
  rw [if_neg ‹_›]
  dsimp only at hopen ⊢
  rw [List.forall_mem_append] at hopen
  obtain ⟨hloop, hend⟩ := hopen
  have hstep : ∀ s ∈ Loop.visits (next cfg params) (lead.length + lag.length)
      (start params delayMs lead lag),
      s.BooksInv (params.commissionPerLot * params.quantity) →
      ∀ u ∈ s.within cfg params, u.BooksInv (params.commissionPerLot * params.quantity) ∧
        u.books = s.books := by
    intro s hs hinv u hu
    obtain ⟨hu, hsame⟩ := (within_booked cfg params hinv).2 u hu
    exact ⟨hu, hsame (fun call hcall => hloop call (List.mem_flatMap.mpr ⟨s, hs, hcall⟩))⟩
  obtain ⟨⟨hinv, hbooks⟩, hall⟩ := Loop.run_invariant_along
    (I := fun s : Replay => s.BooksInv (params.commissionPerLot * params.quantity) ∧
      s.books = Books.start (params.quantity * 1000))
    ⟨start_booksInv params delayMs lead lag, rfl⟩ (fun s hs u h hu =>
      have hnext := hstep s hs h.1 u (next_mem_within cfg params hu)
      ⟨hnext.1, hnext.2.trans h.2⟩)
  simp only [List.forall_mem_cons, List.not_mem_nil, IsEmpty.forall_iff, implies_true, and_true] at hend
  obtain ⟨hinv', hfill⟩ := handleFill_booked params hinv (replayed cfg params delayMs lead lag).drainMs
  have hdrained := (hfill.of_open hend.1).trans hbooks
  intro u hu
  rw [List.mem_append] at hu
  obtain hu | hu := hu
  · obtain rfl | hu := List.mem_cons.mp hu
    · rfl
    · obtain ⟨s, hs, hu⟩ := List.mem_flatMap.mp hu
      obtain ⟨hs', hb⟩ := hall s hs
      exact (hstep s hs hs' u hu).2.trans hb
  · simp only [List.mem_cons, List.not_mem_nil, or_false] at hu
    obtain rfl | rfl := hu
    · exact hdrained
    · exact ((forceClose_booked params hinv' _).2.of_open hend.2).trans hdrained

/-! ## Trades are only added -/

lemma handleFill_grown (s : Replay) (nowMs : Int) : Grown s.books (s.handleFill params nowMs).books := by
  obtain ⟨-, hsame, -⟩ | ⟨-, -, tr, hbook, -⟩ := s.handleFill_books params nowMs
  · rw [hsame]
    exact .refl
  · rw [hbook]
    exact Grown.booked _ tr _

lemma closeOpen_grown (s : Replay) (nowMs : Int) (curLead curBid curAsk : ℚ) (force : Bool) :
    Grown s.books (s.closeOpen params nowMs curLead curBid curAsk force).books := by
  obtain ⟨-, hsame⟩ | ⟨p, tr, -, -, hbook, -⟩ :=
    s.closeOpen_books params nowMs curLead curBid curAsk force
  · rw [hsame]
    exact .refl
  · rw [hbook]
    exact Grown.booked _ tr _

lemma ride_grown (s : Replay) (nowMs : Int) : Grown s.books (s.ride params nowMs).books := by
  unfold ride
  split
  · exact closeOpen_grown params s nowMs _ _ _ _
  · exact .refl

lemma forceClose_grown (s : Replay) (nowMs : Int) : Grown s.books (s.forceClose params nowMs).books := by
  unfold forceClose
  split
  · exact .refl
  · dsimp only
    split
    · rename_i p _ _
      exact closeOpen_grown params { s with lastBid := p.price, lastAsk := p.price } nowMs _ _ _ _
    · exact closeOpen_grown params s nowMs _ _ _ _

lemma next_grown {t : Replay} (h : next cfg params s = some t) : Grown s.books t.books := by
  obtain ⟨tick, taken, hp, rfl⟩ | ⟨tick, taken, hp, rfl⟩ := next_cases cfg params h
  · rw [(taken.leadTick_books tick).1, (pick_books hp).1]
    exact .refl
  · rw [← (pick_books hp).1]
    unfold lagTick
    split
    · exact .refl
    · change Grown _ (evaluateQuote cfg _ tick.tsMs).books
      rw [(evaluateQuote_books cfg _ tick.tsMs).1]
      have hfill := (taken.quoted tick).handleFill_grown params tick.tsMs
      exact hfill.trans (ride_grown params _ tick.tsMs)

lemma run_grown (s : Replay) (fuel : Nat) :
    Grown s.books (Loop.run (next cfg params) fuel s).books :=
  (Loop.run_invariant (I := fun t : Replay => Grown s.books t.books)
    (fun _ _ h hs => h.trans (next_grown cfg params hs)) .refl fuel).1

/-- The state after a run over two streams with ticks. -/
def ended (delayMs : Int) (lead lag : List BinaryTick) : Replay :=
  let s := replayed cfg params delayMs lead lag
  (s.handleFill params s.drainMs).forceClose params (s.drainMs + 1)

/-- The books at the end of a run hold trades booked one after the other. -/
lemma ended_grown (delayMs : Int) (lead lag : List BinaryTick) :
    Grown (Books.start (params.quantity * 1000)) (ended cfg params delayMs lead lag).books := by
  have hrun := run_grown cfg params (start params delayMs lead lag) (lead.length + lag.length)
  have hdrain := handleFill_grown params (replayed cfg params delayMs lead lag)
    (replayed cfg params delayMs lead lag).drainMs
  exact (hrun.trans hdrain).trans (forceClose_grown params _ _)

/-- The P&L that the strategy saw, the equity gained and the P&L of the trades are one number. -/
def LedgersAgree (s : Replay) : Prop :=
  s.strategy.dayPnl = s.equity - s.out.initialCapital ∧
    s.equity - s.out.initialCapital = totalPnl s.out.trades

instance (s : Replay) : Decidable s.LedgersAgree := by
  unfold LedgersAgree
  infer_instance

lemma ledgersAgree_iff (h : s.BooksInv comm) : s.LedgersAgree ↔ comm = 0 ∨ s.out.fills = 0 := by
  have hday : s.strategy.dayPnl = s.equity - s.out.initialCapital - comm * s.out.fills := h.sound.day
  have htotal : s.equity = s.out.initialCapital + totalPnl s.out.trades := h.sound.total
  have hzero : comm * s.out.fills = 0 ↔ comm = 0 ∨ s.out.fills = 0 := by
    rw [mul_eq_zero, Nat.cast_eq_zero]
  rw [LedgersAgree, ← hzero]
  constructor
  · rintro ⟨hagree, -⟩
    linarith
  · intro hnone
    exact ⟨by linarith, by linarith⟩

/-- For every configuration, parameters, delay and streams: the two ledgers agree at every point of
the run exactly when orders are free of commission or no call of the run closes a round trip. Every
commission is taken off the strategy's ledger a second time. -/
theorem ledgers_agree_iff (delayMs : Int) (lead lag : List BinaryTick) :
    (∀ s ∈ points cfg params delayMs lead lag, s.LedgersAgree) ↔
      params.commissionPerLot * params.quantity = 0 ∨
        ∀ call ∈ allClosings cfg params delayMs lead lag, call.closes params = false := by
  constructor
  · intro hagree
    by_contra hno
    obtain ⟨hcomm, hcloses⟩ := not_or.mp hno
    push Not at hcloses
    obtain ⟨call, hcall, hyes⟩ := hcloses
    obtain ⟨hinv, hmem⟩ := mem_points cfg params hcall
    obtain ⟨hresult, hbooked⟩ := call.booked params hinv
    obtain hzero | hfills := (ledgersAgree_iff hresult).mp (hagree _ hmem)
    · exact hcomm hzero
    · obtain ⟨hno, -⟩ | ⟨-, tr, hbook⟩ := hbooked
      · exact hyes hno
      · have hcount : (call.result params).out.fills = call.state.books.fills + 1 :=
          congrArg Books.fills hbook
        omega
  · rintro (hcomm | hopen) s hs
    · exact (ledgersAgree_iff (points_booksInv cfg params delayMs lead lag s hs)).mpr (.inl hcomm)
    · refine (ledgersAgree_iff (points_booksInv cfg params delayMs lead lag s hs)).mpr (.inr ?_)
      exact congrArg Books.fills (points_unbooked cfg params hopen s hs)

/-- One round trip that loses 1 and pays a commission of 7: the account lost 8, the strategy sees 15. -/
theorem commission_counted_twice :
    ((points { maxOrdersPerInterval := 1 } { commissionPerLot := 7, pnlModel := .instant } 5 minuteLead
        minuteLag).getLast?.map
      (fun s => (s.strategy.dayPnl, s.equity - s.out.initialCapital, totalPnl s.out.trades))) =
        some (-15, -8, -8) ∧
      ¬∀ s ∈ points { maxOrdersPerInterval := 1 } { commissionPerLot := 7, pnlModel := .instant } 5
        minuteLead minuteLag, s.LedgersAgree := by
  constructor <;> decide +kernel

/-- The accounting identities of the result, in both P&L models. Only the final equity of a replay
without ticks is not an equity: the early return leaves it at 0. -/
theorem result_identities (delayMs : Int) (lead lag : List BinaryTick) :
    let r := runImpl cfg params delayMs lead lag
    r.trades.length = r.fills ∧
      (∀ i tr, r.trades[i]? = some tr →
        tr.equityAfter = r.initialCapital + totalPnl (r.trades.take (i + 1))) ∧
      r.finalEquity = (if lead = [] ∨ lag = [] then 0 else r.initialCapital + r.totalPnl) ∧
      r.totalPnl = r.grossProfit - r.grossLoss ∧ 0 ≤ r.grossProfit ∧ 0 ≤ r.grossLoss ∧
      IsGreatest (drops (equityCurve r.initialCapital r.trades)) r.maxDrawdown ∧
      ∃ top, FirstReached (equityCurve r.initialCapital r.trades) r.maxDrawdown top ∧
        r.maxDrawdownPct = if 0 < top then 100 * (r.maxDrawdown / top) else 0 := by
  intro r
  have hpct : ∀ drop top : ℚ, drawdownPct drop top = if 0 < top then 100 * (drop / top) else 0 := by
    intro drop top
    rw [drawdownPct, mul_comm]
  by_cases hempty : lead = [] ∨ lag = []
  · have hr : r = { delayMs := delayMs, initialCapital := params.quantity * 1000 } := if_pos hempty
    obtain ⟨top, hrecords, htop⟩ := (Books.start_sound (params.quantity * 1000) 0).drawdown
    rw [hr, if_pos hempty]
    exact ⟨rfl, by simp, rfl, by simp, le_rfl, le_rfl, hrecords.worst, top, hrecords.top,
      htop.trans (hpct _ _)⟩
  · obtain ⟨hfinal, -⟩ := replayed_booksInv cfg params delayMs lead lag
    set s := replayed cfg params delayMs lead lag
    have hsound := (forceClose_booked params (handleFill_booked params hfinal s.drainMs).1
      (s.drainMs + 1)).1.sound
    set closed := (s.handleFill params s.drainMs).forceClose params (s.drainMs + 1)
    have hr : r = closed.finish := if_neg hempty
    obtain ⟨top, hrecords, htop⟩ := hsound.drawdown
    rw [hr, if_neg hempty]
    refine ⟨hsound.count, hsound.running, ?_, hsound.gross, hsound.profit, hsound.loss, hrecords.worst,
      top, hrecords.top, htop.trans (hpct _ _)⟩
    rw [finish]
    ring

/-- Without a lag tick the initial capital is reported with a final equity of 0. -/
theorem empty_replay_final_equity :
    let r := runImpl {} {} 5 minuteLead []
    r.finalEquity ≠ r.initialCapital + r.totalPnl := by
  decide +kernel

end Replay

end LatencyArb
