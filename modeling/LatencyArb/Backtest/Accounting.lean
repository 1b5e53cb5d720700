import LatencyArb.Backtest.Replay

/-!
# The accounts of a replay

`Ledger` is what a replay does with its orders and lots, apart from prices. Every function of the
replay acts on it by one of its five operations or not at all; the counters of the result are
related through it.
-/

namespace LatencyArb

/-- The orders of a replay: their counts, the lots they take, and where the unfinished ones are. -/
structure Ledger where
  signals : Nat
  fills : Nat
  rejections : Nat
  lots : Int
  pending : Option PendingOrder
  held : Bool

namespace Ledger

def place (l : Ledger) (order : PendingOrder) : Ledger :=
  { l with signals := l.signals + 1, lots := l.lots + 1, pending := some order }

def reject (l : Ledger) : Ledger := { l with rejections := l.rejections + 1, pending := none }

/-- A fill becomes the held position, whatever was held before. -/
def hold (l : Ledger) : Ledger := { l with pending := none, held := true }

def returnLot (lots : Int) : Int := if 0 < lots then lots - 1 else lots

def settle (l : Ledger) : Ledger :=
  { l with fills := l.fills + 1, pending := none, lots := returnLot l.lots }

def close (l : Ledger) : Ledger :=
  { l with fills := l.fills + 1, held := false, lots := returnLot l.lots }

/-- The orders that are neither counted as filled or rejected, nor pending, nor held. -/
def lost (l : Ledger) : Int :=
  l.signals - l.fills - l.rejections - l.pending.isSome.toNat - l.held.toNat

/-- No order is booked twice, and every order not counted as filled has a lot. -/
structure Sound (l : Ledger) : Prop where
  lost : 0 ≤ l.lost
  lots : l.lots = l.signals - l.fills

variable {l : Ledger}

lemma lost_place (h : l.pending = none) (order : PendingOrder) : (l.place order).lost = l.lost := by
  simp only [Ledger.lost, place, h, Option.isSome_some, Option.isSome_none, Bool.toNat_true,
    Bool.toNat_false]
  omega

lemma lost_reject (h : l.pending.isSome = true) : l.reject.lost = l.lost := by
  simp only [Ledger.lost, reject, h, Option.isSome_none, Bool.toNat_true, Bool.toNat_false]
  omega

lemma lost_hold (h : l.pending.isSome = true) : l.hold.lost = l.lost + l.held.toNat := by
  simp only [Ledger.lost, hold, h, Option.isSome_none, Bool.toNat_true, Bool.toNat_false]
  omega

lemma lost_settle (h : l.pending.isSome = true) : l.settle.lost = l.lost := by
  simp only [Ledger.lost, settle, h, Option.isSome_none, Bool.toNat_true, Bool.toNat_false]
  omega

lemma lost_close (h : l.held = true) : l.close.lost = l.lost := by
  simp only [Ledger.lost, close, h, Bool.toNat_true, Bool.toNat_false]
  omega

lemma returnLot_eq (h : l.Sound) (hunfinished : l.pending.isSome = true ∨ l.held = true) :
    returnLot l.lots = l.signals - (l.fills + 1 : Nat) := by
  have hlost := h.lost
  have hlots := h.lots
  have hpos : 0 < l.lots := by
    unfold Ledger.lost at hlost
    obtain hp | hh := hunfinished
    · rw [hp, Bool.toNat_true] at hlost
      omega
    · rw [hh, Bool.toNat_true] at hlost
      omega
  rw [returnLot, if_pos hpos]
  omega

lemma Sound.place (h : l.Sound) (hp : l.pending = none) (order : PendingOrder) :
    (l.place order).Sound := by
  refine ⟨(lost_place hp order).symm ▸ h.lost, ?_⟩
  have hlots := h.lots
  simp only [Ledger.place]
  omega

lemma Sound.reject (h : l.Sound) (hp : l.pending.isSome = true) : l.reject.Sound :=
  ⟨(lost_reject hp).symm ▸ h.lost, h.lots⟩

lemma Sound.hold (h : l.Sound) (hp : l.pending.isSome = true) : l.hold.Sound := by
  refine ⟨?_, h.lots⟩
  have hlost := h.lost
  rw [lost_hold hp]
  omega

lemma Sound.settle (h : l.Sound) (hp : l.pending.isSome = true) : l.settle.Sound :=
  ⟨(lost_settle hp).symm ▸ h.lost, returnLot_eq h (.inl hp)⟩

lemma Sound.close (h : l.Sound) (hh : l.held = true) : l.close.Sound :=
  ⟨(lost_close hh).symm ▸ h.lost, returnLot_eq h (.inr hh)⟩

end Ledger

namespace Replay

open ExecutionSimulator

variable (cfg : Config) (params : ExecutionParams)

def ledger (s : Replay) : Ledger where
  signals := s.out.signalsEmitted
  fills := s.out.fills
  rejections := s.out.rejections
  lots := s.strategy.openLots
  pending := s.sim.pending
  held := s.held.isSome

/-- What orders and positions never change. -/
structure Header where
  lead : List BinaryTick
  lag : List BinaryTick
  endTsMs : Int
  delayMs : Int
  params : ExecutionParams

def header (s : Replay) : Header := ⟨s.lead, s.lag, s.out.endTsMs, s.out.delayMs, s.sim.params⟩

/-- The fill that `handle_fill` would produce now is a rejection. -/
def rejects (s : Replay) (nowMs : Int) : Bool :=
  match s.sim.due nowMs with
  | none => false
  | some order => decide (MeetsRejection s.sim.params order.side s.lagBid s.lagAsk)

/-- `handle_fill` would now fill an order while another position is held. -/
def overwrites (s : Replay) (nowMs : Int) : Bool :=
  decide (params.pnlModel = .holdConvergence) && s.held.isSome && (s.sim.due nowMs).isSome &&
    !s.rejects nowMs

lemma recordTrade_same (s : Replay) (tr : Trade) :
    (s.recordTrade tr).ledger = s.ledger ∧ (s.recordTrade tr).header = s.header := by
  unfold recordTrade
  dsimp only
  split <;> exact ⟨rfl, rfl⟩

lemma realize_ledger (s : Replay) (pnl : ℚ) :
    (s.realize pnl).ledger = { s.ledger with fills := s.ledger.fills + 1 } := rfl

lemma realize_header (s : Replay) (pnl : ℚ) : (s.realize pnl).header = s.header := rfl

lemma orderClosed_ledger (s : Replay) (pnl comm : ℚ) :
    (s.orderClosed pnl comm).ledger =
      { s.ledger with lots := Ledger.returnLot s.ledger.lots } := rfl

lemma orderClosed_header (s : Replay) (pnl comm : ℚ) :
    (s.orderClosed pnl comm).header = s.header := rfl

lemma release_ledger (s : Replay) :
    ({ s with held := none } : Replay).ledger = { s.ledger with held := false } := rfl

lemma release_header (s : Replay) : ({ s with held := none } : Replay).header = s.header := rfl

lemma closeOpen_cases (s : Replay) (nowMs : Int) (curLead curBid curAsk : ℚ) (force : Bool) :
    (s.closeOpen params nowMs curLead curBid curAsk force).header = s.header ∧
      ((s.closeOpen params nowMs curLead curBid curAsk force).ledger = s.ledger ∨
        s.held.isSome = true ∧
          (s.closeOpen params nowMs curLead curBid curAsk force).ledger = s.ledger.close) := by
  unfold closeOpen
  cases hh : s.held with
  | none => exact ⟨rfl, .inl rfl⟩
  | some p =>
    dsimp only
    split
    · exact ⟨rfl, .inl rfl⟩
    · refine ⟨?_, .inr ⟨rfl, ?_⟩⟩
      · rw [release_header, orderClosed_header, (recordTrade_same _ _).2, realize_header]
      · rw [release_ledger, orderClosed_ledger, (recordTrade_same _ _).1, realize_ledger, Ledger.close]

lemma closeOpen_force (s : Replay) (nowMs : Int) (curLead curBid curAsk : ℚ)
    (h : s.held.isSome = true) :
    (s.closeOpen params nowMs curLead curBid curAsk true).ledger = s.ledger.close := by
  unfold closeOpen
  cases hh : s.held with
  | none =>
    rw [hh] at h
    cases h
  | some p =>
    dsimp only
    rw [if_neg (by simp [mustClose]), release_ledger, orderClosed_ledger, (recordTrade_same _ _).1,
      realize_ledger, Ledger.close]

lemma instantTrade_ledger (s : Replay) (f : Fill) :
    (s.instantTrade f).ledger =
        { s.ledger with
          fills := s.ledger.fills + 1, lots := Ledger.returnLot s.ledger.lots } ∧
      (s.instantTrade f).header = s.header := by
  unfold instantTrade
  constructor
  · rw [(recordTrade_same _ _).1, orderClosed_ledger, realize_ledger]
  · rw [(recordTrade_same _ _).2, orderClosed_header, realize_header]

lemma fill_of_due {s : Replay} {nowMs : Int} {order : PendingOrder}
    (hd : s.sim.due nowMs = some order) : ∃ fill : Fill,
      s.sim.atFill nowMs s.lagBid s.lagAsk = ({ s.sim with pending := none }, some fill) ∧
        fill.rejected = s.rejects nowMs ∧ fill.filled = !s.rejects nowMs := by
  obtain ⟨fill, hfill, hreject, hfilled⟩ := atFill_of_due hd s.lagBid s.lagAsk
  have hrejects : fill.rejected = s.rejects nowMs := by
    rw [rejects, hd, Bool.eq_iff_iff, decide_eq_true_eq]
    exact hreject
  exact ⟨fill, hfill, hrejects, hrejects ▸ hfilled⟩

lemma pending_of_due {s : Replay} {nowMs : Int} {order : PendingOrder}
    (hd : s.sim.due nowMs = some order) : s.ledger.pending.isSome = true := by
  rw [ledger, (Option.filter_eq_some_iff.mp hd).1]
  rfl

/-- The slot of the simulator is empty. -/
def cleared (s : Replay) : Replay := { s with sim := { s.sim with pending := none } }

/-- All that `handle_fill` can do: nothing without a due order, else it takes the order out of the slot
and rejects it, holds it or books its round trip. -/
lemma handleFill_spec (s : Replay) (nowMs : Int) :
    (s.sim.due nowMs = none ∧ s.handleFill params nowMs = s) ∨
      ∃ order f, s.sim.due nowMs = some order ∧
        s.sim.atFill nowMs s.lagBid s.lagAsk = ({ s.sim with pending := none }, some f) ∧
        (s.rejects nowMs = true ∧ f.filled = false ∧
            s.handleFill params nowMs =
              { s.cleared with out := { s.out with rejections := s.out.rejections + 1 } } ∨
          s.rejects nowMs = false ∧ f.filled = true ∧
            s.handleFill params nowMs =
              if params.pnlModel = .holdConvergence then s.cleared.openPosition f
              else s.cleared.instantTrade f) := by
  unfold handleFill
  cases hd : s.sim.due nowMs with
  | none =>
    left
    rw [atFill_of_not_due hd]
    exact ⟨rfl, rfl⟩
  | some order =>
    right
    obtain ⟨fill, hfill, -, hfilled⟩ := fill_of_due hd
    refine ⟨order, fill, rfl, hfill, ?_⟩
    rw [hfill]
    dsimp only
    rw [hfilled]
    cases s.rejects nowMs with
    | true => exact .inl ⟨rfl, rfl, rfl⟩
    | false => exact .inr ⟨rfl, rfl, rfl⟩

/-- What `handle_fill` does to the accounts. -/
lemma handleFill_cases (s : Replay) (nowMs : Int) :
    (s.sim.due nowMs = none ∧ s.handleFill params nowMs = s) ∨
      ∃ order, s.sim.due nowMs = some order ∧
        (s.handleFill params nowMs).header = s.header ∧
        (s.rejects nowMs = true ∧ (s.handleFill params nowMs).ledger = s.ledger.reject ∨
          s.rejects nowMs = false ∧
            (s.handleFill params nowMs).ledger =
              if params.pnlModel = .holdConvergence then s.ledger.hold else s.ledger.settle) := by
  obtain hidle | ⟨order, f, hd, -, hcase⟩ := s.handleFill_spec params nowMs
  · exact .inl hidle
  · refine .inr ⟨order, hd, ?_⟩
    obtain ⟨hr, -, heq⟩ | ⟨hr, -, heq⟩ := hcase
    · rw [heq]
      exact ⟨rfl, .inl ⟨hr, rfl⟩⟩
    · rw [heq]
      by_cases hmodel : params.pnlModel = .holdConvergence
      · rw [if_pos hmodel, if_pos hmodel]
        exact ⟨rfl, .inr ⟨hr, rfl⟩⟩
      · rw [if_neg hmodel, if_neg hmodel]
        obtain ⟨hledger, hheader⟩ := s.cleared.instantTrade_ledger f
        exact ⟨hheader, .inr ⟨hr, hledger⟩⟩

/-- All that the evaluation of a quote can do: nothing, or place one order. -/
lemma evaluateQuote_cases (s : Replay) (nowMs : Int) :
    (s.evaluateQuote cfg nowMs).header = s.header ∧
      ((s.evaluateQuote cfg nowMs).ledger = s.ledger ∨
        s.sim.pending = none ∧ s.strategy.openLots < cfg.maxOpenLots ∧ ∃ order : PendingOrder,
          order.targetFillTsMs = nowMs + s.sim.params.delayMs ∧
          (s.evaluateQuote cfg nowMs).ledger = s.ledger.place order) := by
  unfold evaluateQuote
  split
  swap
  · exact ⟨rfl, .inl rfl⟩
  dsimp only
  generalize ({ tsMs := nowMs, bid := s.lagBid, ask := s.lagAsk, spread := s.lagAsk - s.lagBid,
                valid := 1 } : BrokerQuote) = q
  obtain hemit | ⟨-, hgate, hemit⟩ :=
    s.strategy.maybeEmit_cases cfg (Strategy.evaluate cfg s.leadMid q).1 s.leadMid q nowMs
  · rw [hemit]
    exact ⟨rfl, .inl rfl⟩
  · rw [hemit]
    dsimp only
    generalize (Strategy.signalOf cfg _ s.leadMid q nowMs).side = side
    cases hsubmit : (s.sim.submit side nowMs s.leadMid s.lagBid s.lagAsk).2 with
    | false =>
      simp only [Bool.false_eq_true, if_false, submit_of_false hsubmit]
      exact ⟨rfl, .inl rfl⟩
    | true =>
      obtain ⟨hempty, order, horder, htarget⟩ := submit_of_true hsubmit
      simp only [if_true, horder]
      exact ⟨rfl, .inr ⟨hempty, Strategy.lots_of_canTradeNow hgate, order, htarget, rfl⟩⟩

/-! ## What an iteration does to the accounts -/

lemma handleFill_lost (s : Replay) (nowMs : Int) :
    (s.handleFill params nowMs).ledger.lost =
      s.ledger.lost + (s.overwrites params nowMs).toNat := by
  unfold overwrites
  obtain ⟨hd, hsame⟩ | ⟨order, hd, -, hcase⟩ := s.handleFill_cases params nowMs
  · simp [hd, hsame]
  have hp := pending_of_due hd
  obtain ⟨hr, hl⟩ | ⟨hr, hl⟩ := hcase
  · rw [hl, Ledger.lost_reject hp]
    simp [hr]
  · rw [hl]
    by_cases hmodel : params.pnlModel = .holdConvergence
    · rw [if_pos hmodel, Ledger.lost_hold hp]
      simp [hmodel, hd, hr, ledger]
    · rw [if_neg hmodel, Ledger.lost_settle hp]
      simp [hmodel]

lemma handleFill_header (s : Replay) (nowMs : Int) :
    (s.handleFill params nowMs).header = s.header := by
  obtain ⟨-, hsame⟩ | ⟨-, -, hh, -⟩ := s.handleFill_cases params nowMs
  · rw [hsame]
  · exact hh

lemma ride_cases (s : Replay) (nowMs : Int) :
    (s.ride params nowMs).header = s.header ∧
      ((s.ride params nowMs).ledger = s.ledger ∨
        s.held.isSome = true ∧ (s.ride params nowMs).ledger = s.ledger.close) := by
  unfold ride
  split
  · exact closeOpen_cases params s nowMs s.leadMid s.lagBid s.lagAsk false
  · exact ⟨rfl, .inl rfl⟩

lemma ride_lost (s : Replay) (nowMs : Int) :
    (s.ride params nowMs).ledger.lost = s.ledger.lost := by
  obtain hl | ⟨hh, hl⟩ := (s.ride_cases params nowMs).2
  · rw [hl]
  · rw [hl, Ledger.lost_close hh]

lemma evaluateQuote_lost (s : Replay) (nowMs : Int) :
    (s.evaluateQuote cfg nowMs).ledger.lost = s.ledger.lost := by
  obtain hl | ⟨hp, -, order, -, hl⟩ := (s.evaluateQuote_cases cfg nowMs).2
  · rw [hl]
  · rw [hl, Ledger.lost_place hp]

/-- What holds of the state between two iterations. -/
structure LoopInv (s : Replay) : Prop where
  sound : s.ledger.Sound
  due : ∀ order, s.ledger.pending = some order →
    order.targetFillTsMs ≤ s.header.endTsMs + s.header.delayMs
  lag : ∀ t ∈ s.header.lag, t.tsMs ≤ s.header.endTsMs
  delay : s.header.params.delayMs = s.header.delayMs

lemma LoopInv.same {s s' : Replay} (h : s.LoopInv) (hl : s'.ledger = s.ledger)
    (hh : s'.header = s.header) : s'.LoopInv :=
  ⟨hl ▸ h.sound, hh ▸ hl ▸ h.due, hh ▸ h.lag, hh ▸ h.delay⟩

lemma LoopInv.handleFill {s : Replay} (h : s.LoopInv) (nowMs : Int) :
    (s.handleFill params nowMs).LoopInv := by
  obtain ⟨-, hsame⟩ | ⟨order, hd, hh, hcase⟩ := s.handleFill_cases params nowMs
  · exact h.same (by rw [hsame]) (by rw [hsame])
  have hp := pending_of_due hd
  obtain ⟨-, hl⟩ | ⟨-, hl⟩ := hcase
  · exact ⟨hl ▸ h.sound.reject hp, by simp [hl, Ledger.reject], hh ▸ h.lag, hh ▸ h.delay⟩
  · by_cases hmodel : params.pnlModel = .holdConvergence
    · rw [if_pos hmodel] at hl
      exact ⟨hl ▸ h.sound.hold hp, by simp [hl, Ledger.hold], hh ▸ h.lag, hh ▸ h.delay⟩
    · rw [if_neg hmodel] at hl
      exact ⟨hl ▸ h.sound.settle hp, by simp [hl, Ledger.settle], hh ▸ h.lag, hh ▸ h.delay⟩

lemma LoopInv.ride {s : Replay} (h : s.LoopInv) (nowMs : Int) :
    (s.ride params nowMs).LoopInv := by
  obtain ⟨hh, hl | ⟨hheld, hl⟩⟩ := s.ride_cases params nowMs
  · exact h.same hl hh
  · exact ⟨hl ▸ h.sound.close hheld, hh ▸ hl ▸ h.due, hh ▸ h.lag, hh ▸ h.delay⟩

lemma LoopInv.evaluateQuote {s : Replay} (h : s.LoopInv) {nowMs : Int}
    (hnow : nowMs ≤ s.header.endTsMs) : (s.evaluateQuote cfg nowMs).LoopInv := by
  obtain ⟨hh, hl | ⟨hp, -, order, htarget, hl⟩⟩ := s.evaluateQuote_cases cfg nowMs
  · exact h.same hl hh
  · refine ⟨hl ▸ h.sound.place hp order, ?_, hh ▸ h.lag, hh ▸ h.delay⟩
    intro order' ho
    rw [hl, Ledger.place, Option.some.injEq] at ho
    have hdelay : s.sim.params.delayMs = s.header.delayMs := h.delay
    rw [← ho, htarget, hh, hdelay]
    omega

/-! ## The calls of `handle_fill` -/

/-- The call of `handle_fill` that the next iteration makes. -/
def fillCall (s : Replay) : Option (Replay × Int) :=
  match s.pick with
  | some (.lag, t, s) => if t.isValid then some (s.quoted t, t.tsMs) else none
  | _ => none

/-- All calls of `handle_fill` in a run: the state it is called in, and the time. -/
def fillCalls (delayMs : Int) (lead lag : List BinaryTick) : List (Replay × Int) :=
  if lead = [] ∨ lag = [] then []
  else
    let s := replayed cfg params delayMs lead lag
    (Loop.visits (next cfg params) (lead.length + lag.length)
      (start params delayMs lead lag)).filterMap fillCall ++ [(s, s.drainMs)]

lemma pick_spec {s s' : Replay} {feed : Feed} {t : BinaryTick} (h : s.pick = some (feed, t, s')) :
    s'.ledger = s.ledger ∧ s'.header = { s.header with lead := s'.lead, lag := s'.lag } ∧ s'.lag ⊆ s.lag ∧
      (feed = .lag → t ∈ s.lag) ∧
      s'.lead.length + s'.lag.length < s.lead.length + s.lag.length := by
  unfold pick at h
  cases hlead : s.lead with
  | nil =>
    cases hlag : s.lag with
    | nil => simp [hlead, hlag] at h
    | cons b lag =>
      simp only [hlead, hlag, Option.some.injEq, Prod.mk.injEq] at h
      obtain ⟨-, rfl, rfl⟩ := h
      exact ⟨rfl, rfl, List.subset_cons_self b lag, by simp, by simp⟩
  | cons a lead =>
    cases hlag : s.lag with
    | nil =>
      simp only [hlead, hlag, Option.some.injEq, Prod.mk.injEq] at h
      obtain ⟨rfl, rfl, rfl⟩ := h
      exact ⟨rfl, rfl, List.Subset.refl _, by simp, by simp⟩
    | cons b lag =>
      simp only [hlead, hlag] at h
      split at h <;> simp only [Option.some.injEq, Prod.mk.injEq] at h <;>
        obtain ⟨rfl, rfl, rfl⟩ := h
      · exact ⟨rfl, rfl, List.Subset.refl _, by simp, by simp⟩
      · exact ⟨rfl, rfl, List.subset_cons_self b lag, by simp, by simp⟩

/-- Taking a tick changes the streams only. -/
lemma pick_same {s s' : Replay} {feed : Feed} {t : BinaryTick} (h : s.pick = some (feed, t, s')) :
    s' = { s with lead := s'.lead, lag := s'.lag } := by
  unfold pick at h
  split at h
  · cases h
  · cases h
    rfl
  · cases h
    rfl
  · split at h <;> cases h <;> rfl

/-- An iteration is the turn of one tick of one stream. -/
lemma next_cases {s t : Replay} (h : next cfg params s = some t) :
    (∃ tick taken, s.pick = some (.lead, tick, taken) ∧ t = taken.leadTick tick) ∨
      ∃ tick taken, s.pick = some (.lag, tick, taken) ∧ t = taken.lagTick cfg params tick := by
  unfold next at h
  cases hp : s.pick with
  | none => simp [hp] at h
  | some picked =>
    obtain ⟨feed, tick, taken⟩ := picked
    cases feed with
    | lead =>
      simp only [hp, Option.some.injEq] at h
      exact .inl ⟨tick, taken, rfl, h.symm⟩
    | lag =>
      simp only [hp, Option.some.injEq] at h
      exact .inr ⟨tick, taken, rfl, h.symm⟩

lemma next_eq_none {s : Replay} (h : next cfg params s = none) : s.lead = [] ∧ s.lag = [] := by
  have hpick : s.pick = none := by
    unfold next at h
    cases hp : s.pick with
    | none => rfl
    | some picked =>
      obtain ⟨feed, t, taken⟩ := picked
      cases feed <;> simp [hp] at h
  unfold pick at hpick
  cases hlead : s.lead with
  | nil =>
    cases hlag : s.lag with
    | nil => exact ⟨rfl, rfl⟩
    | cons b lag => simp [hlead, hlag] at hpick
  | cons a lead =>
    cases hlag : s.lag with
    | nil => simp [hlead, hlag] at hpick
    | cons b lag =>
      simp only [hlead, hlag] at hpick
      split at hpick <;> cases hpick

lemma pick_loopInv {s s' : Replay} {feed : Feed} {t : BinaryTick} (h : s.LoopInv)
    (hp : s.pick = some (feed, t, s')) : s'.LoopInv := by
  obtain ⟨hl, hh, hlag, -⟩ := pick_spec hp
  exact ⟨hl ▸ h.sound, by rw [hh, hl]; exact h.due, by rw [hh]; exact fun u hu => h.lag u (hlag hu),
    by rw [hh]; exact h.delay⟩

lemma leadTick_same (s : Replay) (t : BinaryTick) :
    (s.leadTick t).ledger = s.ledger ∧ (s.leadTick t).header = s.header := by
  unfold leadTick
  split <;> exact ⟨rfl, rfl⟩

lemma lagTick_accounts {s : Replay} (h : s.LoopInv) {t : BinaryTick}
    (ht : t.tsMs ≤ s.header.endTsMs) :
    (s.lagTick cfg params t).LoopInv ∧ (s.lagTick cfg params t).ledger.lost =
      s.ledger.lost + (t.isValid && (s.quoted t).overwrites params t.tsMs).toNat := by
  unfold lagTick
  by_cases hvalid : t.isValid = true
  · rw [if_neg (by simp [hvalid]), hvalid, Bool.true_and]
    have hquoted : (s.quoted t).LoopInv := h.same rfl rfl
    have hridden : (((s.quoted t).handleFill params t.tsMs).ride params t.tsMs).LoopInv :=
      (hquoted.handleFill params t.tsMs).ride params t.tsMs
    have hend : (((s.quoted t).handleFill params t.tsMs).ride params t.tsMs).header.endTsMs =
        s.header.endTsMs := by
      rw [(ride_cases _ _ _).1, handleFill_header]
      rfl
    have hevaluated := hridden.evaluateQuote cfg (hend ▸ ht)
    refine ⟨hevaluated.same rfl rfl, ?_⟩
    change (evaluateQuote cfg _ t.tsMs).ledger.lost = _
    rw [evaluateQuote_lost, ride_lost, handleFill_lost]
    rfl
  · have hinvalid : t.isValid = false := by simpa using hvalid
    rw [if_pos (by simp [hinvalid]), hinvalid]
    exact ⟨h, by simp⟩

/-- One iteration keeps the invariant, and loses an order exactly when its call of `handle_fill`
overwrites a held position. -/
lemma next_accounts (s t : Replay) (h : s.LoopInv) (hs : next cfg params s = some t) :
    t.LoopInv ∧ t.ledger.lost = s.ledger.lost +
      ((s.fillCall.map (fun call => overwrites params call.1 call.2)).getD false).toNat := by
  unfold fillCall
  obtain ⟨tick, taken, hp, rfl⟩ | ⟨tick, taken, hp, rfl⟩ := next_cases cfg params hs
  · obtain ⟨hl, -⟩ := pick_spec hp
    obtain ⟨hl', hh'⟩ := taken.leadTick_same tick
    refine ⟨(pick_loopInv h hp).same hl' hh', ?_⟩
    rw [hl', hl, hp]
    simp
  · obtain ⟨hl, hh, -, hmem, -⟩ := pick_spec hp
    have hend : tick.tsMs ≤ taken.header.endTsMs := by
      rw [hh]
      exact h.lag tick (hmem rfl)
    obtain ⟨hinv, hlost⟩ := lagTick_accounts cfg params (pick_loopInv h hp) hend
    refine ⟨hinv, ?_⟩
    rw [hlost, hl, hp]
    dsimp only
    cases tick.isValid <;> simp

/-! ## The accounts of the result -/

lemma getLast_ge {ticks : List BinaryTick} (hsorted : ticks.Pairwise (fun a b => a.tsMs ≤ b.tsMs))
    {t : BinaryTick} (ht : t ∈ ticks) : t.tsMs ≤ ticks.getLast!.tsMs := by
  induction ticks using List.reverseRecOn with
  | nil => simp at ht
  | append_singleton older last _ =>
    have hlast : (older ++ [last]).getLast! = last := by
      rw [List.getLast!_eq_getLast?_getD, List.getLast?_concat]
      rfl
    rw [hlast]
    obtain ht | ht := List.mem_append.mp ht
    · exact (List.pairwise_append.mp hsorted).2.2 t ht last (List.mem_singleton_self last)
    · rw [List.mem_singleton.mp ht]

lemma start_loopInv (delayMs : Int) (lead : List BinaryTick) {lag : List BinaryTick}
    (hlag : lag.Pairwise (fun a b => a.tsMs ≤ b.tsMs)) :
    (start params delayMs lead lag).LoopInv := by
  refine ⟨⟨le_rfl, rfl⟩, by simp [ledger, start], ?_, rfl⟩
  intro t ht
  exact (getLast_ge hlag ht).trans (le_max_right _ _)

lemma lagTick_header (s : Replay) (t : BinaryTick) :
    (s.lagTick cfg params t).header = s.header := by
  unfold lagTick
  split
  · rfl
  · change (evaluateQuote cfg _ t.tsMs).header = _
    rw [(evaluateQuote_cases _ _ _).1, (ride_cases _ _ _).1, handleFill_header]
    rfl

/-- The fuel is enough: the loop consumes both streams. -/
theorem replayed_consumes (delayMs : Int)
    (lead lag : List BinaryTick) :
    (replayed cfg params delayMs lead lag).lead = [] ∧
      (replayed cfg params delayMs lead lag).lag = [] := by
  have hdecreases : ∀ s t : Replay, next cfg params s = some t →
      t.header.lead.length + t.header.lag.length < s.header.lead.length + s.header.lag.length := by
    intro s t hs
    obtain ⟨tick, taken, hp, rfl⟩ | ⟨tick, taken, hp, rfl⟩ := next_cases cfg params hs
    · obtain ⟨-, -, -, -, hlt⟩ := pick_spec hp
      rw [(taken.leadTick_same tick).2]
      exact hlt
    · obtain ⟨-, -, -, -, hlt⟩ := pick_spec hp
      rw [taken.lagTick_header cfg params tick]
      exact hlt
  have hfuel : (start params delayMs lead lag).header.lead.length +
      (start params delayMs lead lag).header.lag.length ≤ lead.length + lag.length := le_rfl
  exact next_eq_none cfg params (Loop.run_terminates
    (fun s : Replay => s.header.lead.length + s.header.lag.length) hdecreases hfuel)

/-- The drain leaves no order pending. -/
lemma drain_pending {s : Replay} (h : s.LoopInv) :
    (s.handleFill params s.drainMs).ledger.pending = none := by
  obtain ⟨hd, hsame⟩ | ⟨order, -, -, hcase⟩ := s.handleFill_cases params s.drainMs
  · rw [hsame]
    cases hp : s.sim.pending with
    | none => exact hp
    | some order =>
      have hle : order.targetFillTsMs ≤ s.out.endTsMs + s.out.delayMs := h.due order hp
      have hdue : order.targetFillTsMs ≤ s.drainMs := by
        unfold drainMs
        omega
      rw [ExecutionSimulator.due, hp, Option.filter_some, decide_eq_true hdue] at hd
      cases hd
  · obtain ⟨-, hl⟩ | ⟨-, hl⟩ := hcase
    · rw [hl, Ledger.reject]
    · rw [hl]
      split
      · rw [Ledger.hold]
      · rw [Ledger.settle]

lemma forceClose_ledger (s : Replay) (nowMs : Int) :
    (s.forceClose params nowMs).ledger = if s.held.isSome then s.ledger.close else s.ledger := by
  unfold forceClose
  split
  case h_1 hnone => rw [hnone]; rfl
  case h_2 p hsome =>
    have hheld : s.held.isSome = true := by rw [hsome]; rfl
    rw [if_pos hheld]
    dsimp only
    split
    · exact closeOpen_force params { s with lastBid := p.price, lastAsk := p.price } nowMs s.lastLead p.price
        p.price hheld
    · exact closeOpen_force params s nowMs s.lastLead s.lastBid s.lastAsk hheld

/-- Once nothing is pending or held, the counters differ by the lost orders. -/
lemma finish_counts {s : Replay} (nowMs : Int) (hp : s.ledger.pending = none) :
    ((s.forceClose params nowMs).finish.signalsEmitted : Int) =
      (s.forceClose params nowMs).finish.fills + (s.forceClose params nowMs).finish.rejections +
        s.ledger.lost := by
  have hl := s.forceClose_ledger params nowMs
  have hdone : (s.forceClose params nowMs).ledger.lost = s.ledger.lost ∧
      (s.forceClose params nowMs).ledger.pending = none ∧
      (s.forceClose params nowMs).ledger.held = false := by
    rw [hl]
    by_cases hheld : s.held.isSome = true
    · rw [if_pos hheld, Ledger.lost_close hheld]
      exact ⟨rfl, hp, rfl⟩
    · rw [if_neg hheld]
      exact ⟨rfl, hp, by simpa [ledger] using hheld⟩
  obtain ⟨hlost, hpending, hheld⟩ := hdone
  rw [← hlost, Ledger.lost, hpending, hheld]
  simp only [ledger, finish, Option.isSome_none, Bool.toNat_false]
  omega

lemma replayed_accounts (delayMs : Int) (lead : List BinaryTick) {lag : List BinaryTick}
    (hlag : lag.Pairwise (fun a b => a.tsMs ≤ b.tsMs)) :
    (replayed cfg params delayMs lead lag).LoopInv ∧
      (replayed cfg params delayMs lead lag).ledger.lost =
        ((Loop.visits (next cfg params) (lead.length + lag.length)
          (start params delayMs lead lag)).filterMap fillCall).countP
            (fun call => overwrites params call.1 call.2) := by
  have hstart := start_loopInv params delayMs lead hlag
  have hcount := Loop.run_count (fun s => s.ledger.lost)
    (next_accounts cfg params) hstart (lead.length + lag.length)
  refine ⟨(Loop.run_invariant (fun s t h hs => (next_accounts cfg params s t h hs).1) hstart _).1, ?_⟩
  rw [List.countP_filterMap]
  simpa [replayed, start, ledger, Ledger.lost] using hcount

/-- For every configuration, parameters, delay and streams with an ordered lag stream: every signal is
a fill or a rejection exactly when no call of `handle_fill` fills an order while another position is
held, for the new position takes the place of the held one. -/
theorem signals_accounted_iff (delayMs : Int)
    (lead lag : List BinaryTick) (hlag : lag.Pairwise (fun a b => a.tsMs ≤ b.tsMs)) :
    (runImpl cfg params delayMs lead lag).signalsEmitted =
        (runImpl cfg params delayMs lead lag).fills +
          (runImpl cfg params delayMs lead lag).rejections ↔
      ∀ call ∈ fillCalls cfg params delayMs lead lag, overwrites params call.1 call.2 = false := by
  unfold runImpl fillCalls
  by_cases hempty : lead = [] ∨ lag = []
  · simp [hempty]
  rw [if_neg hempty, if_neg hempty]
  obtain ⟨hinv, hlost⟩ := replayed_accounts cfg params delayMs lead hlag
  set s := replayed cfg params delayMs lead lag
  have hcounts := finish_counts params (s.drainMs + 1) (drain_pending params hinv)
  rw [handleFill_lost, hlost] at hcounts
  have hall : (∀ call ∈ (Loop.visits (next cfg params) (lead.length + lag.length)
      (start params delayMs lead lag)).filterMap fillCall ++ [(s, s.drainMs)],
        overwrites params call.1 call.2 = false) ↔
      ((Loop.visits (next cfg params) (lead.length + lag.length)
        (start params delayMs lead lag)).filterMap fillCall).countP
          (fun call => overwrites params call.1 call.2) = 0 ∧
        s.overwrites params s.drainMs = false := by
    rw [List.forall_mem_append, List.countP_eq_zero]
    simp
  dsimp only
  rw [hall]
  generalize List.countP _ _ = lostBefore at hcounts ⊢
  cases hdrain : s.overwrites params s.drainMs with
  | false =>
    rw [hdrain, Bool.toNat_false] at hcounts
    rw [and_iff_left rfl]
    constructor <;> intro heq <;> omega
  | true =>
    rw [hdrain, Bool.toNat_true] at hcounts
    simp only [reduceCtorEq, and_false, iff_false]
    intro heq
    omega

/-! ## One lot -/

lemma returnLot_le (lots : Int) : Ledger.returnLot lots ≤ lots := by
  unfold Ledger.returnLot
  split <;> omega

lemma handleFill_lots (s : Replay) (nowMs : Int) :
    (s.handleFill params nowMs).ledger.lots ≤ s.ledger.lots := by
  obtain ⟨-, hsame⟩ | ⟨-, -, -, ⟨-, hl⟩ | ⟨-, hl⟩⟩ := s.handleFill_cases params nowMs
  · rw [hsame]
  · rw [hl, Ledger.reject]
  · rw [hl]
    split
    · rw [Ledger.hold]
    · exact returnLot_le _

lemma ride_lots (s : Replay) (nowMs : Int) :
    (s.ride params nowMs).ledger.lots ≤ s.ledger.lots := by
  obtain hl | ⟨-, hl⟩ := (s.ride_cases params nowMs).2
  · rw [hl]
  · rw [hl]
    exact returnLot_le _

lemma lagTick_lots (hcap : cfg.maxOpenLots ≤ 1) {s : Replay} (h : s.ledger.lots ≤ 1)
    (t : BinaryTick) : (s.lagTick cfg params t).ledger.lots ≤ 1 := by
  unfold lagTick
  split
  · exact h
  · change (evaluateQuote cfg _ t.tsMs).ledger.lots ≤ 1
    have hfilled := (s.quoted t).handleFill_lots params t.tsMs
    have hridden := ((s.quoted t).handleFill params t.tsMs).ride_lots params t.tsMs
    have hquoted : (s.quoted t).ledger.lots ≤ 1 := h
    obtain hl | ⟨-, hgate, order, -, hl⟩ := (evaluateQuote_cases cfg
      (((s.quoted t).handleFill params t.tsMs).ride params t.tsMs) t.tsMs).2
    · rw [hl]
      omega
    · rw [hl]
      simp only [Ledger.place, ledger]
      omega

lemma next_lots (hcap : cfg.maxOpenLots ≤ 1) {s t : Replay} (h : s.ledger.lots ≤ 1)
    (hs : next cfg params s = some t) : t.ledger.lots ≤ 1 := by
  obtain ⟨tick, taken, hp, rfl⟩ | ⟨tick, taken, hp, rfl⟩ := next_cases cfg params hs
  · rw [(taken.leadTick_same tick).1, (pick_spec hp).1]
    exact h
  · have htaken : taken.ledger.lots ≤ 1 := (pick_spec hp).1 ▸ h
    exact lagTick_lots cfg params hcap htaken tick

/-- Whoever has one lot at most does not have both a pending order and a held position. -/
lemma not_overwrites_of_lots {s : Replay} (h : s.ledger.Sound) (hlots : s.ledger.lots ≤ 1)
    (nowMs : Int) : s.overwrites params nowMs = false := by
  by_contra hover
  have hboth : s.ledger.held = true ∧ s.ledger.pending.isSome = true := by
    simp only [overwrites, Bool.not_eq_false, Bool.and_eq_true] at hover
    refine ⟨hover.1.1.2, ?_⟩
    obtain ⟨order, horder⟩ := Option.isSome_iff_exists.mp hover.1.2
    exact pending_of_due horder
  have hlost := h.lost
  have heq := h.lots
  rw [Ledger.lost, hboth.1, hboth.2, Bool.toNat_true] at hlost
  omega

/-- With at most one lot no position is ever overwritten, in either P&L model. -/
theorem no_overwrites_of_single_lot (hcap : cfg.maxOpenLots ≤ 1) (delayMs : Int)
    (lead lag : List BinaryTick) (hlag : lag.Pairwise (fun a b => a.tsMs ≤ b.tsMs)) :
    ∀ call ∈ fillCalls cfg params delayMs lead lag, overwrites params call.1 call.2 = false := by
  intro call hcall
  unfold fillCalls at hcall
  split at hcall
  · simp at hcall
  have hrun := Loop.run_invariant (I := fun s : Replay => s.LoopInv ∧ s.ledger.lots ≤ 1)
    (fun s t h hs => ⟨(next_accounts cfg params s t h.1 hs).1, next_lots cfg params hcap h.2 hs⟩)
    ⟨start_loopInv params delayMs lead hlag, by simp [start, ledger]⟩ (lead.length + lag.length)
  obtain hcall | hcall := List.mem_append.mp hcall
  · obtain ⟨s, hvisited, hs⟩ := List.mem_filterMap.mp hcall
    obtain ⟨hinv, hlots⟩ := hrun.2 s hvisited
    unfold fillCall at hs
    split at hs
    · rename_i t taken hp
      split at hs <;> cases hs
      have htaken := (pick_spec hp).1
      exact not_overwrites_of_lots params (htaken ▸ hinv.sound) (htaken ▸ hlots) t.tsMs
    · cases hs
  · rw [List.mem_singleton.mp hcall]
    exact not_overwrites_of_lots params hrun.1.1.sound hrun.1.2 _

/-- A lead of 102 over an unspread lag feed at 99/100, quoted once a minute. -/
def minuteLead : List BinaryTick := [{ tsMs := 60000, bid := 102, ask := 102, flags := 1 }]

def minuteLag : List BinaryTick :=
  [60000, 120000, 180000].map (fun ts => { tsMs := ts, bid := 99, ask := 100, flags := 1 })

theorem signals_accounted_minute :
    minuteLag.Pairwise (fun a b => a.tsMs ≤ b.tsMs) ∧
      (runImpl {} {} 5 minuteLead minuteLag).signalsEmitted =
        (runImpl {} {} 5 minuteLead minuteLag).fills +
          (runImpl {} {} 5 minuteLead minuteLag).rejections :=
  ⟨by decide, (signals_accounted_iff {} {} 5 minuteLead minuteLag (by decide)).mpr (by decide +kernel)⟩

/-- With two lots the second position replaces the first one: two signals, one fill. -/
theorem signals_lost_with_two_lots :
    minuteLag.Pairwise (fun a b => a.tsMs ≤ b.tsMs) ∧
      (runImpl { maxOpenLots := 2 } {} 5 minuteLead minuteLag).signalsEmitted = 2 ∧
      (runImpl { maxOpenLots := 2 } {} 5 minuteLead minuteLag).fills = 1 ∧
      (runImpl { maxOpenLots := 2 } {} 5 minuteLead minuteLag).rejections = 0 := by
  refine ⟨by decide, ?_, ?_, ?_⟩ <;> decide +kernel

/-! ## The lots of rejected orders -/

/-- If the call rejects an order, it gives back the lot that the order took. -/
def LotReturned (call : Replay × Int) : Prop :=
  ∀ sim fill, call.1.sim.atFill call.2 call.1.lagBid call.1.lagAsk = (sim, some fill) →
    fill.rejected = true →
      (call.1.handleFill params call.2).strategy.openLots = call.1.strategy.openLots - 1

lemma lotReturned_iff (call : Replay × Int) :
    LotReturned params call ↔ call.1.rejects call.2 = false := by
  obtain ⟨s, nowMs⟩ := call
  dsimp only [LotReturned]
  cases hd : s.sim.due nowMs with
  | none =>
    have hnot : s.rejects nowMs = false := by rw [rejects, hd]
    rw [ExecutionSimulator.atFill_of_not_due hd, hnot]
    simp
  | some order =>
    obtain ⟨fill, hfill, hrejects, -⟩ := fill_of_due hd
    constructor
    · intro hreturned
      by_contra hno
      have hrej : s.rejects nowMs = true := by simpa using hno
      have hlot := hreturned _ fill hfill (hrejects.trans hrej)
      obtain ⟨hnone, -⟩ | ⟨-, -, -, hcase⟩ := s.handleFill_cases params nowMs
      · rw [hd] at hnone
        cases hnone
      obtain ⟨-, hl⟩ | ⟨hno', -⟩ := hcase
      · have hkept := congrArg Ledger.lots hl
        simp only [ledger, Ledger.reject] at hkept
        omega
      · exact hno hno'
    · intro hno sim fill' heq hrej
      rw [hfill, Prod.mk.injEq, Option.some.injEq] at heq
      rw [← heq.2, hrejects, hno] at hrej
      cases hrej

/-- For every configuration, parameters, delay and streams: every rejecting call of `handle_fill`
gives its lot back exactly when no call rejects an order, that is when no due order meets one of the
three rejection tests. -/
theorem rejected_lots_returned_iff (delayMs : Int) (lead lag : List BinaryTick) :
    (∀ call ∈ fillCalls cfg params delayMs lead lag, LotReturned params call) ↔
      ∀ call ∈ fillCalls cfg params delayMs lead lag, call.1.rejects call.2 = false := by
  constructor
  · intro h call hcall
    exact (lotReturned_iff params call).mp (h call hcall)
  · intro h call hcall
    exact (lotReturned_iff params call).mpr (h call hcall)

/-- With modelled slippage above its cap the first order is rejected; its lot stays taken, and the
opportunities of the next two minutes are not traded. -/
theorem rejected_lot_is_kept :
    ((fillCalls {} { slippagePts := 5, slippageCapPts := 1 } 5 minuteLead minuteLag).map
      (fun call =>
        (call.1.strategy.openLots,
          (call.1.handleFill { slippagePts := 5, slippageCapPts := 1 } call.2).strategy.openLots,
          call.1.rejects call.2))) =
        [(0, 0, false), (1, 1, true), (1, 1, false), (1, 1, false)] ∧
      (runImpl {} { slippagePts := 5, slippageCapPts := 1 } 5 minuteLead minuteLag).signalsEmitted =
        1 := by
  constructor <;> decide +kernel

end Replay

end LatencyArb
