import LatencyArb.Engine

/-!
# The quote paired with a lead

An iteration with a lead pops one quote. `QuoteStep` says what a step can do to the broker ring;
the unread quotes are the latest ones pushed, and an iteration evaluates the oldest of them.
-/

namespace LatencyArb

namespace Engine

variable {cfg : Config} {utcOffsetS : Int} {boot : ℕ+}

/-- The steps of the engine as the broker ring sees them. -/
inductive QuoteStep (e : Engine) (a : Action) (e' : Engine) : Prop where
  | other (ring : e'.brokerRing = e.brokerRing) (quotes : e'.quotes = e.quotes)
      (empty : ∀ nowMs lead, a = .strategy → e.phase = .popQuote nowMs lead →
        e.brokerRing.unread = [])
  | push (q : BrokerQuote) (valid : q.isValid = true)
      (ring : e'.brokerRing = (e.brokerRing.push q).1) (quotes : e'.quotes = e.quotes ++ [q])
      (arrival : a ≠ .strategy)
  | pop (q : BrokerQuote) (rest : List BrokerQuote) (unread : e.brokerRing.unread = q :: rest)
      (ring : e'.brokerRing = e.brokerRing.pop.1) (quotes : e'.quotes = e.quotes)

lemma brokerFrame_quoteStep (e : Engine) (q : BrokerQuote) :
    QuoteStep e (.brokerFrame q) (e.brokerFrame q) := by
  unfold brokerFrame
  by_cases hq : 0 < q.bid ∧ 0 < q.ask ∧ q.bid ≤ q.ask
  · rw [if_pos hq]
    apply QuoteStep.push { q with valid := 1 } _ rfl rfl (by simp)
    simp [BrokerQuote.isValid, hq.1, hq.2.1]
  · rw [if_neg hq]
    exact .other rfl rfl (by simp)

lemma evaluateQuote_brokerRing (e : Engine) (nowMs : Int) (lead : ℚ) (q : BrokerQuote) :
    (e.evaluateQuote cfg nowMs lead q).brokerRing = e.brokerRing ∧
      (e.evaluateQuote cfg nowMs lead q).quotes = e.quotes := by
  unfold evaluateQuote
  dsimp only
  split <;> exact ⟨rfl, rfl⟩

lemma popQuote_quoteStep (e : Engine) (nowMs : Int) (lead : ℚ) :
    QuoteStep e .strategy (e.popQuote cfg nowMs lead) := by
  cases hu : e.brokerRing.unread with
  | nil =>
    rw [popQuote_of_nil hu]
    exact .other rfl rfl (fun _ _ _ _ => hu)
  | cons q rest =>
    apply QuoteStep.pop q rest hu
    · unfold popQuote
      rw [pop_eq_of_cons hu]
      dsimp only
      split
      · exact (evaluateQuote_brokerRing _ nowMs lead q).1
      · rfl
    · unfold popQuote
      rw [pop_eq_of_cons hu]
      dsimp only
      split
      · exact (evaluateQuote_brokerRing _ nowMs lead q).2
      · rfl

lemma ingest_brokerRing (cfg : Config) (utcOffsetS : Int) (e : Engine) (nowMs : Int) :
    ((e.ingestFast nowMs).brokerRing = e.brokerRing ∧ (e.ingestFast nowMs).quotes = e.quotes) ∧
      (e.ingestDeribit cfg utcOffsetS nowMs).brokerRing = e.brokerRing ∧
      (e.ingestDeribit cfg utcOffsetS nowMs).quotes = e.quotes := by
  constructor
  · unfold ingestFast
    split <;> exact ⟨rfl, rfl⟩
  · unfold ingestDeribit afterUpdate
    split
    · exact ⟨rfl, rfl⟩
    · split <;> exact ⟨rfl, rfl⟩

theorem step_quoteStep {e e' : Engine} {a : Action} (hs : e.step cfg utcOffsetS a = some e') :
    QuoteStep e a e' := by
  cases step_moves hs with
  | brokerFrame q => exact brokerFrame_quoteStep e q
  | leave phase => exact .other rfl rfl (by simp [phase])
  | readClock phase => exact .other rfl rfl (by simp [phase])
  | ingestFast nowMs phase =>
    obtain ⟨⟨hring, hquotes⟩, -⟩ := e.ingest_brokerRing cfg utcOffsetS nowMs
    exact .other hring hquotes (by simp [phase])
  | ingestDeribit nowMs phase =>
    obtain ⟨-, hring, hquotes⟩ := e.ingest_brokerRing cfg utcOffsetS nowMs
    exact .other hring hquotes (by simp [phase])
  | popQuote nowMs lead phase => exact popQuote_quoteStep e nowMs lead
  | submit signal phase => exact .other rfl rfl (by simp [phase])
  | _ => exact .other rfl rfl (by simp)

/-- The unread quotes are the latest ones pushed; after an overflow, none of them. -/
structure QuotesInv (e : Engine) : Prop where
  suffix : e.brokerRing.unread <:+ e.quotes
  valid : ∀ q ∈ e.quotes, q.isValid = true

lemma step_quotesInv {e e' : Engine} {a : Action} (h : e.QuotesInv) (hs : QuoteStep e a e') :
    e'.QuotesInv := by
  cases hs with
  | other ring quotes => exact ⟨by rw [ring, quotes]; exact h.suffix, by rw [quotes]; exact h.valid⟩
  | push q valid ring quotes =>
    constructor
    · rw [ring, quotes]
      by_cases hroom : e.brokerRing.count < 8192 - 1
      · obtain ⟨older, holder⟩ := h.suffix
        rw [(e.brokerRing.push_unread q hroom).1]
        exact ⟨older, by rw [← List.append_assoc, holder]⟩
      · rw [(e.brokerRing.push_full_unread q hroom).1]
        exact List.nil_suffix
    · intro p hp
      rw [quotes] at hp
      obtain hp | hp := List.mem_append.mp hp
      · exact h.valid p hp
      · rw [List.mem_singleton.mp hp]
        exact valid
  | pop q rest unread ring quotes =>
    refine ⟨?_, by rw [quotes]; exact h.valid⟩
    rw [ring, quotes, (e.brokerRing.pop_of_unread_cons unread).1]
    have hsuffix := h.suffix
    rw [unread] at hsuffix
    exact (List.suffix_cons q rest).trans hsuffix

theorem reachable_quotesInv {e : Engine} (h : (machine cfg utcOffsetS boot).Reachable e) :
    e.QuotesInv := by
  refine Machine.invariant _ (I := QuotesInv) ⟨?_, by simp [machine]⟩
    (fun _ _ _ _ hI hs => step_quotesInv hI (step_quoteStep hs)) h
  rw [show (machine cfg utcOffsetS boot).init.brokerRing.unread = [] from SpscRing.init_unread _]
  exact List.nil_suffix

/-- The step evaluates the quote `q` against a lead. -/
def Evaluates (e : Engine) (a : Action) (q : BrokerQuote) : Prop :=
  a = .strategy ∧ (∃ nowMs lead, e.phase = .popQuote nowMs lead) ∧
    e.brokerRing.pop.2 = some q ∧ q.isValid = true

/-- An evaluated quote is the last one pushed, and no newer one is left waiting. -/
def EvaluatesNewest (e : Engine) (a : Action) (e' : Engine) : Prop :=
  ∀ q, e.Evaluates a q → e.quotes.getLast? = some q ∧ e'.brokerRing.unread = []

/-- No quote is waiting besides the one that the iteration pops. -/
def OneWaiting (e : Engine) (a : Action) (_ : Engine) : Prop :=
  a = .strategy → ∀ nowMs lead, e.phase = .popQuote nowMs lead → e.brokerRing.count ≤ 1

lemma evaluatesNewest_iff {e e' : Engine} {a : Action} (h : e.QuotesInv)
    (hs : e.step cfg utcOffsetS a = some e') : EvaluatesNewest e a e' ↔ OneWaiting e a e' := by
  constructor
  · rintro hnewest rfl nowMs lead hp
    cases step_quoteStep hs with
    | other ring quotes empty =>
      rw [← SpscRing.unread_length, empty nowMs lead rfl hp]
      exact Nat.zero_le 1
    | push q valid ring quotes arrival => exact absurd rfl arrival
    | pop q rest unread ring quotes =>
      obtain ⟨hrest, hpop⟩ := e.brokerRing.pop_of_unread_cons unread
      have hvalid := h.valid q (h.suffix.subset (unread ▸ List.mem_cons_self))
      have hleft := (hnewest q ⟨rfl, ⟨nowMs, lead, hp⟩, hpop, hvalid⟩).2
      rw [ring, hrest] at hleft
      rw [← SpscRing.unread_length, unread, hleft]
      rfl
  · rintro hone q ⟨rfl, ⟨nowMs, lead, hp⟩, hpop, hvalid⟩
    have hcount := hone rfl nowMs lead hp
    cases step_quoteStep hs with
    | other ring quotes empty =>
      rw [SpscRing.pop_of_unread_nil _ (empty nowMs lead rfl hp)] at hpop
      cases hpop
    | push q' valid ring quotes arrival => exact absurd rfl arrival
    | pop q' rest unread ring quotes =>
      obtain ⟨hrest, hpop'⟩ := e.brokerRing.pop_of_unread_cons unread
      rw [← SpscRing.unread_length, unread, List.length_cons] at hcount
      have hnil : rest = [] := List.eq_nil_of_length_eq_zero (by omega)
      have hsuffix := h.suffix
      obtain rfl : q' = q := Option.some.inj (hpop'.symm.trans hpop)
      rw [unread, hnil] at hsuffix
      obtain ⟨older, hquotes⟩ := hsuffix
      exact ⟨by rw [← hquotes, List.getLast?_concat], by rw [ring, hrest, hnil]⟩

/-- In every run: every evaluated quote is the newest exactly when no iteration that pops finds more
than one quote waiting. A backlog, once there, is worked off one quote an iteration, oldest first. -/
theorem quotes_newest_iff_oneWaiting (cfg : Config) (utcOffsetS : Int) (boot : ℕ+)
    (run : List Action) :
    (machine cfg utcOffsetS boot).Always run EvaluatesNewest ↔
      (machine cfg utcOffsetS boot).Always run OneWaiting :=
  Machine.always_congr _ (fun _ _ _ hr hs => evaluatesNewest_iff (reachable_quotesInv hr) hs) run

/-- Two quotes wait when an iteration has a lead of 102: it evaluates the older one, which the lead
beats, although the newer one would not be traded. -/
def backlog : List Action :=
  [.fastMessage 102 102, .brokerFrame { bid := 99, ask := 100, spread := 1, valid := 1 },
   .brokerFrame { bid := 101, ask := 102, spread := 1, valid := 1 }] ++ List.replicate 6 .strategy

theorem backlog_evaluates_old_quote :
    ((machine {} 0 1000).run (machine {} 0 1000).init backlog).map
      (fun e => (e.submitted.map Signal.brokerAsk, e.quotes.map BrokerQuote.ask,
        e.brokerRing.unread.map BrokerQuote.ask)) = some ([100], [100, 102], [102]) := by
  decide +kernel

end Engine

end LatencyArb
