import LatencyArb.SessionWeights

/-!
# Ticks without a price (`Aggregator::latest_mid`)

A tick can be valid and have no price: `BinanceWs::handle_message` pushes one for a frame whose bid
and ask are missing. It enters the window like any other, and `latest_mid` reads the last tick only.
-/

namespace LatencyArb

namespace Aggregator

def isGood (nowMs : Int) (t : Tick) : Bool := !isStale nowMs t && decide (0 < t.mid)

/-- The most recently received tick that is fresh and has a price. -/
def newestGood (nowMs : Int) (ticks : List Tick) : Option Tick := (ticks.filter (isGood nowMs)).getLast?

/-- What a call has to choose from: the window it finds, and the ticks it takes in. -/
def arrived (venue : UpdateCall → List Tick) (pre : List UpdateCall) (c : UpdateCall) : List Tick :=
  window venue pre ++ (venue c).filter (fun t => t.isValid && !isStale c.nowMs t)

lemma window_concat (venue : UpdateCall → List Tick) (pre : List UpdateCall) (c : UpdateCall) :
    window venue (pre ++ [c]) = pruneOld (arrived venue pre c) c.nowMs := by
  rw [window, List.foldl_append, List.foldl_cons, List.foldl_nil, ← window, ingest, foldl_ingestTick,
    arrived]

lemma isGood_iff {nowMs : Int} {t : Tick} :
    isGood nowMs t = true ↔ isStale nowMs t = false ∧ 0 < t.mid := by
  simp [isGood]

lemma newestGood_isGood {nowMs : Int} {ticks : List Tick} {good : Tick}
    (h : newestGood nowMs ticks = some good) : good ∈ ticks ∧ isGood nowMs good = true :=
  List.mem_filter.mp (List.mem_of_getLast? h)

lemma filter_isGood_pruneOld (nowMs : Int) (ticks : List Tick) :
    (pruneOld ticks nowMs).filter (isGood nowMs) = ticks.filter (isGood nowMs) := by
  induction ticks with
  | nil => rfl
  | cons t rest ih =>
    by_cases hstale : isStale nowMs t = true
    · have hbad : ¬isGood nowMs t = true := by simp [isGood, hstale]
      rw [pruneOld, List.dropWhile_cons_of_pos hstale, ← pruneOld, ih, List.filter_cons_of_neg hbad]
    · rw [pruneOld, List.dropWhile_cons_of_neg hstale]

lemma newestGood_pruneOld (nowMs : Int) (ticks : List Tick) :
    newestGood nowMs (pruneOld ticks nowMs) = newestGood nowMs ticks := by
  rw [newestGood, filter_isGood_pruneOld, newestGood]

lemma newestGood_of_last {nowMs : Int} {ticks : List Tick} {last : Tick}
    (hlast : ticks.getLast? = some last) (hgood : isGood nowMs last = true) :
    newestGood nowMs ticks = some last := by
  obtain ⟨older, rfl⟩ : ∃ older, ticks = older ++ [last] :=
    ⟨ticks.dropLast, (List.dropLast_append_getLast? last hlast).symm⟩
  rw [newestGood, List.filter_append, List.filter_cons_of_pos hgood, List.filter_nil, List.getLast?_concat]

/-- A venue with a good tick is priced at the newest one. -/
def PricesNewestGood (nowMs : Int) (window : List Tick) : Prop :=
  ∀ good, newestGood nowMs window = some good → latestMid window = good.mid

/-- Nothing hides the newest good tick: it is the last to have arrived, or the last one has gone
stale since at the same price. -/
def NothingHides (nowMs : Int) (ticks : List Tick) : Prop :=
  ∀ good last, newestGood nowMs ticks = some good → ticks.getLast? = some last →
    isGood nowMs last = true ∨ (isStale nowMs last = true ∧ last.mid = good.mid)

theorem pricesNewestGood_iff (nowMs : Int) (ticks : List Tick) :
    PricesNewestGood nowMs (pruneOld ticks nowMs) ↔ NothingHides nowMs ticks := by
  have hkept : ∀ good last, newestGood nowMs ticks = some good → ticks.getLast? = some last →
      latestMid (pruneOld ticks nowMs) = last.mid := by
    intro good last hgood hlast
    obtain ⟨hmem, hisGood⟩ := newestGood_isGood hgood
    have hfresh := (isGood_iff.mp hisGood).1
    have hback : (pruneOld ticks nowMs).getLast? = some last :=
      getLast?_dropWhile_eq_some_iff.mpr ⟨hlast, good, hmem, hfresh⟩
    rw [latestMid, hback]
  constructor
  · intro h good last hgood hlast
    have hmid : last.mid = good.mid := by
      rw [← hkept good last hgood hlast]
      exact h good (by rw [newestGood_pruneOld, hgood])
    have hpos := (isGood_iff.mp (newestGood_isGood hgood).2).2
    by_cases hstale : isStale nowMs last = true
    · exact .inr ⟨hstale, hmid⟩
    · exact .inl (isGood_iff.mpr ⟨by simpa using hstale, hmid ▸ hpos⟩)
  · intro h good hgood
    rw [newestGood_pruneOld] at hgood
    obtain ⟨last, hlast⟩ : ∃ last, ticks.getLast? = some last :=
      ⟨_, List.getLast?_eq_some_getLast (List.ne_nil_of_mem (newestGood_isGood hgood).1)⟩
    rw [hkept good last hgood hlast]
    obtain hlastGood | ⟨-, hmid⟩ := h good last hgood hlast
    · rw [newestGood_of_last hlast hlastGood, Option.some.injEq] at hgood
      rw [hgood]
    · exact hmid

/-- The update `c`, after the calls `pre`, prices each venue that has a good tick at the newest one:
it returns a lead when either venue has one, and falls back to neither when both have. -/
structure PricesGoodTicks (cfg : Config) (utcOffsetS : Int) (pre : List UpdateCall) (c : UpdateCall) :
    Prop where
  binance : PricesNewestGood c.nowMs (window UpdateCall.binance (pre ++ [c]))
  deribit : PricesNewestGood c.nowMs (window UpdateCall.deribit (pre ++ [c]))
  lead : newestGood c.nowMs (window UpdateCall.binance (pre ++ [c])) ≠ none ∨
      newestGood c.nowMs (window UpdateCall.deribit (pre ++ [c])) ≠ none →
    (update cfg utcOffsetS (updates cfg utcOffsetS pre) c).1 ≠ none
  both : ∀ b d, newestGood c.nowMs (window UpdateCall.binance (pre ++ [c])) = some b →
    newestGood c.nowMs (window UpdateCall.deribit (pre ++ [c])) = some d →
      (update cfg utcOffsetS (updates cfg utcOffsetS pre) c).1 =
        some (composite cfg (inUsHours cfg utcOffsetS c.nowMs) b.mid d.mid)

lemma update_lead (cfg : Config) (utcOffsetS : Int) (pre : List UpdateCall) (c : UpdateCall) :
    (update cfg utcOffsetS (updates cfg utcOffsetS pre) c).1 =
      lead cfg utcOffsetS ⟨window UpdateCall.binance (pre ++ [c]), window UpdateCall.deribit (pre ++ [c])⟩
        c.nowMs := by
  rw [← updates_windows cfg utcOffsetS, updates_concat]
  rfl

lemma PricesNewestGood.pos {nowMs : Int} {window : List Tick} (h : PricesNewestGood nowMs window)
    {good : Tick} (hgood : newestGood nowMs window = some good) : 0 < latestMid window := by
  rw [h good hgood]
  exact (isGood_iff.mp (newestGood_isGood hgood).2).2

lemma pricesGoodTicks_of_venues {cfg : Config} {utcOffsetS : Int} {pre : List UpdateCall} {c : UpdateCall}
    (hb : PricesNewestGood c.nowMs (window UpdateCall.binance (pre ++ [c])))
    (hd : PricesNewestGood c.nowMs (window UpdateCall.deribit (pre ++ [c]))) :
    PricesGoodTicks cfg utcOffsetS pre c where
  binance := hb
  deribit := hd
  lead := by
    intro hsome hnone
    rw [update_lead, lead_eq_none_iff, entering, List.append_eq_nil_iff, Option.toList_eq_nil_iff,
      Option.toList_eq_nil_iff, priced_eq_none_iff, priced_eq_none_iff] at hnone
    obtain h | h := hsome
    · obtain ⟨good, hgood⟩ := Option.ne_none_iff_exists'.mp h
      exact absurd hnone.1 (not_le.mpr (hb.pos hgood))
    · obtain ⟨good, hgood⟩ := Option.ne_none_iff_exists'.mp h
      exact absurd hnone.2 (not_le.mpr (hd.pos hgood))
  both := by
    intro b d hgoodb hgoodd
    rw [update_lead, lead_of_pos cfg utcOffsetS c.nowMs (hb.pos hgoodb) (hd.pos hgoodd),
      hb b hgoodb, hd d hgoodd]

/-- In every history of updates, whatever ticks arrive: every venue that has a good tick is priced at the
newest one, exactly when at no update a tick without a price, or a stale one at another price, has
arrived after it. -/
theorem good_ticks_price_iff (cfg : Config) (utcOffsetS : Int) (calls : List UpdateCall) :
    (∀ pre c, pre ++ [c] <+: calls → PricesGoodTicks cfg utcOffsetS pre c) ↔
      ∀ pre c, pre ++ [c] <+: calls →
        NothingHides c.nowMs (arrived UpdateCall.binance pre c) ∧
          NothingHides c.nowMs (arrived UpdateCall.deribit pre c) := by
  apply forall_congr'
  intro pre
  apply forall_congr'
  intro c
  apply imp_congr_right
  intro _
  have hb := pricesNewestGood_iff c.nowMs (arrived UpdateCall.binance pre c)
  have hd := pricesNewestGood_iff c.nowMs (arrived UpdateCall.deribit pre c)
  rw [← window_concat] at hb hd
  constructor
  · intro h
    exact ⟨hb.mp h.binance, hd.mp h.deribit⟩
  · intro h
    exact pricesGoodTicks_of_venues (hb.mpr h.1) (hd.mpr h.2)

/-- A Binance quote and, within the same call, a Binance frame without prices. -/
def hiddenQuote : UpdateCall :=
  ⟨[tickAt 1000 100, { tsMs := 1000, venue := .binance, valid := 1 }], [], 1000⟩

theorem hiddenQuote_no_lead :
    newestGood 1000 (window UpdateCall.binance [hiddenQuote]) = some (tickAt 1000 100) ∧
      (update {} 0 (updates {} 0 []) hiddenQuote).1 = none ∧
      ¬PricesGoodTicks {} 0 [] hiddenQuote := by
  have hgood : newestGood 1000 (window UpdateCall.binance [hiddenQuote]) = some (tickAt 1000 100) := by
    decide +kernel
  have hlead : (update {} 0 (updates {} 0 []) hiddenQuote).1 = none := by decide +kernel
  refine ⟨hgood, hlead, ?_⟩
  intro h
  refine h.lead (.inl ?_) hlead
  exact fun hnone => by
    rw [List.nil_append] at hnone
    rw [show hiddenQuote.nowMs = 1000 from rfl, hgood] at hnone
    cases hnone

end Aggregator

end LatencyArb
