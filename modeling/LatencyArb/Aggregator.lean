import LatencyArb.Config
import LatencyArb.Tick
import LatencyArb.Library.Decimal
import LatencyArb.Library.TimeWindow

/-!
# The composite lead price (`src/aggregator.cpp`)

`ingest` is given by its loop body `ingestTick`, run once for every tick popped, and by
`pruneOld`, run after the ring is found empty; `lead` is the rest of `update`.
-/

namespace LatencyArb

/-- The two venue windows, oldest tick first. -/
structure Aggregator where
  binance : List Tick := []
  deribit : List Tick := []

namespace Aggregator

def isStale (nowMs : Int) (t : Tick) : Bool :=
  decide (0 < t.tsMs ∧ CompileTime.kMaxTickAgeMs < nowMs - t.tsMs)

def ingestTick (window : List Tick) (nowMs : Int) (t : Tick) : List Tick :=
  if !t.isValid then window
  else if isStale nowMs t then window
  else window ++ [t]

def pruneOld (window : List Tick) (nowMs : Int) : List Tick := window.dropWhile (isStale nowMs)

def latestMid (window : List Tick) : ℚ :=
  match window.getLast? with
  | none => 0
  | some t => t.mid

/-- `localtime_r` is UTC shifted by the host's offset, in seconds. -/
def inUsHours (cfg : Config) (utcOffsetS nowMs : Int) : Bool :=
  let secondOfDay := (nowMs.tdiv 1000 + utcOffsetS) % 86400
  let hour := secondOfDay / 3600
  let minute := secondOfDay % 3600 / 60
  let nowMin := hour * 60 + minute
  decide (cfg.usOpenHourUtc * 60 ≤ nowMin ∧ nowMin < cfg.usCloseHourUtc * 60)

/-- The Deribit weight and the Binance weight. -/
def weights (cfg : Config) (us : Bool) : ℚ × ℚ :=
  let wDeribit := if us then cfg.deribitWeightUs else cfg.deribitWeightAsia
  let wBinance := if us then cfg.binanceWeightUs else cfg.binanceWeightAsia
  let s := wDeribit + wBinance
  if 0 < s then (wDeribit / s, wBinance / s) else (wDeribit, wBinance)

def round4 (v : ℚ) : ℚ := roundAway (v * 10000) / 10000

def lead (cfg : Config) (utcOffsetS : Int) (agg : Aggregator) (nowMs : Int) : Option ℚ :=
  let b := latestMid agg.binance
  let d := latestMid agg.deribit
  if b ≤ 0 ∧ d ≤ 0 then none
  else if b ≤ 0 then some d
  else if d ≤ 0 then some b
  else
    let w := weights cfg (inUsHours cfg utcOffsetS nowMs)
    let v := d * w.1 + b * w.2
    some (if cfg.roundFourDecimals then round4 v else v)

/-- The newest tick of a window, when its price is usable. -/
def priced (window : List Tick) : Option Tick := window.getLast?.filter (fun t => decide (0 < t.mid))

/-- The ticks whose prices enter the lead. -/
def entering (agg : Aggregator) : List Tick :=
  (priced agg.binance).toList ++ (priced agg.deribit).toList

lemma priced_eq_none_iff (window : List Tick) : priced window = none ↔ latestMid window ≤ 0 := by
  unfold priced latestMid
  cases window.getLast? with
  | none => simp
  | some t => simp [Option.filter_some]

/-- There is a lead exactly when some tick enters it. -/
theorem lead_eq_none_iff (cfg : Config) (utcOffsetS : Int) (agg : Aggregator) (nowMs : Int) :
    agg.lead cfg utcOffsetS nowMs = none ↔ agg.entering = [] := by
  have hb := priced_eq_none_iff agg.binance
  have hd := priced_eq_none_iff agg.deribit
  rw [entering, List.append_eq_nil_iff, Option.toList_eq_nil_iff, Option.toList_eq_nil_iff, hb, hd]
  unfold lead
  dsimp only
  by_cases hboth : latestMid agg.binance ≤ 0 ∧ latestMid agg.deribit ≤ 0
  · simp [hboth]
  · rw [if_neg hboth]
    split
    · simpa using hboth
    · split <;> simpa using hboth

lemma pruneOld_getLast (window : List Tick) (nowMs : Int) (t : Tick)
    (h : window.getLast? = some t) (ht : isStale nowMs t = false) :
    (pruneOld window nowMs).getLast? = some t := getLast?_dropWhile_of_fresh h ht

end Aggregator

end LatencyArb
