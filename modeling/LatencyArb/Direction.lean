import LatencyArb.CTrader.Orders
import LatencyArb.CTrader.Retry
import LatencyArb.Fix.Orders
import LatencyArb.Oanda.Delivery
import LatencyArb.Oanda.Orders

/-!
# The direction of an order at its broker

The three executors write the direction of an order as FIX tag 54, as the enumeration `tradeSide` and
as the sign of the OANDA units. It is compared with the side the caller of `execute` names.
-/

namespace LatencyArb

inductive Direction where
  | buy | sell
  deriving DecidableEq

/-- The direction a side names, in letters of either case. -/
def Direction.named (side : String) : Option Direction :=
  if side.toLower = "buy" then some .buy
  else if side.toLower = "sell" then some .sell
  else none

inductive Broker where
  | fix | ctrader | oanda

/-- The arguments of `execute`; `stop` and `take` are prices for FIX, and pips elsewhere. -/
structure ExecuteCall where
  instrument : String
  side : String
  quantity : ℚ
  stop : ℚ
  take : ℚ

namespace ExecuteCall

def fix (call : ExecuteCall) : Fix.OrderCall :=
  ⟨call.instrument, call.side, call.quantity, call.stop, call.take⟩

def ctrader (call : ExecuteCall) : CTrader.OrderJob :=
  ⟨call.instrument, call.side, call.quantity, call.stop, call.take⟩

def oanda (call : ExecuteCall) : Oanda.OrderJob :=
  ⟨call.instrument, call.side, call.quantity, call.stop, call.take⟩

end ExecuteCall

/-! ## What the broker reads -/

def Fix.OrderJob.call (job : Fix.OrderJob) : Fix.OrderCall :=
  ⟨job.instrument, job.side, job.volume, job.stopPrice, job.takePrice⟩

/-- Tag 54, `Side`. -/
def Fix.Message.direction (m : Fix.Message) : Option Direction :=
  if m.value 54 = some (Fix.ascii "1") then some .buy
  else if m.value 54 = some (Fix.ascii "2") then some .sell
  else none

def CTrader.NewOrderReq.direction (order : CTrader.NewOrderReq) : Option Direction :=
  if order.tradeSide = "BUY" then some .buy
  else if order.tradeSide = "SELL" then some .sell
  else none

/-- Positive units are bought and negative ones sold. -/
def Oanda.MarketOrder.direction (order : Oanda.MarketOrder) : Option Direction :=
  if 0 < order.units then some .buy
  else if order.units < 0 then some .sell
  else none

variable (cfg : Config) (utc : Nat → String) (call : ExecuteCall)

/-- In some run in which `execute` is called so, the call leads to an order on the wire that has the direction
`d`. -/
def OnWire (d : Option Direction) : Broker → Prop
  | .fix =>
    ∃ run e, (FixExecutor.machine cfg utc).run (FixExecutor.machine cfg utc).init run = some e ∧
      .execute call.fix ∈ run ∧ ∃ h ∈ e.handed, ∃ job,
        h.frame.job = some job ∧ job.call = call.fix ∧ h.frame.message.direction = d
  | .ctrader =>
    ∃ run e, (CTraderExecutor.machine cfg).run (CTraderExecutor.machine cfg).init run = some e ∧
      .execute call.ctrader ∈ run ∧ ∃ s ∈ e.sent, s.job = call.ctrader ∧ s.order.direction = d
  | .oanda =>
    ∃ run e, (OandaExecutor.machine cfg).run (OandaExecutor.machine cfg).init run = some e ∧
      .execute call.oanda ∈ run ∧ ∃ r ∈ e.received, r.job = call.oanda ∧ r.request.order.direction = d

/-- Every order the call leads to has the direction that its side names, and one that names none
leads to no order. -/
def DirectionKept (broker : Broker) : Prop :=
  ∀ d, OnWire cfg utc call d broker →
    ∃ direction, d = some direction ∧ Direction.named call.side = some direction

/-- The FIX executor takes "buy" and "sell" and writes them; the cTrader executor takes every side and
sells all but two; the OANDA executor takes "buy" and "sell" and buys the whole units of either. -/
def keepsDirection : Broker → Prop
  | .fix => True
  | .ctrader => call.side = "buy" ∨ call.side = "BUY" ∨ call.side.toLower = "sell"
  | .oanda =>
    call.instrument = "" ∨ (call.side ≠ "buy" ∧ call.side ≠ "sell") ∨
      (call.side = "buy" ∧ 1 ≤ call.quantity)

lemma named_buy : Direction.named "buy" = some .buy := by decide +kernel

lemma named_sell : Direction.named "sell" = some .sell := by decide +kernel

/-! ## FIX -/

lemma buildOrder_side (job : Fix.OrderJob) (transactTime : String) (seq : Nat) (time : String) :
    (Fix.buildOrder cfg job transactTime seq time).value 54 =
      some (Fix.ascii (if job.side = "buy" then "1" else "2")) :=
  rfl

variable {cfg utc call}

lemma buildOrder_direction {job : Fix.OrderJob} (hjob : job.Sided) (transactTime : String) (seq : Nat)
    (time : String) :
    (Fix.buildOrder cfg job transactTime seq time).direction = Direction.named job.side := by
  unfold Fix.Message.direction
  rw [buildOrder_side]
  rcases hjob with hbuy | hsell
  · rw [hbuy, named_buy, if_pos rfl, if_pos rfl]
  · have hdistinct : Fix.ascii "2" ≠ Fix.ascii "1" := by decide +kernel
    have hother : ("sell" : String) ≠ "buy" := by decide
    rw [hsell, named_sell, if_neg hother, if_neg (by simpa using hdistinct), if_pos rfl]

lemma fix_directionKept : DirectionKept cfg utc call .fix := by
  rintro d ⟨run, e, he, -, h, hh, job, hjob, hcall, hd⟩
  obtain ⟨hsided, transactTime, seq, time, hmessage⟩ :=
    (FixExecutor.reachable_ordersSound ⟨run, he⟩).handed h hh job hjob
  have hside : job.side = call.side := congrArg Fix.OrderCall.side hcall
  rw [hmessage, buildOrder_direction hsided, hside] at hd
  rw [← hd]
  rcases hsided with hbuy | hsell
  · rw [← hside, hbuy]
    exact ⟨.buy, named_buy, named_buy⟩
  · rw [← hside, hsell]
    exact ⟨.sell, named_sell, named_sell⟩

/-! ## cTrader -/

lemma newOrder_direction (job : CTrader.OrderJob) (info : CTrader.SymbolInfo) (nextId : Nat) :
    (CTrader.buildOrder job info nextId).direction =
      some (if job.side = "buy" ∨ job.side = "BUY" then .buy else .sell) := by
  unfold CTrader.NewOrderReq.direction CTrader.buildOrder
  by_cases hbuy : job.side = "buy" ∨ job.side = "BUY"
  · simp only [if_pos hbuy]
    rfl
  · simp only [if_neg hbuy]
    rfl

variable (cfg) in
/-- Whatever its side is, a call can lead to an order. -/
lemma ctrader_sends (job : CTrader.OrderJob) :
    ∃ run e, (CTraderExecutor.machine cfg).run (CTraderExecutor.machine cfg).init run = some e ∧
      .execute job ∈ run ∧ ∃ s ∈ e.sent, s.job = job := by
  have hstart : (CTraderExecutor.machine cfg).run {} [.start, .execute job, .take] =
      some { jobs := [], stage := .tls { job := job } } := by
    simp [CTraderExecutor.machine, CTraderExecutor.step, CTraderExecutor.start,
      CTraderExecutor.execute, CTraderExecutor.take]
  obtain ⟨u, order, hrun, hsent⟩ := CTraderExecutor.reconnecting_sends cfg
    (t := { jobs := [], stage := .tls { job := job } }) rfl
  refine ⟨_, u, (CTraderExecutor.machine cfg).run_trans hstart hrun, by simp, ⟨order, job, 0⟩, ?_, rfl⟩
  rw [hsent]
  exact List.mem_append_right _ (List.mem_singleton_self _)

lemma ctrader_onWire_iff {d : Option Direction} :
    OnWire cfg utc call d .ctrader ↔
      d = some (if call.side = "buy" ∨ call.side = "BUY" then .buy else .sell) := by
  have hdirection : ∀ e, (CTraderExecutor.machine cfg).Reachable e → ∀ s ∈ e.sent,
      s.job = call.ctrader →
      s.order.direction = some (if call.side = "buy" ∨ call.side = "BUY" then .buy else .sell) := by
    intro e he s hs hjob
    obtain ⟨info, nextId, horder⟩ := (CTraderExecutor.reachable_ordersBuilt he).sent s hs
    rw [horder, newOrder_direction, hjob]
    rfl
  constructor
  · rintro ⟨run, e, he, -, s, hs, hjob, rfl⟩
    exact hdirection e ⟨run, he⟩ s hs hjob
  · rintro rfl
    obtain ⟨run, e, he, hcalled, s, hs, hjob⟩ := ctrader_sends cfg call.ctrader
    exact ⟨run, e, he, hcalled, s, hs, hjob, hdirection e ⟨run, he⟩ s hs hjob⟩

lemma ctrader_directionKept_iff :
    DirectionKept cfg utc call .ctrader ↔ keepsDirection call .ctrader := by
  have hnamed : DirectionKept cfg utc call .ctrader ↔ Direction.named call.side =
      some (if call.side = "buy" ∨ call.side = "BUY" then .buy else .sell) := by
    constructor
    · intro hkept
      obtain ⟨direction, heq, hside⟩ := hkept _ (ctrader_onWire_iff.mpr rfl)
      rw [hside, heq]
    · intro hside d hd
      exact ⟨_, ctrader_onWire_iff.mp hd, hside⟩
  rw [hnamed]
  unfold keepsDirection
  by_cases hbuy : call.side = "buy" ∨ call.side = "BUY"
  · have hlower : call.side.toLower = "buy" := by
      rcases hbuy with h | h
      · rw [h]
        decide +kernel
      · rw [h]
        decide +kernel
    rw [if_pos hbuy, ← or_assoc]
    apply iff_of_true
    · rw [Direction.named, if_pos hlower]
    · exact .inl hbuy
  · rw [if_neg hbuy, ← or_assoc, or_iff_right hbuy]
    unfold Direction.named
    by_cases hlower : call.side.toLower = "buy"
    · simp [hlower]
    · simp [hlower]

/-! ## OANDA -/

lemma truncZero_of_pos {q : ℚ} (hq : 0 < q) : truncZero q = ⌊q⌋ := if_pos hq.le

lemma marketOrder_direction {job : Oanda.OrderJob} (hq : 0 < job.units) :
    (Oanda.marketOrder job).direction = if 1 ≤ job.units then some .buy else none := by
  have hfloor : 0 ≤ ⌊job.units⌋ := Int.floor_nonneg.mpr hq.le
  have hone : 0 < ⌊job.units⌋ ↔ 1 ≤ job.units := Int.floor_pos
  simp only [Oanda.MarketOrder.direction, Oanda.marketOrder, truncZero_of_pos hq, hone,
    if_neg (not_lt.mpr hfloor)]

variable (cfg) in
lemma oanda_sends {job : Oanda.OrderJob} (hjob : job.Accepted) :
    ∃ run e, (OandaExecutor.machine cfg).run (OandaExecutor.machine cfg).init run = some e ∧
      .execute job ∈ run ∧ ∃ r ∈ e.received, r.job = job := by
  have htaken : ¬(job.instrument = "" ∨ job.side ≠ "buy" ∧ job.side ≠ "sell") := by
    rintro (hempty | hside)
    · exact hjob.1 hempty
    · exact not_or.mpr hside hjob.2
  have hrun : ((OandaExecutor.machine cfg).run (OandaExecutor.machine cfg).init
      (OandaExecutor.ready ++ [Oanda.Action.loop, .execute job, .take, .write true none])).map
        OandaExecutor.received = some [⟨job, 1, Oanda.buildRequest cfg job⟩] := by
    simp [OandaExecutor.ready, OandaExecutor.machine, OandaExecutor.step, OandaExecutor.start,
      OandaExecutor.loopTest, OandaExecutor.execute, htaken, OandaExecutor.waitOver,
      OandaExecutor.take, OandaExecutor.writeRequest]
  obtain ⟨e, he, hreceived⟩ := Option.map_eq_some_iff.mp hrun
  refine ⟨_, e, he, by simp, ⟨job, 1, Oanda.buildRequest cfg job⟩, ?_, rfl⟩
  rw [hreceived]
  exact List.mem_singleton_self _

lemma oanda_onWire_iff {d : Option Direction} :
    OnWire cfg utc call d .oanda ↔
      call.oanda.Accepted ∧ d = (Oanda.marketOrder call.oanda).direction := by
  constructor
  · rintro ⟨run, e, he, -, r, hr, hjob, rfl⟩
    obtain ⟨⟨haccepted, -⟩, hrequest⟩ := (OandaExecutor.run_ordersOf he).received r hr
    rw [hrequest, ← hjob]
    exact ⟨haccepted, rfl⟩
  · rintro ⟨haccepted, rfl⟩
    obtain ⟨run, e, he, hcalled, r, hr, hjob⟩ := oanda_sends cfg haccepted
    refine ⟨run, e, he, hcalled, r, hr, hjob, ?_⟩
    rw [((OandaExecutor.run_ordersOf he).received r hr).2, hjob]
    rfl

lemma oanda_directionKept_iff (hq : 0 < call.quantity) :
    DirectionKept cfg utc call .oanda ↔ keepsDirection call .oanda := by
  have hdirection : (Oanda.marketOrder call.oanda).direction =
      if 1 ≤ call.quantity then some .buy else none :=
    marketOrder_direction hq
  constructor
  · intro hkept
    by_cases haccepted : call.oanda.Accepted
    · obtain ⟨direction, heq, hside⟩ := hkept _ (oanda_onWire_iff.mpr ⟨haccepted, rfl⟩)
      rw [hdirection] at heq
      split at heq
      · rename_i hone
        cases heq
        rcases haccepted.2 with hbuy | hsell
        · exact .inr (.inr ⟨hbuy, hone⟩)
        · have hnamed : Direction.named call.side = some .sell :=
            (congrArg Direction.named hsell).trans named_sell
          rw [hnamed] at hside
          cases hside
      · cases heq
    · rcases not_and_or.mp haccepted with hempty | hside
      · exact .inl (not_not.mp hempty)
      · exact .inr (.inl (not_or.mp hside))
  · intro hkeeps d hd
    obtain ⟨haccepted, hd⟩ := oanda_onWire_iff.mp hd
    rcases hkeeps with hempty | hside | ⟨hbuy, hone⟩
    · exact absurd hempty haccepted.1
    · exact absurd haccepted.2 (not_or.mpr hside)
    · rw [hdirection] at hd
      rw [if_pos hone] at hd
      exact ⟨.buy, hd, (congrArg Direction.named hbuy).trans named_buy⟩

/-! ## The three executors -/

/-- A call of positive quantity keeps its direction at a broker exactly under the condition of the
broker. -/
theorem direction_kept_iff (cfg : Config) (utc : Nat → String) (call : ExecuteCall) (broker : Broker)
    (hq : 0 < call.quantity) :
    DirectionKept cfg utc call broker ↔ keepsDirection call broker := by
  cases broker with
  | fix => exact iff_of_true fix_directionKept trivial
  | ctrader => exact ctrader_directionKept_iff
  | oanda => exact oanda_directionKept_iff hq

theorem direction_kept_oanda_buy :
    DirectionKept {} (fun _ => "") ⟨"XAU_USD", "buy", 10, 0, 0⟩ .oanda ∧
      OnWire {} (fun _ => "") ⟨"XAU_USD", "buy", 10, 0, 0⟩ (some .buy) .oanda := by
  constructor
  · rw [direction_kept_iff {} (fun _ => "") ⟨"XAU_USD", "buy", 10, 0, 0⟩ .oanda (by norm_num)]
    exact .inr (.inr ⟨rfl, by norm_num⟩)
  · rw [oanda_onWire_iff]
    exact ⟨⟨by decide, .inl rfl⟩, by decide +kernel⟩

/-- A sell order of 10 units at OANDA is a buy, and so is one the caller writes as "Buy" to cTrader
a sell. -/
theorem sell_order_buys :
    OnWire {} (fun _ => "") ⟨"XAU_USD", "sell", 10, 0, 0⟩ (some .buy) .oanda ∧
    ¬DirectionKept {} (fun _ => "") ⟨"XAU_USD", "sell", 10, 0, 0⟩ .oanda ∧
    OnWire {} (fun _ => "") ⟨"XAU/USD", "Buy", 1, 20, 40⟩ (some .sell) .ctrader ∧
    ¬DirectionKept {} (fun _ => "") ⟨"XAU/USD", "Buy", 1, 20, 40⟩ .ctrader := by
  have hoanda : OnWire {} (fun _ => "") ⟨"XAU_USD", "sell", 10, 0, 0⟩ (some .buy) .oanda :=
    oanda_onWire_iff.mpr ⟨⟨by decide, .inr rfl⟩, by decide +kernel⟩
  have hctrader : OnWire {} (fun _ => "") ⟨"XAU/USD", "Buy", 1, 20, 40⟩ (some .sell) .ctrader :=
    ctrader_onWire_iff.mpr (by decide +kernel)
  refine ⟨hoanda, ?_, hctrader, ?_⟩
  · intro hkept
    obtain ⟨direction, heq, hnamed⟩ := hkept _ hoanda
    cases heq
    revert hnamed
    decide +kernel
  · intro hkept
    obtain ⟨direction, heq, hnamed⟩ := hkept _ hctrader
    cases heq
    revert hnamed
    decide +kernel

end LatencyArb
