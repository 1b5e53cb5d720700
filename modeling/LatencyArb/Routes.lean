import LatencyArb.OrderIds
import LatencyArb.SlippageGate
import LatencyArb.Wire.SignalText
import LatencyArb.Wire.Truncation

/-!
# The two routes of a signal

The dispatcher publishes a signal as a text and hands the same signal to the FIX client. The text does not
say the symbol, and `decode_signal` always fills in the same one.
-/

namespace LatencyArb

open Numeral

/-- A signal of the strategy that is published as this text and sent over FIX. -/
structure OnBothRoutes (cfg : Config) (s : Signal) (text : String) : Prop where
  emitted : ∃ (st st' : Strategy) (d : Decision) (lead : ℚ) (q : BrokerQuote) (nowMs : Int),
    st.maybeEmit cfg d lead q nowMs = (some s, st')
  passed : withinSlippageCap s = true
  published : encodeSignal s 320 = some text
  sent : cfg.fixEnabled = true

/-- The order has the side and the symbol of a signal that was read. -/
def SameInstrument (order : FixFrame) (out : Wire.ExecSignal) : Prop :=
  order.value 54 = some (toString out.side) ∧ (order.value 55).map bytesOf = some out.symbol

namespace Strategy

/-- A state in which every gate is open. -/
def openGates (cfg : Config) : Strategy where
  openLots := cfg.maxOpenLots - 1
  dayPnl := 1 - cfg.maxDailyLoss
  ordersThisInterval := cfg.maxOrdersPerInterval - 1

lemma openGates_maybeEmit (cfg : Config) {d : Decision} (hd : d ≠ .hold) (lead : ℚ) (q : BrokerQuote)
    (nowMs : Int) : (openGates cfg).maybeEmit cfg d lead q nowMs =
      (some (signalOf cfg d lead q nowMs), { openGates cfg with lastSignalMs := nowMs }) := by
  have hlots : ¬cfg.maxOpenLots ≤ (openGates cfg).openLots := by
    show ¬cfg.maxOpenLots ≤ cfg.maxOpenLots - 1
    omega
  have hpnl : ¬(openGates cfg).dayPnl ≤ -cfg.maxDailyLoss := by
    show ¬1 - cfg.maxDailyLoss ≤ -cfg.maxDailyLoss
    linarith
  have horders : (openGates cfg).ordersThisInterval < cfg.maxOrdersPerInterval := by
    show cfg.maxOrdersPerInterval - 1 < cfg.maxOrdersPerInterval
    omega
  have hgate : (openGates cfg).canTradeNow cfg nowMs = true := by
    unfold canTradeNow
    rw [if_neg hlots, if_neg hpnl, decide_eq_true horders, ite_self]
  unfold maybeEmit
  rw [if_neg hd, hgate, if_neg (by decide), if_neg (fun h => h.1 rfl)]

lemma maybeEmit_signal {cfg : Config} {st st' : Strategy} {d : Decision} {lead : ℚ} {q : BrokerQuote}
    {nowMs : Int} {s : Signal} (h : st.maybeEmit cfg d lead q nowMs = (some s, st')) :
    s = signalOf cfg d lead q nowMs := by
  obtain hnone | ⟨-, -, hsome⟩ := st.maybeEmit_cases cfg d lead q nowMs
  · rw [hnone] at h
    cases h
  · rw [hsome] at h
    exact (Option.some.inj (Prod.mk.inj h).1).symm

end Strategy

/-! ## What the text says -/

lemma encodeSignal_side {s : Signal} {cap : Nat} {text : String} (h : encodeSignal s cap = some text) :
    ∃ rest, bytesOf text = bytesOf "signal" ++ [124] ++ Wire.sideText (s.side = .buy) ++
      Wire.comma :: rest := by
  have htopic : bytesOf "signal|" = bytesOf "signal" ++ [124] := by decide +kernel
  have hcomma : bytesOf "," = [Wire.comma] := by decide +kernel
  have hside : Wire.sideText (s.side = .buy) = bytesOf (if s.side = .buy then "BUY" else "SELL") := by
    unfold Wire.sideText
    simp only [decide_eq_true_eq]
  rw [hside, ← htopic]
  unfold encodeSignal at h
  dsimp only at h
  generalize (if s.side = .buy then "BUY" else "SELL") = side at h ⊢
  split at h
  · obtain rfl := Option.some.inj h
    simp only [bytesOf_append, hcomma, List.append_assoc, List.singleton_append]
    exact ⟨_, rfl⟩
  · cases h

lemma Wire.decodeSignal_frame {frame : List UInt8} {out : Wire.ExecSignal}
    (h : Wire.decodeSignal frame = (true, out)) : ∃ f : Wire.Frame, f.text = frame ∧ f.signal = out := by
  obtain ⟨f, rfl, -⟩ := (Wire.decodeSignal_iff frame).mp (congrArg Prod.fst h)
  rw [Wire.decodeSignal_text] at h
  exact ⟨f, rfl, (Prod.mk.inj h).2⟩

/-- What is read of a published signal is its side, and always the same symbol. -/
lemma decodeSignal_published {s : Signal} {cap : Nat} {text : String} {out : Wire.ExecSignal}
    (htext : encodeSignal s cap = some text) (h : Wire.decodeSignal (bytesOf text) = (true, out)) :
    out.side = (if s.side = .buy then 1 else 2) ∧ out.symbol = bytesOf "BTC/USD" := by
  obtain ⟨f, hf, rfl⟩ := Wire.decodeSignal_frame h
  obtain ⟨rest, hbytes⟩ := encodeSignal_side htext
  have hskip : Wire.skipTopic (bytesOf text) =
      Wire.sideText (s.side = .buy) ++ Wire.comma :: rest := by
    rw [hbytes]
    exact Wire.skipTopic_side true true _ _
  rw [← hf, f.text_eq, Wire.skipTopic_side] at hskip
  have hbuy := (Wire.side_inj hskip).1
  refine ⟨?_, rfl⟩
  show (if f.buy then 1 else 2) = _
  rw [hbuy]
  simp only [decide_eq_true_eq]

lemma newOrderSingle_symbol (cfg : Config) (s : Signal) (seq : Int) (sendingTime : String) :
    (newOrderSingle cfg s seq sendingTime).value 55 = some s.symbol := rfl

lemma sideCode_eq (s : Signal) : s.sideCode = toString (if s.side = .buy then 1 else 2) := by
  unfold Signal.sideCode
  split <;> rfl

/-- A signal that goes out on both routes names one instrument on them exactly when the configured symbol
is the one that `decode_signal` fills in. -/
theorem routes_agree_iff {cfg : Config} {s : Signal} {text : String} {out : Wire.ExecSignal}
    (h : OnBothRoutes cfg s text) (hout : Wire.decodeSignal (bytesOf text) = (true, out)) (seq : Int)
    (sendingTime : String) :
    SameInstrument (newOrderSingle cfg s seq sendingTime) out ↔ cfg.dryRunSymbol = "BTC/USD" := by
  obtain ⟨hside, hsymbol⟩ := decodeSignal_published h.published hout
  obtain ⟨st, st', d, lead, q, nowMs, hemit⟩ := h.emitted
  have hconfigured : s.symbol = cfg.dryRunSymbol := by
    rw [Strategy.maybeEmit_signal hemit]
    rfl
  unfold SameInstrument
  rw [newOrderSingle_side, newOrderSingle_symbol, sideCode_eq, hside, hsymbol, hconfigured]
  simp [bytesOf_injective.eq_iff]

namespace Engine

variable {cfg : Config} {utcOffsetS : Int} {boot : ℕ+} {e e₁ e₂ : Engine} {s : Signal} {text : String}

lemma reachable_emitted (he : (machine cfg utcOffsetS boot).Reachable e) :
    e.EnRoute (fun s => ∃ (st st' : Strategy) (d : Decision) (lead : ℚ) (q : BrokerQuote) (nowMs : Int),
      st.maybeEmit cfg d lead q nowMs = (some s, st')) := by
  apply reachable_enRoute _ he
  intro d lead q nowMs _ hacts
  exact ⟨_, _, d, lead, q, nowMs, Strategy.openGates_maybeEmit cfg hacts lead q nowMs⟩

lemma publishSignal_text {pub : List String} (h : publishSignal pub s = pub ++ [text]) :
    encodeSignal s 320 = some text := by
  unfold publishSignal at h
  split at h
  · simp at h
  · rename_i frame hframe
    rw [hframe, List.singleton_inj.mp (List.append_cancel_left h)]

/-- In a reachable state the worker holds a signal, publishes it as a text and hands it to the FIX client. -/
theorem onBothRoutes_of_worker (he : (machine cfg utcOffsetS boot).Reachable e)
    (hold : e.exec.worker = .holding s) (hpublish : e.workerStep cfg = some e₁)
    (hpub : e₁.pub = e.pub ++ [text]) (hroute : e₁.workerStep cfg = some e₂)
    (hfix : e₂.fix.orders = e₁.fix.orders ++ [s]) : OnBothRoutes cfg s text := by
  have hpass := (reachable_withinSlippageCap he).holding s hold
  rw [workerStep_holding hold hpass] at hpublish
  have hstep := Option.some.inj hpublish
  have hpublished : e₁.exec.worker = .published s := by rw [← hstep]
  have htext : e₁.pub = publishSignal e.pub s := by rw [← hstep]
  refine ⟨(reachable_emitted he).holding s hold, hpass, publishSignal_text (htext ▸ hpub), ?_⟩
  rw [workerStep_published hpublished] at hroute
  have hfix' : e₂.fix = if cfg.fixEnabled then e₁.fix.sendOrder s else e₁.fix := by
    rw [← Option.some.inj hroute]
  by_contra hoff
  rw [hfix', if_neg hoff] at hfix
  simp at hfix

end Engine

/-! ## One signal, two symbols -/

def routedConfig (symbol : String) : Config := { dryRunSymbol := symbol, fixEnabled := true }

def routedBuy (symbol : String) : Signal :=
  Strategy.signalOf (routedConfig symbol) .long 102 Engine.gateQuote 1000

def routedText : String :=
  "signal|BUY,lead_gt_ask,102.000000,99.000000,100.000000,1.500000,0.500000,1000"

def routedRead : Wire.ExecSignal := (Wire.decodeSignal (bytesOf routedText)).2

lemma routedText_read : Wire.decodeSignal (bytesOf routedText) = (true, routedRead) :=
  Prod.ext (by decide +kernel) rfl

lemma routedBuy_onBothRoutes {symbol : String} (hpass : withinSlippageCap (routedBuy symbol) = true)
    (htext : encodeSignal (routedBuy symbol) 320 = some routedText) :
    OnBothRoutes (routedConfig symbol) (routedBuy symbol) routedText where
  emitted := ⟨_, _, .long, 102, Engine.gateQuote, 1000,
    Strategy.openGates_maybeEmit (routedConfig symbol) (by decide) 102 Engine.gateQuote 1000⟩
  passed := hpass
  published := htext
  sent := rfl

theorem routes_agree_default :
    SameInstrument (newOrderSingle (routedConfig "BTC/USD") (routedBuy "BTC/USD") 2 "20240101-00:00:01")
      routedRead :=
  (routes_agree_iff (routedBuy_onBothRoutes (by decide +kernel) (by decide +kernel)) routedText_read 2
    "20240101-00:00:01").mpr rfl

/-- With gold as the configured symbol, the order buys gold and the published signal bitcoin. -/
theorem routes_disagree_on_gold :
    OnBothRoutes (routedConfig "XAU/USD") (routedBuy "XAU/USD") routedText ∧
      Wire.decodeSignal (bytesOf routedText) = (true, routedRead) ∧
      (newOrderSingle (routedConfig "XAU/USD") (routedBuy "XAU/USD") 2 "20240101-00:00:01").value 55 =
        some "XAU/USD" ∧
      routedRead.symbol = bytesOf "BTC/USD" ∧
      ¬SameInstrument (newOrderSingle (routedConfig "XAU/USD") (routedBuy "XAU/USD") 2
        "20240101-00:00:01") routedRead := by
  have hsymbol : (newOrderSingle (routedConfig "XAU/USD") (routedBuy "XAU/USD") 2
      "20240101-00:00:01").value 55 = some "XAU/USD" := newOrderSingle_symbol ..
  have hread : routedRead.symbol = bytesOf "BTC/USD" := by decide +kernel
  refine ⟨routedBuy_onBothRoutes (by decide +kernel) (by decide +kernel), routedText_read, hsymbol, hread, ?_⟩
  rintro ⟨-, hsame⟩
  rw [hsymbol, hread] at hsame
  revert hsame
  decide +kernel

end LatencyArb
