import LatencyArb.Wire
import LatencyArb.Library.Strtod

/-!
# The signal codec on bytes (`src/wire.cpp`)

`encode_signal` and `decode_signal` with their buffers. A `Frame` is a text that `decode_signal` can cut
into fields; what it makes of the fields is left to `strtod` and `atoll`.
-/

namespace LatencyArb

open Numeral

namespace Wire

/-! ## `encode_signal` -/

/-- A `Signal` whose reason is a text of bytes and whose prices are doubles. -/
structure WireSignal where
  side : Side
  reason : List UInt8
  lead : Double
  brokerBid : Double
  brokerAsk : Double
  threshold : Double
  edge : Double
  tsMs : Int

def comma : UInt8 := 44

/-- The text of `%.6f`. -/
def fixed6 : Double → List UInt8
  | .finite x => bytesOf (fixedPoint 6 x)
  | .inf negative => bytesOf (if negative then "-inf" else "inf")
  | .nan negative => bytesOf (if negative then "-nan" else "nan")

/-- The text that `%s` writes of a buffer. -/
def cString (s : List UInt8) : List UInt8 := s.takeWhile (fun c => decide (c ≠ 0))

def sideText (buy : Bool) : List UInt8 := bytesOf (if buy then "BUY" else "SELL")

namespace WireSignal

def prices (s : WireSignal) : List Double := [s.lead, s.brokerBid, s.brokerAsk, s.threshold, s.edge]

def text (s : WireSignal) : List UInt8 :=
  bytesOf "signal|" ++ sideText (s.side = .buy) ++ [comma] ++ cString s.reason ++ [comma] ++
    s.prices.flatMap (fun x => fixed6 x ++ [comma]) ++ bytesOf (toString s.tsMs)

end WireSignal

/-- `snprintf` gives up at the length that an `int` cannot hold. -/
def encodeSignal (s : WireSignal) (cap : Nat) : Option (List UInt8) :=
  if cap = 0 then none
  else if 2 ^ 31 ≤ s.text.length ∨ cap ≤ s.text.length then none
  else some s.text

/-! ## `decode_signal` -/

structure ExecSignal where
  tsMs : Int := 0
  lead : Double := .finite 0
  brokerBid : Double := .finite 0
  brokerAsk : Double := .finite 0
  threshold : Double := .finite 0
  edge : Double := .finite 0
  side : Nat := 0
  valid : Nat := 0
  reason : List UInt8 := []
  symbol : List UInt8 := []

/-- The topic and the bar after it, each where it is there. -/
def skipTopic (p : List UInt8) : List UInt8 :=
  let p := if (bytesOf "signal").isPrefixOf p then p.drop 6 else p
  if p.head? = some 124 then p.tail else p

def readSide (p : List UInt8) : Option (Nat × List UInt8) :=
  if (bytesOf "BUY").isPrefixOf p then some (1, p.drop 3)
  else if (bytesOf "SELL").isPrefixOf p then some (2, p.drop 4)
  else none

/-- Reads up to a comma into a buffer of this size, which ends with a NUL; and what is left. -/
def readField (size : Nat) (p : List UInt8) : List UInt8 × List UInt8 :=
  let copied := (p.takeWhile (fun c => decide (c ≠ comma))).take (size - 1)
  (copied, p.drop copied.length)

def pastComma (p : List UInt8) : Option (List UInt8) :=
  if p.head? = some comma then some p.tail else none

def nextNum (p : List UInt8) : Option (Double × List UInt8) :=
  let (num, p) := readField 48 p
  (pastComma p).map (fun p => (strtod num, p))

/-- Goes on with a value, or returns early with what has been filled in. -/
def orReject {α : Type} (out : ExecSignal) : Option α → Except ExecSignal α
  | none => .error out
  | some a => .ok a

def readSignal (frame : List UInt8) : Except ExecSignal ExecSignal := do
  let out : ExecSignal := {}
  let (side, p) ← orReject out (readSide (skipTopic frame))
  let out := { out with side := side }
  let p ← orReject out (pastComma p)
  let (reason, p) := readField 24 p
  let out := { out with reason := reason }
  let p ← orReject out (pastComma p)
  let (lead, p) ← orReject out (nextNum p)
  let out := { out with lead := lead }
  let (brokerBid, p) ← orReject out (nextNum p)
  let out := { out with brokerBid := brokerBid }
  let (brokerAsk, p) ← orReject out (nextNum p)
  let out := { out with brokerAsk := brokerAsk }
  let (threshold, p) ← orReject out (nextNum p)
  let out := { out with threshold := threshold }
  let (edge, p) ← orReject out (nextNum p)
  let out := { out with edge := edge }
  return { out with tsMs := atoll (readField 32 p).1, symbol := bytesOf "BTC/USD", valid := 1 }

/-- `decode_signal`: what it returns, and its out-parameter. -/
def decodeSignal (frame : List UInt8) : Bool × ExecSignal :=
  match readSignal frame with
  | .error out => (false, out)
  | .ok out => (decide (out.side ≠ 0) && out.lead.isPos, out)

/-! ## Fields -/

/-- A field fits into a buffer of this size. -/
def Fits (size : Nat) (field : List UInt8) : Prop := comma ∉ field ∧ field.length < size

lemma readField_fits {size : Nat} {field : List UInt8} (h : Fits size field) (rest : List UInt8) :
    readField size (field ++ comma :: rest) = (field, comma :: rest) := by
  have htake : (field ++ comma :: rest).takeWhile (fun c => decide (c ≠ comma)) = field := by
    rw [List.takeWhile_append_of_pos]
    · simp
    · intro c hc
      exact decide_eq_true (fun heq => h.1 (heq ▸ hc))
  unfold readField
  simp only [htake]
  rw [List.take_of_length_le (Nat.le_sub_one_of_lt h.2), List.drop_left]

/-- The field that is read, where a comma is left. -/
lemma fits_of_readField {size : Nat} (hsize : 0 < size) {p field rest : List UInt8}
    (h : readField size p = (field, comma :: rest)) : p = field ++ comma :: rest ∧ Fits size field := by
  obtain ⟨hfield, hrest⟩ := Prod.mk.inj h
  rw [hfield] at hrest
  have hcopied : field <+: p := by
    rw [← hfield]
    exact (List.take_prefix _ _).trans (List.takeWhile_prefix _)
  refine ⟨?_, ?_, ?_⟩
  · obtain ⟨t, rfl⟩ := hcopied
    rw [List.drop_left] at hrest
    rw [hrest]
  · intro hmem
    rw [← hfield] at hmem
    have hne := List.mem_takeWhile_imp (List.mem_of_mem_take hmem)
    simp at hne
  · rw [← hfield, List.length_take]
    omega

lemma pastComma_eq_some {p rest : List UInt8} : pastComma p = some rest ↔ p = comma :: rest := by
  unfold pastComma
  match p with
  | [] => simp
  | c :: p =>
    by_cases hc : c = comma
    · simp [hc]
    · simp [hc]

lemma nextNum_eq_some {p rest : List UInt8} {v : Double} :
    nextNum p = some (v, rest) ↔ ∃ field, p = field ++ comma :: rest ∧ Fits 48 field ∧ v = strtod field := by
  unfold nextNum
  constructor
  · intro h
    obtain ⟨rest', hrest, heq⟩ := Option.map_eq_some_iff.mp h
    obtain ⟨rfl, rfl⟩ := Prod.mk.inj heq
    rw [pastComma_eq_some] at hrest
    obtain ⟨hp, hfits⟩ := fits_of_readField (by omega) (Prod.ext rfl hrest)
    exact ⟨_, hp, hfits, rfl⟩
  · rintro ⟨field, rfl, hfits, rfl⟩
    simp only [readField_fits hfits]
    rw [pastComma_eq_some.mpr rfl]
    rfl

lemma nextNum_field {field : List UInt8} (h : Fits 48 field) (rest : List UInt8) :
    nextNum (field ++ comma :: rest) = some (strtod field, rest) :=
  nextNum_eq_some.mpr ⟨field, rfl, h, rfl⟩

/-! ## Frames -/

/-- A text that `decode_signal` can cut into fields. -/
structure Frame where
  topic : Bool
  bar : Bool
  buy : Bool
  reason : List UInt8
  lead : List UInt8
  brokerBid : List UInt8
  brokerAsk : List UInt8
  threshold : List UInt8
  edge : List UInt8
  tail : List UInt8
  reason_fits : Fits 24 reason
  numbers_fit : ∀ field ∈ [lead, brokerBid, brokerAsk, threshold, edge], Fits 48 field

namespace Frame

variable (f : Frame)

def numbers : List (List UInt8) := [f.lead, f.brokerBid, f.brokerAsk, f.threshold, f.edge]

/-- All in front of the last field. -/
def head : List UInt8 :=
  (if f.topic then bytesOf "signal" else []) ++ (if f.bar then [124] else []) ++ sideText f.buy ++
    [comma] ++ f.reason ++ [comma] ++ f.numbers.flatMap (fun field => field ++ [comma])

def text : List UInt8 := f.head ++ f.tail

/-- What is filled in. -/
def signal : ExecSignal where
  tsMs := atoll (readField 32 f.tail).1
  lead := strtod f.lead
  brokerBid := strtod f.brokerBid
  brokerAsk := strtod f.brokerAsk
  threshold := strtod f.threshold
  edge := strtod f.edge
  side := if f.buy then 1 else 2
  valid := 1
  reason := f.reason
  symbol := bytesOf "BTC/USD"

end Frame

lemma orReject_bind_ok {α : Type} {out : ExecSignal} {x : Option α} {k : α → Except ExecSignal ExecSignal}
    {r : ExecSignal} : (orReject out x >>= k) = .ok r ↔ ∃ a, x = some a ∧ k a = .ok r := by
  cases x with
  | none => simp [orReject, bind, Except.bind]
  | some a => simp [orReject, bind, Except.bind]

lemma orReject_bind_error {α : Type} {out e : ExecSignal} {x : Option α}
    {k : α → Except ExecSignal ExecSignal} :
    (orReject out x >>= k) = .error e ↔ (x = none ∧ e = out) ∨ ∃ a, x = some a ∧ k a = .error e := by
  cases x with
  | none => simp [orReject, bind, Except.bind, eq_comm]
  | some a => simp [orReject, bind, Except.bind]

lemma signal_bytes : bytesOf "signal" = [115, 105, 103, 110, 97, 108] := by decide +kernel

lemma sideText_bytes (buy : Bool) : sideText buy = if buy then [66, 85, 89] else [83, 69, 76, 76] := by
  cases buy <;> decide +kernel

/-- What is skipped is the topic and the bar. -/
lemma skipTopic_spec (frame : List UInt8) : ∃ topic bar : Bool,
    frame = (if topic then bytesOf "signal" else []) ++ (if bar then [124] else []) ++ skipTopic frame := by
  have hbar : ∀ p : List UInt8, ∃ bar : Bool,
      p = (if bar then [124] else []) ++ (if p.head? = some 124 then p.tail else p) := by
    intro p
    by_cases hp : p.head? = some 124
    · refine ⟨true, ?_⟩
      rw [if_pos hp]
      exact (List.cons_head?_tail hp).symm
    · exact ⟨false, by rw [if_neg hp]; rfl⟩
  unfold skipTopic
  by_cases htopic : (bytesOf "signal").isPrefixOf frame = true
  · obtain ⟨t, rfl⟩ := List.isPrefixOf_iff_prefix.mp htopic
    obtain ⟨bar, ht⟩ := hbar t
    refine ⟨true, bar, ?_⟩
    have hdrop : (bytesOf "signal" ++ t).drop 6 = t := List.drop_left' (by decide +kernel)
    simp only [htopic, if_true, hdrop, List.append_assoc]
    rw [← ht]
  · obtain ⟨bar, hframe⟩ := hbar frame
    refine ⟨false, bar, ?_⟩
    simp only [htopic]
    exact hframe

lemma skipTopic_side (topic bar buy : Bool) (rest : List UInt8) :
    skipTopic ((if topic then bytesOf "signal" else []) ++ (if bar then [124] else []) ++
      sideText buy ++ rest) = sideText buy ++ rest := by
  rw [signal_bytes, sideText_bytes]
  unfold skipTopic
  rw [signal_bytes]
  cases topic <;> cases bar <;> cases buy <;> simp [List.isPrefixOf]

lemma readSide_eq_some {p rest : List UInt8} {side : Nat} :
    readSide p = some (side, rest) ↔
      ∃ buy : Bool, side = (if buy then 1 else 2) ∧ p = sideText buy ++ rest := by
  have hbuy : sideText true = bytesOf "BUY" := rfl
  have hsell : sideText false = bytesOf "SELL" := rfl
  constructor
  · intro h
    unfold readSide at h
    split at h
    · rename_i hp
      obtain ⟨t, rfl⟩ := List.isPrefixOf_iff_prefix.mp hp
      rw [Option.some.injEq, Prod.mk.injEq, List.drop_left' (by decide +kernel)] at h
      exact ⟨true, h.1.symm, by rw [hbuy, h.2]⟩
    · split at h
      · rename_i hp
        obtain ⟨t, rfl⟩ := List.isPrefixOf_iff_prefix.mp hp
        rw [Option.some.injEq, Prod.mk.injEq, List.drop_left' (by decide +kernel)] at h
        exact ⟨false, h.1.symm, by rw [hsell, h.2]⟩
      · cases h
  · rintro ⟨buy, rfl, rfl⟩
    have hbuyBytes : bytesOf "BUY" = [66, 85, 89] := by decide +kernel
    have hsellBytes : bytesOf "SELL" = [83, 69, 76, 76] := by decide +kernel
    rw [sideText_bytes]
    unfold readSide
    rw [hbuyBytes, hsellBytes]
    cases buy <;> simp [List.isPrefixOf]

lemma Frame.text_eq (f : Frame) :
    f.text = (if f.topic then bytesOf "signal" else []) ++ (if f.bar then [124] else []) ++
      sideText f.buy ++ comma :: (f.reason ++ comma :: (f.lead ++ comma :: (f.brokerBid ++ comma ::
        (f.brokerAsk ++ comma :: (f.threshold ++ comma :: (f.edge ++ comma :: f.tail)))))) := by
  simp [Frame.text, Frame.head, Frame.numbers]

/-- The frames are the texts that are read. -/
theorem readSignal_eq_ok {frame : List UInt8} {out : ExecSignal} :
    readSignal frame = .ok out ↔ ∃ f : Frame, f.text = frame ∧ f.signal = out := by
  unfold readSignal
  simp only [orReject_bind_ok, pastComma_eq_some]
  constructor
  · rintro ⟨⟨side, p⟩, hside, p1, hp1, p2, hp2, ⟨v3, p3⟩, hp3, ⟨v4, p4⟩, hp4, ⟨v5, p5⟩, hp5, ⟨v6, p6⟩, hp6,
      ⟨v7, p7⟩, hp7, hout⟩
    obtain ⟨topic, bar, hframe⟩ := skipTopic_spec frame
    obtain ⟨buy, rfl, hbuy⟩ := readSide_eq_some.mp hside
    obtain ⟨hreason, hreason_fits⟩ := fits_of_readField (by omega) (Prod.ext rfl hp2)
    obtain ⟨lead, hlead, hlead_fits, rfl⟩ := nextNum_eq_some.mp hp3
    obtain ⟨brokerBid, hbid, hbid_fits, rfl⟩ := nextNum_eq_some.mp hp4
    obtain ⟨brokerAsk, hask, hask_fits, rfl⟩ := nextNum_eq_some.mp hp5
    obtain ⟨threshold, hthreshold, hthreshold_fits, rfl⟩ := nextNum_eq_some.mp hp6
    obtain ⟨edge, hedge, hedge_fits, rfl⟩ := nextNum_eq_some.mp hp7
    have hnumbers : ∀ field ∈ [lead, brokerBid, brokerAsk, threshold, edge], Fits 48 field := by
      simp only [List.mem_cons, List.not_mem_nil, or_false]
      rintro field (rfl | rfl | rfl | rfl | rfl)
      · exact hlead_fits
      · exact hbid_fits
      · exact hask_fits
      · exact hthreshold_fits
      · exact hedge_fits
    refine ⟨⟨topic, bar, buy, (readField 24 p1).1, lead, brokerBid, brokerAsk, threshold, edge, p7,
      hreason_fits, hnumbers⟩, ?_, Except.ok.inj hout⟩
    rw [Frame.text_eq, ← hedge, ← hthreshold, ← hask, ← hbid, ← hlead, ← hreason, ← hp1,
      List.append_assoc _ (sideText buy), ← hbuy]
    exact hframe.symm
  · rintro ⟨f, rfl, rfl⟩
    have hfits := f.numbers_fit
    simp only [List.forall_mem_cons] at hfits
    obtain ⟨hlead, hbid, hask, hthreshold, hedge, -⟩ := hfits
    rw [f.text_eq, skipTopic_side]
    refine ⟨_, readSide_eq_some.mpr ⟨f.buy, rfl, rfl⟩, _, rfl, ?_⟩
    simp only [readField_fits f.reason_fits]
    exact ⟨_, rfl, _, nextNum_field hlead _, _, nextNum_field hbid _, _, nextNum_field hask _,
      _, nextNum_field hthreshold _, _, nextNum_field hedge f.tail, rfl⟩

/-- A text that is not read leaves the signal invalid. -/
lemma readSignal_error {frame : List UInt8} {out : ExecSignal} (h : readSignal frame = .error out) :
    out.valid = 0 := by
  unfold readSignal at h
  simp only [orReject_bind_error] at h
  rcases h with ⟨-, rfl⟩ | ⟨_, -, ⟨-, rfl⟩ | ⟨_, -, ⟨-, rfl⟩ | ⟨_, -, ⟨-, rfl⟩ | ⟨_, -, ⟨-, rfl⟩ |
    ⟨_, -, ⟨-, rfl⟩ | ⟨_, -, ⟨-, rfl⟩ | ⟨_, -, ⟨-, rfl⟩ | ⟨_, -, hlast⟩⟩⟩⟩⟩⟩⟩⟩
  all_goals first | rfl | cases hlast

theorem decodeSignal_text (f : Frame) : decodeSignal f.text = ((strtod f.lead).isPos, f.signal) := by
  have hread : readSignal f.text = .ok f.signal := readSignal_eq_ok.mpr ⟨f, rfl, rfl⟩
  have hside : f.signal.side ≠ 0 := by
    show (if f.buy then 1 else 2) ≠ 0
    split <;> omega
  unfold decodeSignal
  rw [hread]
  simp only [decide_eq_true hside, Bool.true_and]
  rfl

theorem decodeSignal_not_frame {frame : List UInt8} (h : ∀ f : Frame, f.text ≠ frame) :
    (decodeSignal frame).1 = false ∧ (decodeSignal frame).2.valid = 0 := by
  unfold decodeSignal
  match hread : readSignal frame with
  | .error out => exact ⟨rfl, readSignal_error hread⟩
  | .ok out =>
    obtain ⟨f, hf, -⟩ := readSignal_eq_ok.mp hread
    exact absurd hf (h f)

end Wire

end LatencyArb
