import LatencyArb.Library.GeneralFormat
import LatencyArb.Library.Json
import LatencyArb.Oanda.Orders

/-!
# The body of an OANDA order (`json_str` and `send_market_order` of `src/oanda_executor.cpp`)

`json_str` escapes quotes, backslashes and line ends, and no other control character.
-/

namespace LatencyArb

namespace Oanda

open Json

/-- An instrument without control characters other than those that `json_str` escapes. -/
def Plain (s : List Char) : Prop := ∀ c ∈ s, isControl c = true → c = '\n' ∨ c = '\r'

/-- What the body of an order is to say. -/
def MarketOrder.value (order : MarketOrder) : Value :=
  .obj (.more "order".toList (.obj
    (.more "type".toList (.str "MARKET".toList)
      (.more "instrument".toList (.str order.instrument.toList)
        (.more "units".toList (.str (toString order.units).toList)
          (.more "timeInForce".toList (.str "FOK".toList)
            (.more "positionFill".toList (.str "DEFAULT".toList)
              (.more "stopLossOnFill".toList
                (.obj (.more "distance".toList (.str order.stopLossDistance.toList) .none))
                (.more "takeProfitOnFill".toList
                  (.obj (.more "distance".toList (.str order.takeProfitDistance.toList) .none)) .none))))))))
    .none)

/-! ## The strings -/

/-- `json_str` on characters. -/
def literal (s : List Char) : List Char := '\"' :: (s.flatMap (fun c => (escapeJson c).toList) ++ ['\"'])

lemma jsonStr_toList (s : String) : (jsonStr s).toList = literal s.toList := by
  unfold jsonStr literal
  rw [String.toList_append, String.toList_append, String.toList_join, List.flatMap_map]
  rfl

lemma readString_escape (c : Char) (rest : List Char) :
    readString ((escapeJson c).toList ++ rest) =
      if isControl c = true ∧ c ≠ '\n' ∧ c ≠ '\r' then none
      else (readString rest).map (fun r => (c :: r.1, r.2)) := by
  unfold escapeJson
  by_cases hquote : c = '\"'
  · subst hquote
    exact readString_escaped rfl rest
  by_cases hslash : c = '\\'
  · subst hslash
    exact readString_escaped rfl rest
  by_cases hline : c = '\n'
  · subst hline
    exact readString_escaped rfl rest
  by_cases hreturn : c = '\r'
  · subst hreturn
    exact readString_escaped rfl rest
  rw [if_neg hquote, if_neg hslash, if_neg hline, if_neg hreturn, String.toList_singleton, List.singleton_append,
    readString_other hquote hslash]
  simp only [hline, hreturn, not_false_eq_true, and_true, ne_eq]

/-- The strings that `json_str` writes are read back if and only if they are plain. -/
lemma literal_reads (s rest : List Char) :
    (Plain s → readString (s.flatMap (fun c => (escapeJson c).toList) ++ '\"' :: rest) = some (s, rest)) ∧
      (¬Plain s → readString (s.flatMap (fun c => (escapeJson c).toList) ++ '\"' :: rest) = none) := by
  induction s with
  | nil =>
    refine ⟨fun _ => readString_end rest, fun h => absurd ?_ h⟩
    simp [Plain]
  | cons c s ih =>
    rw [List.flatMap_cons, List.append_assoc, readString_escape]
    have hplain : Plain (c :: s) ↔ (isControl c = true → c = '\n' ∨ c = '\r') ∧ Plain s := List.forall_mem_cons
    by_cases hc : isControl c = true ∧ c ≠ '\n' ∧ c ≠ '\r'
    · rw [if_pos hc, hplain]
      refine ⟨fun h => ?_, fun _ => rfl⟩
      obtain hline | hreturn := h.1 hc.1
      · exact absurd hline hc.2.1
      · exact absurd hreturn hc.2.2
    · rw [if_neg hc, hplain]
      have hhead : isControl c = true → c = '\n' ∨ c = '\r' := by
        intro hcontrol
        by_contra hother
        exact hc ⟨hcontrol, not_or.mp hother⟩
      constructor
      · intro h
        rw [ih.1 h.2, Option.map_some]
      · intro h
        rw [ih.2 (fun hs => h ⟨hhead, hs⟩), Option.map_none]

lemma literal_spec : Literal literal Plain where
  quoted s := ⟨_, rfl⟩
  reads s rest h := by
    show readString ((s.flatMap _ ++ ['\"']) ++ rest) = _
    rw [List.append_assoc, List.singleton_append]
    exact (literal_reads s rest).1 h
  fails s rest h := by
    show readString ((s.flatMap _ ++ ['\"']) ++ rest) = _
    rw [List.append_assoc, List.singleton_append]
    exact (literal_reads s rest).2 h

/-! ## The body -/

/-- The characters that `json_str` leaves as they are. -/
lemma literal_of_unescaped {s : List Char} (h : ∀ c ∈ s, (escapeJson c).toList = [c]) :
    literal s = '\"' :: (s ++ ['\"']) := by
  unfold literal
  rw [List.flatMap_congr h, List.flatMap_singleton']

lemma body_eq {instrument stop take : String} {units : Int} (hstop : ∀ c ∈ stop.toList, (escapeJson c).toList = [c])
    (htake : ∀ c ∈ take.toList, (escapeJson c).toList = [c]) :
    (MarketOrder.mk instrument units stop take).body.toList =
      (MarketOrder.mk instrument units stop take).value.text literal := by
  unfold MarketOrder.body MarketOrder.value
  simp only [Value.text, Members.text, literal_of_unescaped hstop, literal_of_unescaped htake,
    String.toList_append, jsonStr_toList, List.append_assoc, List.cons_append, List.nil_append]
  rfl

lemma toString_char {n : Nat} {c : Char} (h : c ∈ (toString n).toList) : c.isDigit = true := by
  rw [Nat.toString_eq_ofList_toDigits, String.toList_ofList] at h
  exact Numeral.isDigit_toDigits n c h

lemma padLeft_char {width n : Nat} {c : Char} (h : c ∈ (padLeft width (toString n)).toList) : c.isDigit = true := by
  rw [Numeral.padLeft_toString, String.toList_ofList] at h
  exact Numeral.isDigit_padded width n c h

lemma fixedPoint_char {places : Nat} {x : ℚ} {c : Char} (h : c ∈ (fixedPoint places x).toList) :
    c.isDigit = true ∨ c = '.' ∨ c = '-' := by
  unfold fixedPoint at h
  dsimp only at h
  have hbody : c ∈ (toString ((roundEven (x * 10 ^ places)).natAbs / 10 ^ places) ++ "." ++
      padLeft places (toString ((roundEven (x * 10 ^ places)).natAbs % 10 ^ places))).toList →
      c.isDigit = true ∨ c = '.' ∨ c = '-' := by
    intro h
    rw [String.toList_append, String.toList_append, List.mem_append, List.mem_append] at h
    obtain (hwhole | hpoint) | hfraction := h
    · exact .inl (toString_char hwhole)
    · exact .inr (.inl (List.mem_singleton.mp hpoint))
    · exact .inl (padLeft_char hfraction)
  split at h
  · rw [String.toList_append, List.mem_append] at h
    obtain hminus | h := h
    · exact .inr (.inr (List.mem_singleton.mp hminus))
    · exact hbody h
  · exact hbody h

lemma trimZeros_char {text : String} {c : Char} (h : c ∈ (trimZeros text).toList) : c ∈ text.toList := by
  obtain ⟨rest, hrest⟩ := Numeral.trimZeros_prefix text
  rw [← hrest, String.toList_append]
  exact List.mem_append_left _ h

lemma distance_char {pips : ℚ} {c : Char} (h : c ∈ (distanceStr pips).toList) :
    c.isDigit = true ∨ c = '.' ∨ c = '-' := by
  unfold distanceStr at h
  dsimp only at h
  split at h
  · obtain rfl := List.mem_singleton.mp h
    exact .inl rfl
  · exact fixedPoint_char (trimZeros_char h)

/-- A distance needs no escapes. -/
lemma distance_unescaped (pips : ℚ) : ∀ c ∈ (distanceStr pips).toList, (escapeJson c).toList = [c] := by
  intro c h
  have hchar := distance_char h
  have hmarks : c ≠ '\"' ∧ c ≠ '\\' ∧ c ≠ '\n' ∧ c ≠ '\r' := by
    refine ⟨?_, ?_, ?_, ?_⟩
    all_goals
      rintro rfl
      exact absurd hchar (by decide)
  unfold escapeJson
  rw [if_neg hmarks.1, if_neg hmarks.2.1, if_neg hmarks.2.2.1, if_neg hmarks.2.2.2, String.toList_singleton]

lemma plain_of_char {s : List Char} (h : ∀ c ∈ s, c.isDigit = true ∨ c = '.' ∨ c = '-') : Plain s := by
  intro c hc hcontrol
  obtain hdigit | rfl | rfl := h c hc
  · unfold Char.isDigit at hdigit
    simp only [Bool.and_eq_true, decide_eq_true_eq, ge_iff_le, UInt32.le_iff_toNat_le] at hdigit
    have hlow : 48 ≤ c.toNat := hdigit.1
    have hsmall : c.toNat < 32 := of_decide_eq_true hcontrol
    omega
  · cases hcontrol
  · cases hcontrol

lemma plain_toString (n : Int) : Plain (toString n).toList := by
  apply plain_of_char
  intro c hc
  match n with
  | .ofNat m => exact .inl (toString_char hc)
  | .negSucc m =>
    have htext : toString (Int.negSucc m) = "-" ++ toString (m + 1) := rfl
    rw [htext, String.toList_append, List.mem_append] at hc
    obtain hminus | hdigits := hc
    · exact .inr (.inr (List.mem_singleton.mp hminus))
    · exact .inl (toString_char hdigits)

lemma plain_distance (pips : ℚ) : Plain (distanceStr pips).toList :=
  plain_of_char (fun _ hc => distance_char hc)

/-- The strings that stand in every body. -/
lemma fixed_plain : ∀ s ∈ ["order", "type", "MARKET", "instrument", "units", "timeInForce", "FOK", "positionFill",
    "DEFAULT", "stopLossOnFill", "distance", "takeProfitOnFill"], Plain s.toList := by
  intro s hs c hc hcontrol
  have hall : (["order", "type", "MARKET", "instrument", "units", "timeInForce", "FOK", "positionFill", "DEFAULT",
      "stopLossOnFill", "distance", "takeProfitOnFill"].all (fun s => s.toList.all (fun c => !isControl c))) = true := by
    decide +kernel
  have hclean := List.all_eq_true.mp (List.all_eq_true.mp hall s hs) c hc
  rw [hcontrol] at hclean
  cases hclean

lemma clean_value_iff {instrument stop take : String} {units : Int} (hstop : Plain stop.toList)
    (htake : Plain take.toList) :
    (MarketOrder.mk instrument units stop take).value.Clean Plain ↔ Plain instrument.toList := by
  have hfixed := fixed_plain
  simp only [List.forall_mem_cons, List.not_mem_nil, false_imp_iff, implies_true, and_true] at hfixed
  have hunits := plain_toString units
  unfold MarketOrder.value
  simp only [Value.Clean, Members.Clean, hfixed, hunits, hstop, htake, and_true, true_and]

/-- The body of an order is read as that order if and only if its instrument is plain. -/
lemma body_reads_iff (job : OrderJob) :
    Json.read (marketOrder job).body.toList = some (marketOrder job).value ↔ Plain job.instrument.toList := by
  have hstop := distance_unescaped job.stoplossPips
  have htake := distance_unescaped job.takeprofitPips
  unfold marketOrder
  rw [body_eq hstop htake, literal_spec.read_text_iff, clean_value_iff (plain_distance _) (plain_distance _)]

/-- In every run: the requests that the broker has received read as the market orders of calls of `execute` in this
run that were taken, if and only if none of their instruments has a control character besides line ends. -/
theorem received_orders_read_iff (cfg : Config) {run : List Action} {e : OandaExecutor}
    (hrun : (OandaExecutor.machine cfg).run (OandaExecutor.machine cfg).init run = some e) :
    (∀ r ∈ e.received, Action.execute r.job ∈ run ∧ r.job.Accepted ∧
      Json.read r.request.order.body.toList = some (marketOrder r.job).value) ↔
        ∀ r ∈ e.received, Plain r.job.instrument.toList := by
  have hsound := OandaExecutor.run_ordersOf hrun
  apply forall₂_congr
  intro r hr
  obtain ⟨⟨haccepted, hexecuted⟩, hrequest⟩ := hsound.received r hr
  have hbody : r.request.order = marketOrder r.job := by
    rw [hrequest]
    rfl
  rw [hbody, and_iff_right hexecuted, and_iff_right haccepted, body_reads_iff]

/-- An order for an instrument with a tab reaches the broker. -/
def tabOrder : List Action :=
  [.start, .connect true, .execute ⟨"XAU\tUSD", "buy", 1, 1 / 10, 1 / 5⟩, .loop, .take, .write true none]

/-- It does not read as an order. -/
theorem received_orders_read_iff_tab :
    ∃ e, (OandaExecutor.machine {}).run (OandaExecutor.machine {}).init tabOrder = some e ∧
      ¬∀ r ∈ e.received, Action.execute r.job ∈ tabOrder ∧ r.job.Accepted ∧
        Json.read r.request.order.body.toList = some (marketOrder r.job).value := by
  have hreceived : ((OandaExecutor.machine {}).run (OandaExecutor.machine {}).init tabOrder).map
      (fun e => e.received.map (fun r => r.job.instrument)) = some ["XAU\tUSD"] := by decide +kernel
  obtain ⟨e, hrun, hinstruments⟩ := Option.map_eq_some_iff.mp hreceived
  refine ⟨e, hrun, fun hreads => ?_⟩
  obtain ⟨r, hr, hinstrument⟩ := List.mem_map.mp (hinstruments ▸ List.mem_singleton_self "XAU\tUSD" :
    "XAU\tUSD" ∈ e.received.map (fun r => r.job.instrument))
  have htab := (received_orders_read_iff {} hrun).mp hreads r hr '\t' (by rw [hinstrument]; decide +kernel) rfl
  exact absurd htab (by decide)

end Oanda

end LatencyArb
