import LatencyArb.LeadLag.Executor
import LatencyArb.Library.FormEncoding

/-!
# The form of an FXCM order

Whatever bytes the account, the symbol and the time in force are, the order is read as the pairs that
`build_order_body` is given.
-/

namespace LatencyArb

open Numeral Wire FormEncoding

namespace LeadLag

section

variable (dump : Json → List UInt8) (cfg : Config)

/-- What the order is to say. -/
def orderPairs (s : Signal) : List (List UInt8 × List UInt8) := [
  (bytesOf "account_id", cfg.fxcmAccountId),
  (bytesOf "symbol", cfg.fxcmSymbol),
  (bytesOf "is_buy", bytesOf (if s.direction = bytesOf "buy" then "true" else "false")),
  (bytesOf "amount", fixed6 cfg.tradeAmount),
  (bytesOf "rate", bytesOf "0"),
  (bytesOf "at_market", bytesOf "0"),
  (bytesOf "order_type", bytesOf "AtMarket"),
  (bytesOf "time_in_force", cfg.fxcmTimeInForce),
  (bytesOf "stop", bytesOf (toString (-cfg.stopLossPips))),
  (bytesOf "limit", bytesOf (toString cfg.takeProfitPips)),
  (bytesOf "is_in_pips", bytesOf "true")]

lemma urlencode_eq (s : List UInt8) : urlencode s = percentEncode isUnreserved s := rfl

lemma isUnreserved_of_digit {c : UInt8} (h : isDigit c = true) : isUnreserved c = true := by
  have hbounds : 48 ≤ c ∧ c ≤ 57 := of_decide_eq_true h
  simp [isUnreserved, hbounds.1, hbounds.2]

/-- Integers are written without a byte to encode. -/
lemma toString_unreserved (n : Int) : ∀ c ∈ bytesOf (toString n), isUnreserved c = true := by
  intro c hc
  rw [← IntNumeral.ofInt_text] at hc
  rcases List.mem_append.mp hc with hsign | hdigit
  · unfold IntNumeral.ofInt at hsign
    by_cases hn : n < 0
    · simp only [if_pos hn, Sign.text, List.mem_singleton] at hsign
      rw [hsign]
      decide
    · simp only [if_neg hn, Sign.text] at hsign
      cases hsign
  · exact isUnreserved_of_digit ((isDigits_iff.mp (IntNumeral.ofInt n).valid).2 c hdigit)

/-- Nor is there one in the other values that are written as they are. -/
lemma literal_unreserved {text : String} (h : text ∈ ["true", "false", "0", "AtMarket"]) :
    ∀ c ∈ bytesOf text, isUnreserved c = true := by
  have hall : ∀ text ∈ ["true", "false", "0", "AtMarket"], ∀ c ∈ bytesOf text, isUnreserved c = true := by
    decide +kernel
  exact hall text h

/-- The body is the form of the pairs. -/
lemma buildOrderBody_eq (s : Signal) (hform : cfg.fxcmUseJson = false) :
    buildOrderBody dump cfg s = writeForm isUnreserved (orderPairs cfg s) := by
  have hbuy : (if s.direction = bytesOf "buy" then "true" else "false") ∈ ["true", "false", "0", "AtMarket"] := by
    split <;> simp
  have hplain : ∀ text ∈ ["true", "false", "0", "AtMarket"],
      percentEncode isUnreserved (bytesOf text) = bytesOf text :=
    fun text htext => percentEncode_plain (literal_unreserved htext)
  have hnumber : ∀ n : Int, percentEncode isUnreserved (bytesOf (toString n)) = bytesOf (toString n) :=
    fun n => percentEncode_plain (toString_unreserved n)
  have haccount : bytesOf "account_id=" = bytesOf "account_id" ++ [61] := by decide +kernel
  have hsymbol : bytesOf "&symbol=" = 38 :: (bytesOf "symbol" ++ [61]) := by decide +kernel
  have hisBuy : bytesOf "&is_buy=" = 38 :: (bytesOf "is_buy" ++ [61]) := by decide +kernel
  have hamount : bytesOf "&amount=" = 38 :: (bytesOf "amount" ++ [61]) := by decide +kernel
  have hrate : bytesOf "&rate=0" = 38 :: (bytesOf "rate" ++ 61 :: bytesOf "0") := by decide +kernel
  have hmarket : bytesOf "&at_market=0" = 38 :: (bytesOf "at_market" ++ 61 :: bytesOf "0") := by decide +kernel
  have htype : bytesOf "&order_type=AtMarket" = 38 :: (bytesOf "order_type" ++ 61 :: bytesOf "AtMarket") := by
    decide +kernel
  have htif : bytesOf "&time_in_force=" = 38 :: (bytesOf "time_in_force" ++ [61]) := by decide +kernel
  have hstop : bytesOf "&stop=" = 38 :: (bytesOf "stop" ++ [61]) := by decide +kernel
  have hlimit : bytesOf "&limit=" = 38 :: (bytesOf "limit" ++ [61]) := by decide +kernel
  have hpips : bytesOf "&is_in_pips=true" = 38 :: (bytesOf "is_in_pips" ++ 61 :: bytesOf "true") := by
    decide +kernel
  unfold buildOrderBody orderPairs
  rw [haccount, hsymbol, hisBuy, hamount, hrate, hmarket, htype, htif, hstop, hlimit, hpips]
  simp only [hform, Bool.false_eq_true, if_false, decide_eq_true_eq, urlencode_eq, writeForm_cons, writeForm_singleton,
    writePart, hplain _ hbuy, hplain "0" (by simp), hplain "AtMarket" (by simp), hplain "true" (by simp), hnumber,
    List.append_assoc, List.cons_append, List.nil_append]

/-- The order is read as what it is to say. -/
theorem order_form_unambiguous (s : Signal) (hform : cfg.fxcmUseJson = false) :
    readForm (buildOrderBody dump cfg s) = some (orderPairs cfg s) := by
  have hnames : ∀ key ∈ (orderPairs cfg s).map Prod.fst, 38 ∉ key ∧ 61 ∉ key := by
    show ∀ key ∈ ["account_id", "symbol", "is_buy", "amount", "rate", "at_market", "order_type",
      "time_in_force", "stop", "limit", "is_in_pips"].map bytesOf, (38 : UInt8) ∉ key ∧ (61 : UInt8) ∉ key
    decide +kernel
  have hkeys : ∀ pair ∈ orderPairs cfg s, 38 ∉ pair.1 ∧ 61 ∉ pair.1 :=
    fun pair hpair => hnames pair.1 (List.mem_map_of_mem hpair)
  rw [buildOrderBody_eq dump cfg s hform]
  exact readForm_writeForm rfl rfl (by simp [orderPairs]) hkeys

/-- An account that tries to set another field. -/
theorem order_form_hostile :
    readForm (buildOrderBody (fun _ => []) { fxcmAccountId := bytesOf "7&is_buy=true&x=%26" }
        ⟨bytesOf "sell", [], 0, 0⟩) =
      some (orderPairs { fxcmAccountId := bytesOf "7&is_buy=true&x=%26" } ⟨bytesOf "sell", [], 0, 0⟩) :=
  order_form_unambiguous _ _ _ rfl

end

end LeadLag

end LatencyArb
