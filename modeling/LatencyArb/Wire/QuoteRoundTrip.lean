import LatencyArb.Engine
import LatencyArb.Subscribers

/-!
# The round trip of a quote

`quote_frame` puts the time stamp in front, where `BrokerSub` looks for the bid. A quote that is written by the
one and read by the other comes back only where this makes no difference.
-/

namespace LatencyArb

open Numeral

namespace Wire

variable {q : WireQuote} {topic frame : List UInt8}

/-- A valid quote with 0 < bid <= ask whose integers have their types. -/
structure WireQuote.Sound (q : WireQuote) : Prop where
  tsMs : -2 ^ 63 ≤ q.tsMs ∧ q.tsMs < 2 ^ 63
  latencyUs : -2 ^ 63 ≤ q.latencyUs ∧ q.latencyUs < 2 ^ 63
  session : q.session < 256
  bid : q.bid.isPos = true
  ask : q.bid.le q.ask = true
  valid : q.valid = 1

/-- The quote with the prices that six decimals show. -/
def WireQuote.rounded (q : WireQuote) : WireQuote :=
  { q with bid := round6 q.bid, ask := round6 q.ask, spread := round6 q.spread }

/-! ## The fields of the text -/

lemma fixed6_clean {c : UInt8} (hc : c = comma ∨ c = 0) (x : Double) : c ∉ fixed6 x := by
  cases x with
  | finite p =>
    have htext : fixed6 (.finite p) = (fixedDecimal 6 (by omega) p).text :=
      (fixedDecimal_text (by omega) p).symm
    rw [htext]
    rcases hc with rfl | rfl
    · exact Decimal.notMem_text _ (by decide) (by decide)
    · exact Decimal.notMem_text _ (by decide) (by decide)
  | inf negative =>
    rcases hc with rfl | rfl
    · cases negative <;> decide +kernel
    · cases negative <;> decide +kernel
  | nan negative =>
    rcases hc with rfl | rfl
    · cases negative <;> decide +kernel
    · cases negative <;> decide +kernel

lemma integer_clean {c : UInt8} (hc : c = comma ∨ c = 0) (n : ℤ) : c ∉ bytesOf (toString n) := by
  rw [← IntNumeral.ofInt_text]
  rcases hc with rfl | rfl
  · exact IntNumeral.notMem_text _ (by decide) (by decide)
  · exact IntNumeral.notMem_text _ (by decide) (by decide)

lemma toString_natCast (n : Nat) : toString (n : ℤ) = toString n := rfl

lemma fields_clean {c : UInt8} (hc : c = comma ∨ c = 0) : ∀ field ∈ q.fields, c ∉ field := by
  have hnat : ∀ n : Nat, c ∉ bytesOf (toString n) := fun n => toString_natCast n ▸ integer_clean hc n
  unfold WireQuote.fields
  simp only [List.forall_mem_cons]
  exact ⟨integer_clean hc _, fixed6_clean hc _, fixed6_clean hc _, fixed6_clean hc _, integer_clean hc _,
    hnat _, hnat _, by simp⟩

lemma fields_text : [comma].intercalate q.fields =
    bytesOf (toString q.tsMs) ++ comma :: (fixed6 q.bid ++ comma :: (fixed6 q.ask ++ comma ::
      (fixed6 q.spread ++ comma :: (bytesOf (toString q.latencyUs) ++ comma ::
        (bytesOf (toString q.session) ++ comma :: bytesOf (toString q.valid)))))) := by
  simp [WireQuote.fields, List.intercalate]

lemma quoteText_nul : 0 ∉ quoteText q := by
  have htopic : (0 : UInt8) ∉ bytesOf "quote|" := by decide +kernel
  have hcomma : (0 : UInt8) ≠ comma := by decide
  have hfields := fields_clean (q := q) (.inr rfl)
  unfold WireQuote.fields at hfields
  simp only [List.forall_mem_cons] at hfields
  obtain ⟨htsMs, hbid, hask, hspread, hlatency, hsession, hvalid, -⟩ := hfields
  unfold quoteText
  rw [fields_text]
  simp only [List.mem_append, List.mem_cons, hcomma, htopic, htsMs, hbid, hask, hspread, hlatency, hsession,
    hvalid, or_self, not_false_eq_true]

lemma quoteFrame_cString : cString (quoteFrame q) = quoteFrame q :=
  cString_eq (fun h => quoteText_nul (List.mem_of_mem_take h))

/-- Behind the topic stand the first 153 bytes of the fields. -/
lemma quoteBody_quoteFrame :
    quoteBody (bytesOf "quote") (quoteFrame q) = ([comma].intercalate q.fields).take 153 := by
  have htopic : bytesOf "quote|" = bytesOf "quote" ++ [124] := by decide +kernel
  have hlength : (bytesOf "quote|").length = 6 := by decide +kernel
  have hsize : (bytesOf "quote").length = 5 := by decide +kernel
  have hframe : quoteFrame q = bytesOf "quote" ++ 124 :: ([comma].intercalate q.fields).take 153 := by
    unfold quoteFrame quoteText
    rw [List.take_append, hlength, List.take_of_length_le (by omega), htopic, List.append_assoc]
    rfl
  have hfind : findSub (bytesOf "quote") (quoteFrame q) = some 0 := by
    rw [hframe]
    exact findSub_start (List.prefix_append _ _)
  unfold quoteBody
  rw [hfind, hframe]
  simp only [Nat.zero_add, List.drop_left]
  rfl

lemma splitOn_take_field {field rest : List UInt8} {m : Nat} (h : comma ∉ field) (hm : field.length < m) :
    ((field ++ comma :: rest).take m).splitOn comma =
      field :: (rest.take (m - field.length - 1)).splitOn comma := by
  obtain ⟨k, hk⟩ := Nat.exists_eq_add_of_lt hm
  rw [List.take_append, List.take_of_length_le hm.le, hk]
  have hroom : field.length + k + 1 - field.length = k + 1 := by omega
  rw [hroom, List.take_succ_cons, List.splitOn_append_cons_self_of_not_mem h]
  rfl

/-! ## What is read -/

lemma strtod_integer {n : ℤ} (h : -2 ^ 63 ≤ n ∧ n < 2 ^ 63) : strtod (bytesOf (toString n)) = .finite n := by
  rw [← IntNumeral.ofInt_text, IntNumeral.strtod_text, IntNumeral.ofInt_value]
  apply Double.ofRat_eq
  · have habs : |n| ≤ 2 ^ 63 := abs_le.mpr ⟨h.1, h.2.le⟩
    have hcast : |(n : ℚ)| ≤ 2 ^ 63 := by exact_mod_cast habs
    exact hcast.trans_lt (by norm_num)
  · by_cases hzero : n = 0
    · left
      exact_mod_cast hzero
    · right
      have hone : (1 : ℚ) ≤ |(n : ℚ)| := by exact_mod_cast Int.one_le_abs hzero
      exact (by norm_num : (1 : ℚ) / 10 ^ 64 ≤ 1).trans hone

lemma atoll_integer {n : ℤ} (h : -2 ^ 63 ≤ n ∧ n < 2 ^ 63) : atoll (bytesOf (toString n)) = n := by
  have hvalue := IntNumeral.ofInt_value n
  rw [← hvalue] at h
  rw [← IntNumeral.ofInt_text, atoll_text h.1 h.2, hvalue]

lemma round6_eq_integer {x : Double} {n : ℤ} (h : round6 x = .finite n) :
    ∃ p : ℚ, x = .finite p ∧ roundEven (p * 10 ^ 6) = n * 10 ^ 6 := by
  cases x with
  | finite p =>
    refine ⟨p, rfl, ?_⟩
    have hvalue : roundTo 6 p = n := Double.finite.inj h
    unfold roundTo at hvalue
    rw [div_eq_iff (by norm_num)] at hvalue
    exact_mod_cast hvalue
  | inf negative => cases h
  | nan negative => cases h

/-- A price that shows an integer of 64 bits has a short text, and is read as this integer. -/
lemma fixed6_integer {x : Double} {n : ℤ} (hn : -2 ^ 63 ≤ n ∧ n < 2 ^ 63) (h : round6 x = .finite n) :
    (fixed6 x).length ≤ 28 ∧ strtod (fixed6 x) = .finite n := by
  obtain ⟨p, rfl, hrounded⟩ := round6_eq_integer h
  have hsmall : |p| < 10 ^ 19 := by
    have hlow : (⌊p * 10 ^ 6⌋ : ℚ) ≤ p * 10 ^ 6 := Int.floor_le _
    have hhigh : p * 10 ^ 6 < ⌊p * 10 ^ 6⌋ + 1 := Int.lt_floor_add_one _
    obtain ⟨hdown, hup⟩ := roundEven_between (p * 10 ^ 6)
    rw [hrounded] at hdown hup
    have hfloor : (-2 ^ 63 * 10 ^ 6 - 1 : ℚ) ≤ ⌊p * 10 ^ 6⌋ := by
      have hint : -2 ^ 63 * 10 ^ 6 - 1 ≤ ⌊p * 10 ^ 6⌋ := by omega
      exact_mod_cast hint
    have hceil : (⌊p * 10 ^ 6⌋ : ℚ) ≤ 2 ^ 63 * 10 ^ 6 := by
      have hint : ⌊p * 10 ^ 6⌋ ≤ 2 ^ 63 * 10 ^ 6 := by omega
      exact_mod_cast hint
    rw [abs_lt]
    constructor <;> linarith
  constructor
  · have htext : fixed6 (.finite p) = (fixedDecimal 6 (by omega) p).text :=
      (fixedDecimal_text (by omega) p).symm
    have hlength := fixedDecimal_length (by omega : 0 < 6) hsmall
    rw [htext]
    omega
  · rw [strtod_fixed6_finite (hsmall.trans (by norm_num))]
    exact h

/-- What `atoll` reads of such a price. -/
lemma atoll_fixed6 {x : Double} {n : ℤ} (hpos : 0 < n) (hn : n < 2 ^ 63) (h : round6 x = .finite n) :
    atoll (fixed6 x) = n := by
  obtain ⟨p, rfl, hrounded⟩ := round6_eq_integer h
  have htext : fixed6 (.finite p) = (fixedDecimal 6 (by omega) p).text :=
    (fixedDecimal_text (by omega) p).symm
  have hsign : ¬p < 0 := by
    intro hneg
    have hle := roundEven_nonpos (mul_neg_of_neg_of_pos hneg (by norm_num : (0 : ℚ) < 10 ^ 6))
    omega
  have hwhole : digitsValue (fixedDecimal 6 (by omega) p).whole = n.toNat := by
    show digitsValue (bytesOf (toString ((roundEven (p * 10 ^ 6)).natAbs / 10 ^ 6))) = _
    rw [(toString_digits _).2, hrounded]
    omega
  have hfactor : (fixedDecimal 6 (by omega) p).sign.factor = 1 := by
    unfold fixedDecimal
    rw [if_neg hsign]
    rfl
  rw [htext, atoll_decimal, hwhole, hfactor]
  omega

lemma quoteOf_fields (t b a s l n v : List UInt8) : quoteOf [t, b, a, s, l, n, v] =
    { tsMs := atoll s, bid := strtod t, ask := strtod b, spread := strtod a, latencyUs := atoll l
      session := toByte (atoll n), valid := 1 } := rfl

/-- A quote is only pushed where there are three parts for its prices. -/
lemma readQuote_prices (h : readQuote topic frame = some q) :
    ∃ x y z rest, (quoteBody topic frame).splitOn comma = x :: y :: z :: rest ∧
      q.bid = strtod x ∧ q.ask = strtod y ∧ q.spread = strtod z ∧ q.bid.isPos = true := by
  unfold readQuote at h
  split at h
  · rename_i haccept
    cases h
    have hpos : (parseQuote topic frame).bid.isPos = true := by
      unfold acceptQuote at haccept
      simp only [Bool.and_eq_true] at haccept
      exact haccept.1.1
    unfold parseQuote at hpos ⊢
    generalize (quoteBody topic frame).splitOn comma = parts at hpos ⊢
    match parts with
    | [] => cases hpos
    | [x] => cases hpos
    | [x, y] => cases hpos
    | x :: y :: z :: rest =>
      have hthree : 3 ≤ (x :: y :: z :: rest).length := by
        simp only [List.length_cons]
        omega
      have hprice : ∀ price : Double,
          (if 3 ≤ (x :: y :: z :: rest).length then price else .finite 0) = price :=
        fun price => if_pos hthree
      exact ⟨x, y, z, rest, rfl, hprice (strtod x), hprice (strtod y), hprice (strtod z), hpos⟩
  · cases h

lemma readQuote_eq_some : readQuote topic frame = some q ↔
    parseQuote topic frame = q ∧ acceptQuote q = true := by
  unfold readQuote
  split
  · rename_i haccept
    rw [Option.some.injEq]
    constructor
    · rintro rfl
      exact ⟨rfl, haccept⟩
    · exact And.left
  · rename_i hreject
    simp only [reduceCtorEq, false_iff]
    rintro ⟨rfl, haccept⟩
    exact hreject haccept

lemma integer_length {n : ℤ} (h : -2 ^ 63 ≤ n ∧ n < 2 ^ 63) : (bytesOf (toString n)).length ≤ 20 := by
  have hdigits : (IntNumeral.ofInt n).digits.length ≤ 19 := by
    apply length_toString (by omega)
    omega
  have hsign := (IntNumeral.ofInt n).sign.length_text
  rw [← IntNumeral.ofInt_text, IntNumeral.text, List.length_append]
  omega

/-- The time stamp is read as the bid, the bid as the ask and the ask as the spread. -/
lemma prices_shifted (hq : q.Sound) (h : readQuote (bytesOf "quote") (quoteFrame q) = some q.rounded) :
    0 < q.tsMs ∧ round6 q.bid = .finite q.tsMs ∧ round6 q.ask = .finite q.tsMs ∧
      round6 q.spread = .finite q.tsMs := by
  obtain ⟨x, y, z, rest, hparts, hbid, hask, hspread, hpos⟩ := readQuote_prices h
  have htsMs := integer_length hq.tsMs
  rw [quoteBody_quoteFrame, fields_text,
    splitOn_take_field (integer_clean (.inl rfl) _) (by omega)] at hparts
  obtain ⟨rfl, hbidParts⟩ := List.cons.inj hparts
  have hbid' : round6 q.bid = .finite q.tsMs := hbid.trans (strtod_integer hq.tsMs)
  obtain ⟨hbidLength, hbidRead⟩ := fixed6_integer hq.tsMs hbid'
  rw [splitOn_take_field (fixed6_clean (.inl rfl) _) (by omega)] at hbidParts
  obtain ⟨rfl, haskParts⟩ := List.cons.inj hbidParts
  have hask' : round6 q.ask = .finite q.tsMs := hask.trans hbidRead
  obtain ⟨haskLength, haskRead⟩ := fixed6_integer hq.tsMs hask'
  rw [splitOn_take_field (fixed6_clean (.inl rfl) _) (by omega)] at haskParts
  obtain ⟨rfl, -⟩ := List.cons.inj haskParts
  have hspread' : round6 q.spread = .finite q.tsMs := hspread.trans haskRead
  refine ⟨?_, hbid', hask', hspread'⟩
  have hpos' : (Double.finite (q.tsMs : ℚ)).isPos = true := hbid' ▸ hpos
  exact_mod_cast of_decide_eq_true hpos'

/-- Where all of them are one positive number, nothing is lost. -/
lemma prices_alike (hq : q.Sound) (hpos : 0 < q.tsMs) (hbid : round6 q.bid = .finite q.tsMs)
    (hask : round6 q.ask = .finite q.tsMs) (hspread : round6 q.spread = .finite q.tsMs) :
    readQuote (bytesOf "quote") (quoteFrame q) = some q.rounded := by
  obtain ⟨hbidLength, hbidRead⟩ := fixed6_integer hq.tsMs hbid
  obtain ⟨haskLength, haskRead⟩ := fixed6_integer hq.tsMs hask
  obtain ⟨hspreadLength, -⟩ := fixed6_integer hq.tsMs hspread
  have htsMsLength := integer_length hq.tsMs
  have hlatencyLength := integer_length hq.latencyUs
  have hsession : -2 ^ 63 ≤ (q.session : ℤ) ∧ (q.session : ℤ) < 2 ^ 63 := by
    have hbyte := hq.session
    omega
  have hsessionLength : (bytesOf (toString q.session)).length ≤ 20 := by
    rw [← toString_natCast]
    exact integer_length hsession
  have hvalidLength : (bytesOf (toString q.valid)).length ≤ 1 := by
    rw [hq.valid]
    exact length_toString (by omega) (by omega)
  have hshort : ([comma].intercalate q.fields).length ≤ 153 := by
    rw [fields_text]
    simp only [List.length_append, List.length_cons]
    omega
  have hparts : (quoteBody (bytesOf "quote") (quoteFrame q)).splitOn comma = q.fields := by
    rw [quoteBody_quoteFrame, List.take_of_length_le hshort]
    exact List.splitOn_intercalate comma (fields_clean (.inl rfl)) (by simp [WireQuote.fields])
  have hsessionRead : toByte (atoll (bytesOf (toString q.session))) = q.session := by
    have hbyte := hq.session
    rw [← toString_natCast, atoll_integer hsession]
    unfold toByte
    omega
  rw [readQuote_eq_some]
  constructor
  · unfold parseQuote
    rw [hparts, WireQuote.fields, quoteOf_fields, strtod_integer hq.tsMs, hbidRead, haskRead,
      atoll_fixed6 hpos hq.tsMs.2 hspread, atoll_integer hq.latencyUs, hsessionRead, WireQuote.rounded, hbid, hask, hspread,
      hq.valid]
  · have hpos' : (0 : ℚ) < q.tsMs := by exact_mod_cast hpos
    unfold acceptQuote WireQuote.rounded
    simp [hbid, hask, Double.isPos, Double.le, hpos']

/-- A quote that `quote_frame` writes is pushed by `BrokerSub` with the same bid, ask, spread, time stamp,
latency and session exactly when the time stamp, the bid, the ask and the spread show one positive number. -/
theorem quote_round_trip_iff {recv : Receive} (hrecv : recv.Documented) {s : BrokerLoop}
    (hs : s.running = true) {q : WireQuote} (hq : q.Sound) :
    (s.iteration recv (bytesOf "quote") (.message (quoteFrame q))).pushed = s.pushed ++ [q.rounded] ↔
      0 < q.tsMs ∧ round6 q.bid = .finite q.tsMs ∧ round6 q.ask = .finite q.tsMs ∧
        round6 q.spread = .finite q.tsMs := by
  have hlength : (quoteFrame q).length ≤ 4095 :=
    (List.length_take_le 159 (quoteText q)).trans (by decide)
  rw [BrokerLoop.iteration_pushed hrecv hs hlength, quoteFrame_cString, List.append_cancel_left_eq]
  constructor
  · intro hpushed
    apply prices_shifted hq
    cases hread : readQuote (bytesOf "quote") (quoteFrame q) with
    | none =>
      rw [hread] at hpushed
      cases hpushed
    | some q' =>
      rw [hread, Option.toList_some] at hpushed
      rw [List.singleton_inj.mp hpushed]
  · rintro ⟨hpos, hbid, hask, hspread⟩
    rw [prices_alike hq hpos hbid hask hspread]
    rfl

/-- A quote with a bid of 2 at two milliseconds. -/
def flatQuote : WireQuote where
  tsMs := 2
  bid := .finite 2
  ask := .finite 2
  spread := .finite 2
  latencyUs := 150
  valid := 1
  session := 1

lemma flatQuote_sound : flatQuote.Sound :=
  ⟨by decide, by decide, by decide, by decide +kernel, by decide +kernel, rfl⟩

theorem flat_quote_round_trip :
    (zeroBroker.iteration Receive.exact (bytesOf "quote") (.message (quoteFrame flatQuote))).pushed =
      zeroBroker.pushed ++ [flatQuote.rounded] :=
  (quote_round_trip_iff Receive.exact_documented rfl flatQuote_sound).mpr (by decide +kernel)

/-- The quote 64000 to 64001 of November 2023. -/
def bitcoinQuote : WireQuote where
  tsMs := 1700000000000
  bid := .finite 64000
  ask := .finite 64001
  spread := .finite 1
  latencyUs := 150
  valid := 1
  session := 1

/-- It is read with a bid of 1700000000000 and an ask of 64000, and not pushed at all. -/
theorem bitcoin_quote_lost :
    bitcoinQuote.Sound ∧ quoteFrame bitcoinQuote =
      bytesOf "quote|1700000000000,64000.000000,64001.000000,1.000000,150,1,1" ∧
    parseQuote (bytesOf "quote") (quoteFrame bitcoinQuote) =
      { tsMs := 1, bid := .finite 1700000000000, ask := .finite 64000, spread := .finite 64001
        latencyUs := 150, valid := 1, session := 1 } ∧
    (zeroBroker.iteration Receive.exact (bytesOf "quote") (.message (quoteFrame bitcoinQuote))).pushed =
      [] := by
  refine ⟨⟨by decide, by decide, by decide, by decide +kernel, by decide +kernel, rfl⟩, by decide +kernel,
    by decide +kernel, ?_⟩
  rw [BrokerLoop.iteration_pushed Receive.exact_documented rfl (by decide +kernel)]
  decide +kernel

end Wire

/-! ## The quotes of the engine -/

open Wire

def BrokerQuote.wire (q : BrokerQuote) : WireQuote where
  tsMs := q.tsMs
  bid := .finite q.bid
  ask := .finite q.ask
  spread := .finite q.spread
  latencyUs := q.latencyUs
  valid := q.valid
  session := q.session

/-- A frame that is parsed to a quote of the engine moves the engine as `brokerFrame` does. -/
theorem brokerFrame_reads {topic frame : List UInt8} {q : BrokerQuote}
    (h : parseQuote topic frame = q.wire) (e : Engine) :
    (e.brokerFrame q).quotes.map BrokerQuote.wire =
      e.quotes.map BrokerQuote.wire ++ (readQuote topic frame).toList := by
  have hvalid : q.valid = 1 := congrArg WireQuote.valid h.symm
  have haccept : acceptQuote q.wire = true ↔ 0 < q.bid ∧ 0 < q.ask ∧ q.bid ≤ q.ask := by
    simp [acceptQuote, BrokerQuote.wire, Double.isPos, Double.le, and_assoc]
  unfold Engine.brokerFrame readQuote
  rw [h]
  by_cases hpush : 0 < q.bid ∧ 0 < q.ask ∧ q.bid ≤ q.ask
  · have hquote : ({ q with valid := 1 } : BrokerQuote) = q := by rw [← hvalid]
    rw [if_pos hpush, if_pos (haccept.mpr hpush), hquote]
    exact List.map_append
  · rw [if_neg hpush, if_neg (fun hread => hpush (haccept.mp hread))]
    exact (List.append_nil _).symm

end LatencyArb
