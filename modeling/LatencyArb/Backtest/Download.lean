import LatencyArb.Backtest.CsvRows
import LatencyArb.Backtest.LagShift
import LatencyArb.Library.Loop
import LatencyArb.Library.Pagination

/-!
# The download of bars (`download`, `scripts/get_real_data.py`)

The bars are asked for in pages of up to 1000. How a request to an endpoint ends is a parameter of the run.
-/

namespace LatencyArb

namespace RealData

open Pagination

structure Request where
  startMs : Int
  endMs : Int
  limit : Int

/-- How `fetch_klines` ends: with rows, with an `URLError` or with another exception. -/
inductive Fetched where
  | rows (data : List Bar)
  | urlError
  | raised

/-- How `download` ends: it returns, raises its `RuntimeError`, or passes on an exception. -/
inductive Downloaded where
  | rows (rows : List Bar)
  | failed
  | raised

/-- The answers of the endpoints in each round of requests. -/
abbrev Network := Nat → String → Request → Fetched

def defaultBaseUrls : List String := ["https://data-api.binance.vision", "https://api.binance.com"]

def maxLimit : Int := 1000

/-- The loop over the endpoints: the first one that does not raise an `URLError`. -/
def ask (endpoint : String → Request → Fetched) (req : Request) : List String → Fetched
  | [] => .urlError
  | base :: bases =>
    match endpoint base req with
    | .urlError => ask endpoint req bases
    | answer => answer

/-- The number of bars asked for, if there is one: 0 counts as false. -/
def truthy (limitBars : Option Int) : Option Int := limitBars.filter (fun bars => decide (bars ≠ 0))

/-- The `limit` of the next request, with `none` where there are rows enough. -/
def pageLimit (limitBars : Option Int) (rows : List Bar) : Option Int :=
  match truthy limitBars with
  | none => some maxLimit
  | some bars => if bars - rows.length ≤ 0 then none else some (min maxLimit (bars - rows.length))

/-- The test `limit_bars and len(rows) >= limit_bars`. -/
def reached (limitBars : Option Int) (rows : List Bar) : Bool :=
  (truthy limitBars).any (fun bars : Int => decide (bars ≤ rows.length))

/-- The locals of `download`. -/
structure Download where
  rows : List Bar := []
  cursor : Int
  rounds : Nat := 0
  ended : Option Downloaded := none

namespace Download

variable (step endMs : Int) (limitBars : Option Int) (net : Network)

/-- What an answer makes of the locals. -/
def receive (s : Download) : Fetched → Download
  | .urlError => { s with ended := some .failed }
  | .raised => { s with ended := some .raised }
  | .rows data =>
    let rows := s.rows ++ data
    match data.getLast? with
    | none => { s with ended := some (.rows rows) }
    | some last =>
      if endMs < last.tsMs + step ∨ reached limitBars rows = true then
        { s with rows := rows, ended := some (.rows rows) }
      else { s with rows := rows, cursor := last.tsMs + step }

/-- A turn of the loop, with `none` after its end. -/
def turn (s : Download) : Option Download :=
  if s.ended.isSome then none
  else match pageLimit limitBars s.rows with
    | none => some { s with ended := some (.rows s.rows) }
    | some limit =>
      some { s.receive step endMs limitBars (ask (net s.rounds) ⟨s.cursor, endMs, limit⟩ defaultBaseUrls) with
        rounds := s.rounds + 1 }

end Download

/-- `download` after so many turns of its loop. -/
def download (step startMs endMs : Int) (limitBars : Option Int) (net : Network) (turns : Nat) : Download :=
  Loop.run (Download.turn step endMs limitBars net) turns { cursor := startMs }

/-! ## What is to be downloaded -/

/-- The endpoints have these bars: an answer has the first ones between the two times, up to the limit. -/
def Serves (net : Network) (klines : List Bar) : Prop :=
  ∀ round base req data, 1 ≤ req.limit → req.limit ≤ maxLimit → net round base req = .rows data →
    data = (between Bar.tsMs req.startMs req.endMs klines).take req.limit.toNat

/-- The bars between the two times, up to the number asked for. -/
def wanted (klines : List Bar) (startMs endMs : Int) (limitBars : Option Int) : List Bar :=
  match truthy limitBars with
  | none => between Bar.tsMs startMs endMs klines
  | some bars => (between Bar.tsMs startMs endMs klines).take bars.toNat

/-- The request for the rows behind those at hand. -/
def Download.request (s : Download) (endMs : Int) (limitBars : Option Int) : Option Request :=
  (pageLimit limitBars s.rows).map (fun limit => ⟨s.cursor, endMs, limit⟩)

/-- An end of `download` is explained: it returns what is wanted, or the endpoints have failed the request of its
last round, which is that for the rows behind those at hand. -/
def Explained (net : Network) (want : List Bar) (endMs : Int) (limitBars : Option Int) (s : Download) :
    Downloaded → Prop
  | .rows rows => rows = want
  | .failed => ∃ round req, s.rounds = round + 1 ∧ s.request endMs limitBars = some req ∧
      ∀ base ∈ defaultBaseUrls, net round base req = .urlError
  | .raised => ∃ round req, s.rounds = round + 1 ∧ s.request endMs limitBars = some req ∧
      ∃ base ∈ defaultBaseUrls, net round base req = .raised

lemma ask_cases (endpoint : String → Request → Fetched) (req : Request) (bases : List String) :
    (ask endpoint req bases = .urlError ∧ ∀ base ∈ bases, endpoint base req = .urlError) ∨
      ∃ base ∈ bases, endpoint base req = ask endpoint req bases ∧ ask endpoint req bases ≠ .urlError := by
  induction bases with
  | nil => exact .inl ⟨rfl, by simp⟩
  | cons base bases ih =>
    rw [ask]
    cases hbase : endpoint base req with
    | urlError =>
      obtain ⟨hask, hall⟩ | ⟨other, hother, hask⟩ := ih
      · exact .inl ⟨hask, List.forall_mem_cons.mpr ⟨hbase, hall⟩⟩
      · exact .inr ⟨other, List.mem_cons_of_mem base hother, hask⟩
    | rows data => exact .inr ⟨base, List.mem_cons_self, hbase, by simp⟩
    | raised => exact .inr ⟨base, List.mem_cons_self, hbase, by simp⟩

section Run

variable {step startMs endMs : Int} {limitBars : Option Int} {net : Network} {klines : List Bar}
  {s t : Download}

/-- Before its end the loop has the first pages and asks for what is left. -/
structure Paged (startMs endMs : Int) (limitBars : Option Int) (klines : List Bar) (s : Download) : Prop where
  rows : s.rows = (between Bar.tsMs startMs endMs klines).take (1000 * s.rounds)
  rest : between Bar.tsMs s.cursor endMs klines = (between Bar.tsMs startMs endMs klines).drop (1000 * s.rounds)
  room : 0 < s.rounds → reached limitBars s.rows = false
  needed : 0 < s.rounds → 1000 * s.rounds < (wanted klines startMs endMs limitBars).length + 1000

/-- What holds of the locals in a run. -/
structure Sound (net : Network) (startMs endMs : Int) (limitBars : Option Int) (klines : List Bar) (s : Download) :
    Prop where
  going : s.ended = none → Paged startMs endMs limitBars klines s
  done : ∀ result, s.ended = some result →
    Explained net (wanted klines startMs endMs limitBars) endMs limitBars s result
  requests : s.rounds ≤ (wanted klines startMs endMs limitBars).length / 1000 + 2

/-- A limit that leaves room takes a page of up to 1000 bars. -/
lemma pageLimit_eq_some {rows : List Bar} {limit : Int} (h : pageLimit limitBars rows = some limit) :
    1 ≤ limit ∧ limit ≤ 1000 ∧ (limit < 1000 → ∃ bars, truthy limitBars = some bars ∧ bars = rows.length + limit) ∧
      ∀ bars, truthy limitBars = some bars → rows.length + limit ≤ bars := by
  unfold pageLimit maxLimit at h
  cases htruthy : truthy limitBars with
  | none =>
    rw [htruthy] at h
    obtain rfl := Option.some.inj h
    exact ⟨by norm_num, le_rfl, fun hlt => absurd hlt (lt_irrefl _), by simp⟩
  | some bars =>
    rw [htruthy] at h
    dsimp only at h
    split at h
    · cases h
    · obtain rfl := Option.some.inj h
      refine ⟨by omega, by omega, fun hlt => ⟨bars, rfl, by omega⟩, ?_⟩
      rintro _ ⟨⟩
      omega

/-- Rows that are all there are, and not more than asked for, are what is wanted. -/
lemma wanted_of_all {rows : List Bar} (hall : rows = between Bar.tsMs startMs endMs klines)
    (hfits : ∀ bars, truthy limitBars = some bars → rows.length ≤ bars) :
    rows = wanted klines startMs endMs limitBars := by
  unfold wanted
  cases htruthy : truthy limitBars with
  | none => exact hall
  | some bars =>
    have hle := hfits bars htruthy
    dsimp only
    rw [← hall, List.take_of_length_le (by omega)]

/-- So are the first ones, as many as asked for. -/
lemma wanted_of_take {m : Nat} {bars : Int} (htruthy : truthy limitBars = some bars) (hm : bars.toNat ≤ m)
    (hlength : ((between Bar.tsMs startMs endMs klines).take m).length ≤ bars.toNat) :
    (between Bar.tsMs startMs endMs klines).take m = wanted klines startMs endMs limitBars := by
  unfold wanted
  rw [htruthy]
  dsimp only
  rw [← List.take_of_length_le hlength, List.take_take, min_eq_left hm]

/-- A page is appended to those before it. -/
lemma Paged.append (h : Paged startMs endMs limitBars klines s) {limit : Int} {data : List Bar}
    (hdata : data = (between Bar.tsMs s.cursor endMs klines).take limit.toNat) :
    s.rows ++ data = (between Bar.tsMs startMs endMs klines).take (1000 * s.rounds + limit.toNat) := by
  rw [hdata, h.rest, h.rows, ← List.take_add]

/-- A page behind which the loop goes on is full, or it is the last one. -/
lemma Paged.goOn (h : Paged startMs endMs limitBars klines s) {limit : Int} {data : List Bar}
    (hlimit : pageLimit limitBars s.rows = some limit)
    (hdata : data = (between Bar.tsMs s.cursor endMs klines).take limit.toNat) (hne : data ≠ [])
    (hroom : reached limitBars (s.rows ++ data) = false) {cursor : Int}
    (hrest : between Bar.tsMs cursor endMs klines = (between Bar.tsMs s.cursor endMs klines).drop limit.toNat) :
    Paged startMs endMs limitBars klines { s with rows := s.rows ++ data, cursor := cursor, rounds := s.rounds + 1 } := by
  obtain ⟨hone, hthousand, hshort, hfits⟩ := pageLimit_eq_some hlimit
  have happend := h.append hdata
  have hbehind : 1000 * s.rounds < (between Bar.tsMs startMs endMs klines).length := by
    by_contra hle
    rw [h.rest, List.drop_of_length_le (not_lt.mp hle), List.take_nil] at hdata
    exact hne hdata
  have hrows : s.rows.length = 1000 * s.rounds := by
    rw [h.rows, List.length_take, min_eq_left hbehind.le]
  have hpage : limit = 1000 ∨ (between Bar.tsMs startMs endMs klines).length ≤ 1000 * s.rounds + limit.toNat := by
    by_cases hfull : limit = 1000
    · exact .inl hfull
    · obtain ⟨bars, htruthy, hbars⟩ := hshort (by omega)
      rw [reached, htruthy, Option.any_some, decide_eq_false_iff_not, happend, List.length_take] at hroom
      right
      omega
  constructor
  · show s.rows ++ data = _
    rw [happend]
    obtain rfl | hall := hpage
    · rfl
    · rw [List.take_of_length_le hall, List.take_of_length_le (by show _ ≤ 1000 * (s.rounds + 1); omega)]
  · show between Bar.tsMs cursor endMs klines = _
    rw [hrest, h.rest, List.drop_drop]
    obtain rfl | hall := hpage
    · rfl
    · rw [List.drop_of_length_le hall, List.drop_of_length_le (by show _ ≤ 1000 * (s.rounds + 1); omega)]
  · exact fun _ => hroom
  · intro _
    show 1000 * (s.rounds + 1) < _
    unfold wanted
    cases htruthy : truthy limitBars with
    | none =>
      dsimp only
      omega
    | some bars =>
      have hle := hfits bars htruthy
      dsimp only
      rw [List.length_take]
      omega

/-- What the rows of a request make of the locals. -/
lemma Paged.receive (hstep : 0 < step) (hspaced : Spaced Bar.tsMs step klines)
    (h : Paged startMs endMs limitBars klines s) (hgoing : s.ended = none) {limit : Int}
    (hlimit : pageLimit limitBars s.rows = some limit) {data : List Bar}
    (hdata : data = (between Bar.tsMs s.cursor endMs klines).take limit.toNat) :
    (s.receive step endMs limitBars (.rows data)).ended =
        some (.rows (wanted klines startMs endMs limitBars)) ∨
      (s.receive step endMs limitBars (.rows data)).ended = none ∧
        Paged startMs endMs limitBars klines
          { s.receive step endMs limitBars (.rows data) with rounds := s.rounds + 1 } := by
  obtain ⟨hone, -, -, hfits⟩ := pageLimit_eq_some hlimit
  have happend := h.append hdata
  have hpage : data.length ≤ limit.toNat := by
    rw [hdata, List.length_take]
    exact min_le_left _ _
  have hsize : ∀ bars, truthy limitBars = some bars → (s.rows ++ data).length ≤ bars := by
    intro bars htruthy
    have hle := hfits bars htruthy
    rw [List.length_append]
    omega
  have hwanted : (between Bar.tsMs startMs endMs klines).length ≤ 1000 * s.rounds + limit.toNat →
      s.rows ++ data = wanted klines startMs endMs limitBars := by
    intro hall
    exact wanted_of_all (happend.trans (List.take_of_length_le hall)) hsize
  unfold Download.receive
  dsimp only
  cases hlast : data.getLast? with
  | none =>
    rw [List.getLast?_eq_none_iff] at hlast
    left
    dsimp only
    rw [hwanted]
    rw [hlast, h.rest, eq_comm, List.take_eq_nil_iff, List.drop_eq_nil_iff] at hdata
    omega
  | some last =>
    have hne : data ≠ [] := by
      rintro rfl
      cases hlast
    have hrest : between Bar.tsMs (last.tsMs + step) endMs klines =
        (between Bar.tsMs s.cursor endMs klines).drop limit.toNat :=
      between_next hstep hspaced (hdata ▸ hlast)
    dsimp only
    by_cases hend : endMs < last.tsMs + step
    · left
      rw [if_pos (.inl hend)]
      dsimp only
      rw [hwanted]
      have hnone : between Bar.tsMs (last.tsMs + step) endMs klines = [] := by
        unfold between
        rw [List.filter_eq_nil_iff]
        intro x _
        simp only [decide_eq_true_eq]
        omega
      rw [hnone, h.rest, List.drop_drop, eq_comm, List.drop_eq_nil_iff] at hrest
      exact hrest
    · cases hreached : reached limitBars (s.rows ++ data) with
      | true =>
        left
        rw [if_pos (.inr rfl)]
        unfold reached at hreached
        cases htruthy : truthy limitBars with
        | none =>
          rw [htruthy] at hreached
          cases hreached
        | some bars =>
          rw [htruthy, Option.any_some, decide_eq_true_eq] at hreached
          have hle := hsize bars htruthy
          rw [happend] at hreached hle ⊢
          rw [wanted_of_take htruthy _ (by omega)]
          rw [List.length_take] at hreached
          omega
      | false =>
        right
        rw [if_neg (by simpa using hend)]
        exact ⟨hgoing, h.goOn hlimit hdata hne hreached hrest⟩

/-- A limit that leaves no room has been reached. -/
lemma Paged.full (h : Paged startMs endMs limitBars klines s) (hlimit : pageLimit limitBars s.rows = none) :
    s.rows = wanted klines startMs endMs limitBars := by
  unfold pageLimit at hlimit
  cases htruthy : truthy limitBars with
  | none =>
    rw [htruthy] at hlimit
    cases hlimit
  | some bars =>
    rw [htruthy] at hlimit
    dsimp only at hlimit
    split at hlimit
    · rename_i hle
      have hrounds : s.rounds = 0 := by
        by_contra hpos
        have hroom := h.room (by omega)
        rw [reached, htruthy, Option.any_some, decide_eq_false_iff_not] at hroom
        omega
      have hrows : s.rows = [] := by
        rw [h.rows, hrounds]
        rfl
      rw [hrows, List.length_nil] at hle
      unfold wanted
      rw [htruthy]
      dsimp only
      rw [hrows, show bars.toNat = 0 by omega, List.take_zero]
    · cases hlimit

lemma Paged.rounds_le (h : Paged startMs endMs limitBars klines s) :
    s.rounds ≤ (wanted klines startMs endMs limitBars).length / 1000 + 1 := by
  obtain hzero | hpos := Nat.eq_zero_or_pos s.rounds
  · omega
  · have hneeded := h.needed hpos
    omega

/-- The turns that are left. -/
def left (startMs endMs : Int) (limitBars : Option Int) (klines : List Bar) (s : Download) : Nat :=
  if s.ended.isSome then 0 else (wanted klines startMs endMs limitBars).length / 1000 + 2 - s.rounds

/-- A turn keeps what holds of the locals, and there are fewer left. -/
lemma Sound.turn (hstep : 0 < step) (hspaced : Spaced Bar.tsMs step klines) (hserves : Serves net klines)
    (h : Sound net startMs endMs limitBars klines s) (hturn : Download.turn step endMs limitBars net s = some t) :
    Sound net startMs endMs limitBars klines t ∧
      left startMs endMs limitBars klines t < left startMs endMs limitBars klines s := by
  unfold Download.turn at hturn
  cases hended : s.ended with
  | some result =>
    rw [hended] at hturn
    cases hturn
  | none =>
    have hpaged := h.going hended
    have hrounds := hpaged.rounds_le
    have hleft : left startMs endMs limitBars klines s =
        (wanted klines startMs endMs limitBars).length / 1000 + 2 - s.rounds := by
      unfold left
      rw [hended]
      rfl
    have hended' : ∀ (result : Downloaded) (u : Download), u.ended = some result →
        u.rounds ≤ s.rounds + 1 → Explained net (wanted klines startMs endMs limitBars) endMs limitBars u result →
        Sound net startMs endMs limitBars klines u ∧ left startMs endMs limitBars klines u <
          left startMs endMs limitBars klines s := by
      intro result u hu hle hexplained
      refine ⟨⟨fun hgoing => ?_, ?_, by omega⟩, ?_⟩
      · rw [hu] at hgoing
        cases hgoing
      · intro result' hresult'
        obtain rfl := Option.some.inj (hu.symm.trans hresult')
        exact hexplained
      · rw [hleft, left, hu]
        show 0 < _
        omega
    rw [hended, if_neg (by simp)] at hturn
    cases hlimit : pageLimit limitBars s.rows with
    | none =>
      rw [hlimit] at hturn
      obtain rfl := Option.some.inj hturn
      exact hended' _ _ rfl (Nat.le_succ _) (hpaged.full hlimit)
    | some limit =>
      rw [hlimit] at hturn
      dsimp only at hturn
      obtain rfl := Option.some.inj hturn
      obtain ⟨hone, hthousand, -⟩ := pageLimit_eq_some hlimit
      have hrequest : s.request endMs limitBars = some ⟨s.cursor, endMs, limit⟩ := by
        rw [Download.request, hlimit]
        rfl
      obtain ⟨hask, hall⟩ | ⟨base, hbase, hask, hne⟩ :=
        ask_cases (net s.rounds) ⟨s.cursor, endMs, limit⟩ defaultBaseUrls
      · rw [hask]
        exact hended' .failed _ rfl le_rfl ⟨s.rounds, _, rfl, hrequest, hall⟩
      · cases hanswer : ask (net s.rounds) ⟨s.cursor, endMs, limit⟩ defaultBaseUrls with
        | urlError => exact absurd hanswer hne
        | raised =>
          exact hended' .raised _ rfl le_rfl ⟨s.rounds, _, rfl, hrequest, base, hbase, hask.trans hanswer⟩
        | rows data =>
          have hdata := hserves s.rounds base _ data hone hthousand (hask.trans hanswer)
          obtain hdone | ⟨hgoing, hnext⟩ := hpaged.receive hstep hspaced hended hlimit hdata
          · exact hended' _ _ hdone le_rfl rfl
          · refine ⟨⟨fun _ => hnext, ?_, by show s.rounds + 1 ≤ _; omega⟩, ?_⟩
            · intro result hresult
              rw [hgoing] at hresult
              cases hresult
            · rw [hleft, left, hgoing]
              show (wanted klines startMs endMs limitBars).length / 1000 + 2 - (s.rounds + 1) < _
              omega

lemma begin_sound : Sound net startMs endMs limitBars klines { cursor := startMs } where
  going _ := ⟨rfl, rfl, fun h => absurd h (lt_irrefl 0), fun h => absurd h (lt_irrefl 0)⟩
  done := by simp
  requests := Nat.zero_le _

lemma download_sound (hstep : 0 < step) (hspaced : Spaced Bar.tsMs step klines) (hserves : Serves net klines)
    (startMs endMs : Int) (limitBars : Option Int) (turns : Nat) :
    Sound net startMs endMs limitBars klines (download step startMs endMs limitBars net turns) :=
  (Loop.run_invariant (fun _ _ hs hturn => (hs.turn hstep hspaced hserves hturn).1) begin_sound turns).1

end Run

/-- Whatever the dates, the number of bars asked for and the failures of the endpoints: the download comes to its
end within a request for each thousand bars and two more, and if it returns it returns the bars between the dates,
as many as asked for, each once and in their order. It fails only where the endpoints have failed its last request,
which is the one for the next bars. -/
theorem download_exact {step : Int} (hstep : 0 < step) {klines : List Bar} (hspaced : Spaced Bar.tsMs step klines)
    {net : Network} (hserves : Serves net klines) (startMs endMs : Int) (limitBars : Option Int) {turns : Nat}
    (hturns : (wanted klines startMs endMs limitBars).length / 1000 + 2 ≤ turns) :
    ∃ result, (download step startMs endMs limitBars net turns).ended = some result ∧
      Explained net (wanted klines startMs endMs limitBars) endMs limitBars
        (download step startMs endMs limitBars net turns) result ∧
      (download step startMs endMs limitBars net turns).rounds ≤
        (wanted klines startMs endMs limitBars).length / 1000 + 2 := by
  have hend : Download.turn step endMs limitBars net (download step startMs endMs limitBars net turns) = none :=
    Loop.run_terminates_within (I := Sound net startMs endMs limitBars klines) (left startMs endMs limitBars klines)
      (fun s t hs hturn => hs.turn hstep hspaced hserves hturn) begin_sound hturns
  have hsound := download_sound hstep hspaced hserves startMs endMs limitBars turns
  cases hended : (download step startMs endMs limitBars net turns).ended with
  | some result => exact ⟨result, rfl, hsound.done result hended, hsound.requests⟩
  | none =>
    unfold Download.turn at hend
    rw [hended, if_neg (by simp)] at hend
    split at hend <;> cases hend

/-- Two bars, of which the first endpoint answers nothing. -/
def twoBars : List Bar := [⟨1723050000000, 60000, 1⟩, ⟨1723050001000, 60001, 2⟩]

def secondEndpoint : Network := fun _ base req =>
  if base = "https://api.binance.com" then
    .rows ((between Bar.tsMs req.startMs req.endMs twoBars).take req.limit.toNat)
  else .urlError

lemma secondEndpoint_serves : Serves secondEndpoint twoBars := by
  intro round base req data _ _ h
  unfold secondEndpoint at h
  split at h
  · exact (Fetched.rows.inj h).symm
  · cases h

theorem download_exact_secondEndpoint :
    ∃ result, (download 1000 1723050000000 1723050002000 none secondEndpoint 2).ended = some result ∧
      Explained secondEndpoint (wanted twoBars 1723050000000 1723050002000 none) 1723050002000 none
        (download 1000 1723050000000 1723050002000 none secondEndpoint 2) result ∧
      (download 1000 1723050000000 1723050002000 none secondEndpoint 2).rounds ≤
        (wanted twoBars 1723050000000 1723050002000 none).length / 1000 + 2 :=
  download_exact (by decide) (by unfold Spaced; decide) secondEndpoint_serves _ _ none (by decide)

/-! ## From the endpoints to the tick file -/

section Script

open Numeral CsvToBinaryConverter

variable (A : Rounding)

/-- The bytes that `csv.writer` writes. No field needs quotes, and a row ends with CR LF. -/
def CsvFile.bytes (file : CsvFile) : List UInt8 :=
  file.rows.flatMap (fun row => [44].intercalate (row.map bytesOf) ++ [13] ++ [10])

/-- The script, once its dates are read: what it returns and the files it writes, with `none` where the download
raises an exception or has not come to its end. -/
def script (a : Args) (step startMs endMs : Int) (limitBars : Option Int) (net : Network) (turns : Nat) :
    Option (Int × List CsvFile) :=
  if endMs ≤ startMs then some (2, [])
  else match (download step startMs endMs limitBars net turns).ended with
    | some (.rows rows) => main A a rows
    | _ => none

/-- The record of a bar. -/
def barRecord (spreadHalf : ℚ) (bar : Bar) : CsvTick :=
  storedRecord 6 8 bar.tsMs (A.sub bar.close spreadHalf) (A.add bar.close spreadHalf) bar.volume

/-- The prices of a bar are positive as they are written. -/
def quotable (spreadHalf : ℚ) (bar : Bar) : Bool :=
  decide (0 < roundTo 6 (A.sub bar.close spreadHalf) ∧ 0 < roundTo 6 (A.add bar.close spreadHalf))

/-- A bar of a time in milliseconds, with numbers of an ordinary size. -/
structure Fits (spreadHalf : ℚ) (bar : Bar) : Prop where
  millis : 10 ^ 12 < bar.tsMs
  time : bar.tsMs < 2 ^ 63
  bid : |A.sub bar.close spreadHalf| < 2 ^ 126
  ask : |A.add bar.close spreadHalf| < 2 ^ 126
  volume : |bar.volume| < 2 ^ 126

/-- The row of a bar as numerals. -/
def barNumerals (spreadHalf : ℚ) (bar : Bar) : Numerals :=
  Numerals.ofQuote (by decide : 0 < 6) (by decide : 0 < 8) bar.tsMs (A.sub bar.close spreadHalf)
    (A.add bar.close spreadHalf) bar.volume

variable {A}

lemma barNumerals_line (spreadHalf : ℚ) (bar : Bar) :
    (barNumerals A spreadHalf bar).line = [44].intercalate ((csvRow A spreadHalf bar).map bytesOf) := by
  unfold Numerals.line Numerals.columns barNumerals Numerals.ofQuote csvRow quoteFields
  dsimp only [Option.elim_some]
  rw [Scientific.ofInteger_text, IntNumeral.ofInt_text, Scientific.ofDecimal_text, Scientific.ofDecimal_text,
    Scientific.ofDecimal_text, fixedDecimal_text, fixedDecimal_text, fixedDecimal_text]
  rfl

/-- The converter makes of the file of some bars a record for each of them, in their order. -/
lemma writeCsv_records {spreadHalf : ℚ} {bars : List Bar} (hfits : ∀ bar ∈ bars, Fits A spreadHalf bar)
    (path csvPath binPath : String) :
    (convert csvPath binPath (some (writeCsv A path bars spreadHalf).bytes) true {}).file.map CsvTick.stored =
      (bars.filter (quotable A spreadHalf)).map (barRecord A spreadHalf) := by
  have hbytes : (writeCsv A path bars spreadHalf).bytes =
      (bytesOf "timestamp,bid,ask,volume" :: (bars.map (barNumerals A spreadHalf)).map Numerals.line).flatMap
        (fun line => line ++ [13] ++ [10]) := by
    unfold CsvFile.bytes writeCsv
    rw [List.flatMap_cons, List.flatMap_cons, List.flatMap_map, List.flatMap_map, List.flatMap_map]
    congr 1
    apply List.flatMap_congr
    intro bar _
    rw [barNumerals_line]
  have hrange : ∀ n ∈ bars.map (barNumerals A spreadHalf), n.InRange := by
    intro n hn
    obtain ⟨bar, hbar, rfl⟩ := List.mem_map.mp hn
    have h := hfits bar hbar
    exact ofQuote_inRange _ _ (by decide) (by decide) h.millis h.time h.bid h.ask h.volume
  rw [hbytes, convert_rows csvPath binPath (.inr rfl) (by decide) (by decide) hrange, List.filter_map, List.map_map,
    List.map_map]
  have hkept : (fun n : Numerals => decide n.Positive) ∘ barNumerals A spreadHalf = quotable A spreadHalf := by
    funext bar
    exact decide_eq_decide.mpr (ofQuote_positive_iff _ _)
  rw [hkept]
  apply List.map_congr_left
  intro bar hbar
  have h := hfits bar (List.mem_filter.mp hbar).1
  show (barNumerals A spreadHalf bar).record.stored = _
  rw [barNumerals, ofQuote_record _ _ h.millis, quoteRecord_stored h.bid h.ask h.volume]
  rfl

lemma mem_of_wanted {klines : List Bar} {startMs endMs : Int} {limitBars : Option Int} {bar : Bar}
    (h : bar ∈ wanted klines startMs endMs limitBars) : bar ∈ klines := by
  unfold wanted at h
  split at h
  · exact (List.mem_filter.mp h).1
  · exact (List.mem_filter.mp (List.mem_of_mem_take h)).1

/-- Under its own name the script writes nothing but the bars. -/
lemma main_file {a : Args} {rows : List Bar} {result : Int} {files : List CsvFile}
    (hmain : main A a rows = some (result, files)) {file : CsvFile} (hfile : file ∈ files) (hpath : file.path = a.out) :
    file = writeCsv A a.out rows a.spreadHalf := by
  unfold main at hmain
  split at hmain
  · obtain ⟨-, rfl⟩ := Prod.mk.inj (Option.some.inj hmain)
    cases hfile
  · split at hmain
    · obtain ⟨lag, -, hlag⟩ := Option.bind_eq_some_iff.mp hmain
      obtain ⟨-, rfl⟩ := Prod.mk.inj (Option.some.inj hlag)
      obtain rfl | hfile := List.mem_cons.mp hfile
      · rfl
      · obtain rfl := List.mem_singleton.mp hfile
        exact absurd hpath.symm (lag_path_ne a.out)
    · obtain ⟨-, rfl⟩ := Prod.mk.inj (Option.some.inj hmain)
      exact List.mem_singleton.mp hfile

/-- From the endpoints to the tick file: the converter makes of the file that the script writes a record for each
bar between the dates, as many as asked for, in their order and at their times. A price is the one written to six
places, as a `float`; the bars whose prices are not positive as written are left out. -/
theorem script_records {a : Args} {step : Int} (hstep : 0 < step) {klines : List Bar}
    (hspaced : Spaced Bar.tsMs step klines) (hfits : ∀ bar ∈ klines, Fits A a.spreadHalf bar) {net : Network}
    (hserves : Serves net klines) {startMs endMs : Int} {limitBars : Option Int} {turns : Nat} {result : Int}
    {files : List CsvFile} (hscript : script A a step startMs endMs limitBars net turns = some (result, files))
    (csvPath binPath : String) :
    ∀ file ∈ files, file.path = a.out →
      (convert csvPath binPath (some file.bytes) true {}).file.map CsvTick.stored =
        ((wanted klines startMs endMs limitBars).filter (quotable A a.spreadHalf)).map (barRecord A a.spreadHalf) := by
  intro file hfile hpath
  unfold script at hscript
  split at hscript
  · obtain ⟨-, rfl⟩ := Prod.mk.inj (Option.some.inj hscript)
    cases hfile
  · split at hscript
    · rename_i rows hended
      have hwanted := (download_sound hstep hspaced hserves startMs endMs limitBars turns).done _ hended
      obtain rfl : rows = wanted klines startMs endMs limitBars := hwanted
      rw [main_file hscript hfile hpath]
      exact writeCsv_records (fun bar hbar => hfits bar (mem_of_wanted hbar)) a.out csvPath binPath
    · cases hscript

lemma twoBars_fit : ∀ bar ∈ twoBars, Fits .binary64 (1 / 2) bar := by
  intro bar hbar
  obtain rfl | rfl : bar = ⟨1723050000000, 60000, 1⟩ ∨ bar = ⟨1723050001000, 60001, 2⟩ := by
    simpa [twoBars] using hbar
  · constructor <;> decide +kernel
  · constructor <;> decide +kernel

theorem script_records_secondEndpoint :
    (convert "real_lead.csv" "lead.bin" (some (writeCsv .binary64 "real_lead.csv" twoBars (1 / 2)).bytes) true
        {}).file.map CsvTick.stored =
      ((wanted twoBars 1723050000000 1723050002000 none).filter (quotable .binary64 (1 / 2))).map
        (barRecord .binary64 (1 / 2)) :=
  script_records (by decide) (by unfold Spaced; decide) twoBars_fit secondEndpoint_serves
    (rfl : script .binary64 {} 1000 1723050000000 1723050002000 none secondEndpoint 2 =
      some (0, [writeCsv .binary64 "real_lead.csv" twoBars (1 / 2)])) _ _ _ (List.mem_singleton_self _) rfl

end Script

end RealData

end LatencyArb
