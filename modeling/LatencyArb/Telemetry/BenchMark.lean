import LatencyArb.Library.Machine
import LatencyArb.Library.Workers
import LatencyArb.Telemetry.BenchStats

/-!
# The producers of the benchmark ring (`src/telemetry.cpp`)

`bench_mark` is called by any thread without a lock. A call reserves a slot, reads the clocks, takes a
sequence number, stores its fields one by one and counts itself; each of these is a step of its own.
-/

namespace LatencyArb

namespace Telemetry

/-! ## The region -/

def kDefaultRingBytes : Nat := 2 ^ 20

/-- The shifts of `alloc_bench_ring`: doubles `cap` while the double does not exceed `bytes`. -/
def growBits (bytes : Nat) : Nat → Nat → Nat
  | 0, bits => bits
  | fuel + 1, bits => if 2 ^ (bits + 1) ≤ bytes then growBits bytes fuel (bits + 1) else bits

/-- The ring has `2 ^ ringBits bytes` slots. A `size_t` has 64 bits. -/
def ringBits (bytes : Nat) : Nat := growBits (if bytes = 0 then kDefaultRingBytes else bytes) 64 0

/-! ## The ring and its producers -/

/-- A sample of the ring; the region is mapped with zeros. -/
structure RingSlot where
  tsNs : Int64 := 0
  tsc : UInt64 := 0
  stage : UInt32 := 0
  seq : UInt32 := 0
  valid : UInt8 := 0
  deriving DecidableEq

/-- What `bench_stats` reads of it. -/
def RingSlot.sample (s : RingSlot) : LatencySample := { tsNs := s.tsNs, seq := s.seq, valid := s.valid }

/-- The `k`-th store of a call. -/
def RingSlot.store (s : RingSlot) (k : Nat) (old : RingSlot) : RingSlot :=
  match k with
  | 0 => { old with tsNs := s.tsNs }
  | 1 => { old with tsc := s.tsc }
  | 2 => { old with stage := s.stage }
  | 3 => { old with seq := s.seq }
  | _ => { old with valid := s.valid }

/-- Where a thread stands in `bench_mark`. -/
inductive Mark where
  | idle
  | reserved (ticket : Nat) (stage : UInt32)
  | clocked (ticket : Nat) (stage : UInt32) (tsNs : Int64) (tsc : UInt64)
  | storing (ticket : Nat) (stored : Nat) (s : RingSlot)
  deriving DecidableEq

namespace Mark

def ticket : Mark → Option Nat
  | idle => none
  | reserved ticket _ => some ticket
  | clocked ticket _ _ _ => some ticket
  | storing ticket _ _ => some ticket

def inFlight (m : Mark) : Nat := if m.ticket.isSome then 1 else 0

/-- A call that has its slot and no sequence number yet. -/
def unnumbered : Mark → Nat
  | reserved _ _ => 1
  | clocked _ _ _ _ => 1
  | _ => 0

end Mark

/-- `stamps` records the number and the sample of each call. -/
structure BenchMarks (n bits : Nat) where
  head : Nat := 0
  pub : Nat := 0
  seq : Nat := 0
  base : Fin (2 ^ bits) → RingSlot := fun _ => {}
  threads : Fin n → Mark := fun _ => .idle
  stamps : Nat → Option (Nat × RingSlot) := fun _ => none

namespace BenchMarks

inductive Action (n : Nat) where
  | reserve (p : Fin n) (stage : UInt32)
  | clock (p : Fin n) (tsNs : Int64) (tsc : UInt64)
  | number (p : Fin n)
  | store (p : Fin n)
  | publish (p : Fin n)

variable {n bits : Nat}

/-- `ring_head_ & ring_mask_`. -/
def slot (ticket : Nat) : Fin (2 ^ bits) :=
  ⟨ticket &&& (2 ^ bits - 1), by
    rw [Nat.and_two_pow_sub_one_eq_mod]
    exact Nat.mod_lt _ (by positivity)⟩

def put (s : BenchMarks n bits) (p : Fin n) (m : Mark) : BenchMarks n bits :=
  { s with threads := Function.update s.threads p m }

def step (s : BenchMarks n bits) : Action n → Option (BenchMarks n bits)
  | .reserve p stage =>
    match s.threads p with
    | .idle => some { s.put p (.reserved s.head stage) with head := s.head + 1 }
    | _ => none
  | .clock p tsNs tsc =>
    match s.threads p with
    | .reserved ticket stage => some (s.put p (.clocked ticket stage tsNs tsc))
    | _ => none
  | .number p =>
    match s.threads p with
    | .clocked ticket stage tsNs tsc =>
      let sample : RingSlot :=
        { tsNs := tsNs, tsc := tsc, stage := stage, seq := UInt32.ofNat s.seq, valid := 1 }
      some { s.put p (.storing ticket 0 sample) with
        seq := s.seq + 1
        stamps := Function.update s.stamps ticket (some (s.seq, sample)) }
    | _ => none
  | .store p =>
    match s.threads p with
    | .storing ticket stored sample =>
      if stored < 5 then
        some { s.put p (.storing ticket (stored + 1) sample) with
          base := Function.update s.base (slot ticket) (sample.store stored (s.base (slot ticket))) }
      else none
    | _ => none
  | .publish p =>
    match s.threads p with
    | .storing _ stored _ => if stored = 5 then some { s.put p .idle with pub := s.pub + 1 } else none
    | _ => none

def machine (n bits : Nat) : Machine (BenchMarks n bits) (Action n) where
  init := {}
  step := step

/-- What `bench_stats` walks. -/
def ring (s : BenchMarks n bits) : BenchRing := { bits := bits, base := fun i => (s.base i).sample }

end BenchMarks

lemma growBits_spec {bytes fuel bits : Nat} (hlow : 2 ^ bits ≤ bytes) (hhigh : bytes < 2 ^ (bits + fuel)) :
    2 ^ growBits bytes fuel bits ≤ bytes ∧ bytes < 2 ^ (growBits bytes fuel bits + 1) := by
  induction fuel generalizing bits with
  | zero => exact absurd hhigh (not_lt.mpr hlow)
  | succ fuel ih =>
    rw [growBits]
    by_cases hdouble : 2 ^ (bits + 1) ≤ bytes
    · rw [if_pos hdouble]
      apply ih hdouble
      rwa [Nat.add_right_comm, Nat.add_assoc]
    · rw [if_neg hdouble]
      exact ⟨hlow, not_le.mp hdouble⟩

/-! ## The stores of a call -/

namespace RingSlot

/-- The first `k` fields are those of the sample. -/
structure Agrees (k : Nat) (s old : RingSlot) : Prop where
  tsNs : 0 < k → old.tsNs = s.tsNs
  tsc : 1 < k → old.tsc = s.tsc
  stage : 2 < k → old.stage = s.stage
  seq : 3 < k → old.seq = s.seq
  valid : 4 < k → old.valid = s.valid

variable {k : Nat} {s old : RingSlot}

lemma agrees_zero (s old : RingSlot) : Agrees 0 s old where
  tsNs h := absurd h (by omega)
  tsc h := absurd h (by omega)
  stage h := absurd h (by omega)
  seq h := absurd h (by omega)
  valid h := absurd h (by omega)

lemma Agrees.store (h : Agrees k s old) (hk : k < 5) : Agrees (k + 1) s (s.store k old) := by
  obtain rfl | rfl | rfl | rfl | rfl : k = 0 ∨ k = 1 ∨ k = 2 ∨ k = 3 ∨ k = 4 := by omega
  · exact ⟨fun _ => rfl, by omega, by omega, by omega, by omega⟩
  · exact ⟨fun _ => h.tsNs (by omega), fun _ => rfl, by omega, by omega, by omega⟩
  · exact ⟨fun _ => h.tsNs (by omega), fun _ => h.tsc (by omega), fun _ => rfl, by omega, by omega⟩
  · exact ⟨fun _ => h.tsNs (by omega), fun _ => h.tsc (by omega), fun _ => h.stage (by omega), fun _ => rfl,
      by omega⟩
  · exact ⟨fun _ => h.tsNs (by omega), fun _ => h.tsc (by omega), fun _ => h.stage (by omega),
      fun _ => h.seq (by omega), fun _ => rfl⟩

lemma Agrees.eq (h : Agrees 5 s old) : old = s := by
  obtain ⟨tsNs, tsc, stage, seq, valid⟩ := old
  obtain ⟨htsNs, htsc, hstage, hseq, hvalid⟩ := h
  have htsNs : tsNs = s.tsNs := htsNs (by omega)
  have htsc : tsc = s.tsc := htsc (by omega)
  have hstage : stage = s.stage := hstage (by omega)
  have hseq : seq = s.seq := hseq (by omega)
  have hvalid : valid = s.valid := hvalid (by omega)
  rw [htsNs, htsc, hstage, hseq, hvalid]

end RingSlot

/-! ## Calls that no lap overtakes -/

namespace BenchMarks

variable {n bits : Nat} {s t : BenchMarks n bits} {a : Action n} {p : Fin n}

/-- The head has not gone more than a lap past the call whose field is stored. -/
def InLap (s : BenchMarks n bits) : Action n → Prop
  | .store p => ∀ ticket ∈ (s.threads p).ticket, s.head ≤ ticket + 2 ^ bits
  | _ => True

instance : Decidable (s.InLap a) := by
  cases a with
  | store p => exact inferInstanceAs (Decidable (∀ ticket ∈ (s.threads p).ticket, s.head ≤ ticket + 2 ^ bits))
  | _ => exact inferInstanceAs (Decidable True)

def InFlight (s : BenchMarks n bits) (ticket : Nat) : Prop := ∃ p, (s.threads p).ticket = some ticket

lemma slot_inj {h i j : Nat} (hi : i < h) (hj : j < h) (hilap : h ≤ i + 2 ^ bits) (hjlap : h ≤ j + 2 ^ bits)
    (hslot : (slot i : Fin (2 ^ bits)) = slot j) : i = j := by
  have hmod : i % 2 ^ bits = j % 2 ^ bits := by
    have hval := congrArg Fin.val hslot
    unfold slot at hval
    simpa only [Nat.and_two_pow_sub_one_eq_mod] using hval
  clear hslot
  generalize 2 ^ bits = lap at hmod hilap hjlap
  apply Nat.ModEq.eq_of_abs_lt hmod
  rw [abs_lt]
  omega

/-- The counters and the calls in flight. -/
structure Tickets (s : BenchMarks n bits) : Prop where
  reserved : ∀ ticket, s.InFlight ticket → ticket < s.head
  distinct : ∀ p q ticket, (s.threads p).ticket = some ticket → (s.threads q).ticket = some ticket → p = q
  counted : s.pub + Workers.total Mark.inFlight s.threads = s.head
  numbered : s.seq + Workers.total Mark.unnumbered s.threads = s.head

/-- What the calls have left in the ring. -/
structure Stamped (s : BenchMarks n bits) : Prop where
  storing : ∀ p ticket k sample, s.threads p = .storing ticket k sample →
    (∃ number, s.stamps ticket = some (number, sample)) ∧
      (s.head ≤ ticket + 2 ^ bits → RingSlot.Agrees k sample (s.base (slot ticket)))
  returned : ∀ ticket, ticket < s.head → ¬s.InFlight ticket → (s.stamps ticket).isSome = true
  whole : ∀ ticket number sample, ticket < s.head → s.head ≤ ticket + 2 ^ bits → ¬s.InFlight ticket →
    s.stamps ticket = some (number, sample) → s.base (slot ticket) = sample
  numbers : ∀ ticket number sample, s.stamps ticket = some (number, sample) →
    ticket < s.head ∧ number < s.seq ∧ sample.seq = UInt32.ofNat number ∧ sample.valid = 1
  unique : ∀ i j number x y, s.stamps i = some (number, x) → s.stamps j = some (number, y) → i = j

/-! ### A thread moves on -/

lemma put_self (s : BenchMarks n bits) (p : Fin n) (m : Mark) : (s.put p m).threads p = m :=
  Function.update_self ..

lemma put_of_ne (s : BenchMarks n bits) {p q : Fin n} (hq : q ≠ p) (m : Mark) :
    (s.put p m).threads q = s.threads q := Function.update_of_ne hq ..

lemma total_put (f : Mark → Nat) (s : BenchMarks n bits) (p : Fin n) (m : Mark) :
    Workers.total f (s.put p m).threads + f (s.threads p) = Workers.total f s.threads + f m :=
  Workers.total_update s.threads p m

lemma ticket_put {m : Mark} (hticket : m.ticket = (s.threads p).ticket) (q : Fin n) :
    ((s.put p m).threads q).ticket = (s.threads q).ticket := by
  by_cases hq : q = p
  · rw [hq, put_self, hticket]
  · rw [put_of_ne s hq]

lemma inFlight_put {m : Mark} (hticket : m.ticket = (s.threads p).ticket) (ticket : Nat) :
    (s.put p m).InFlight ticket ↔ s.InFlight ticket := by
  unfold InFlight
  simp only [ticket_put hticket]

/-- A call goes on with the slot it has. -/
lemma Tickets.goOn (h : s.Tickets) {m : Mark} (hticket : m.ticket = (s.threads p).ticket) {seq : Nat}
    (hseq : seq + m.unnumbered = s.seq + (s.threads p).unnumbered) (base : Fin (2 ^ bits) → RingSlot)
    (stamps : Nat → Option (Nat × RingSlot)) :
    ({ s.put p m with seq := seq, base := base, stamps := stamps } : BenchMarks n bits).Tickets where
  reserved i hi := h.reserved i ((inFlight_put hticket i).mp hi)
  distinct q r i hq hr :=
    h.distinct q r i ((ticket_put hticket q).symm.trans hq) ((ticket_put hticket r).symm.trans hr)
  counted := by
    have hput := total_put Mark.inFlight s p m
    have hsame : m.inFlight = (s.threads p).inFlight := by rw [Mark.inFlight, hticket, Mark.inFlight]
    have hcounted := h.counted
    show s.pub + Workers.total Mark.inFlight (s.put p m).threads = s.head
    omega
  numbered := by
    have hput := total_put Mark.unnumbered s p m
    have hnumbered := h.numbered
    show seq + Workers.total Mark.unnumbered (s.put p m).threads = s.head
    omega

lemma Tickets.reserve (h : s.Tickets) (hp : s.threads p = .idle) (stage : UInt32) :
    ({ s.put p (.reserved s.head stage) with head := s.head + 1 } : BenchMarks n bits).Tickets := by
  have hold : ∀ q, q ≠ p → ∀ i, ((s.put p (.reserved s.head stage)).threads q).ticket = some i → i < s.head := by
    intro q hq i hi
    rw [put_of_ne s hq] at hi
    exact h.reserved i ⟨q, hi⟩
  have hown : ∀ i, ((s.put p (.reserved s.head stage)).threads p).ticket = some i → i = s.head := by
    intro i hi
    rw [put_self] at hi
    exact (Option.some.inj hi).symm
  constructor
  · rintro i ⟨q, hi⟩
    by_cases hq : q = p
    · rw [hown i (hq ▸ hi)]
      exact Nat.lt_succ_self _
    · exact (hold q hq i hi).trans (Nat.lt_succ_self _)
  · intro q r i hqi hri
    by_cases hq : q = p
    · by_cases hr : r = p
      · rw [hq, hr]
      · have hlt := hold r hr i hri
        have heq := hown i (hq ▸ hqi)
        omega
    · by_cases hr : r = p
      · have hlt := hold q hq i hqi
        have heq := hown i (hr ▸ hri)
        omega
      · exact h.distinct q r i ((congrArg Mark.ticket (put_of_ne s hq _)).symm.trans hqi)
          ((congrArg Mark.ticket (put_of_ne s hr _)).symm.trans hri)
  · have hput := total_put Mark.inFlight s p (.reserved s.head stage)
    have hcounted := h.counted
    rw [hp] at hput
    have hone : (Mark.reserved s.head stage).inFlight = 1 := rfl
    have hzero : Mark.idle.inFlight = 0 := rfl
    show s.pub + Workers.total Mark.inFlight (s.put p _).threads = s.head + 1
    omega
  · have hput := total_put Mark.unnumbered s p (.reserved s.head stage)
    have hnumbered := h.numbered
    rw [hp] at hput
    have hone : (Mark.reserved s.head stage).unnumbered = 1 := rfl
    have hzero : Mark.idle.unnumbered = 0 := rfl
    show s.seq + Workers.total Mark.unnumbered (s.put p _).threads = s.head + 1
    omega

lemma Tickets.publish (h : s.Tickets) {ticket k : Nat} {sample : RingSlot}
    (hp : s.threads p = .storing ticket k sample) :
    ({ s.put p .idle with pub := s.pub + 1 } : BenchMarks n bits).Tickets := by
  have hold : ∀ q i, ((s.put p .idle).threads q).ticket = some i → (s.threads q).ticket = some i := by
    intro q i hi
    by_cases hq : q = p
    · rw [hq, put_self] at hi
      cases hi
    · rwa [put_of_ne s hq] at hi
  constructor
  · rintro i ⟨q, hi⟩
    exact h.reserved i ⟨q, hold q i hi⟩
  · exact fun q r i hq hr => h.distinct q r i (hold q i hq) (hold r i hr)
  · have hput := total_put Mark.inFlight s p .idle
    have hcounted := h.counted
    rw [hp] at hput
    have hone : (Mark.storing ticket k sample).inFlight = 1 := rfl
    have hzero : Mark.idle.inFlight = 0 := rfl
    show s.pub + 1 + Workers.total Mark.inFlight (s.put p .idle).threads = s.head
    omega
  · have hput := total_put Mark.unnumbered s p .idle
    have hnumbered := h.numbered
    rw [hp] at hput
    have hzero : (Mark.storing ticket k sample).unnumbered = 0 := rfl
    have hidle : Mark.idle.unnumbered = 0 := rfl
    show s.seq + Workers.total Mark.unnumbered (s.put p .idle).threads = s.head
    omega

/-- A thread that stores after another one has moved was storing before. -/
lemma storing_of_put {m : Mark} {q : Fin n} {ticket k : Nat} {sample : RingSlot} (hq : q ≠ p)
    (hstoring : (s.put p m).threads q = .storing ticket k sample) : s.threads q = .storing ticket k sample :=
  (put_of_ne s hq m).symm.trans hstoring

lemma Stamped.reserve (h : s.Stamped) (hp : s.threads p = .idle) (stage : UInt32) :
    ({ s.put p (.reserved s.head stage) with head := s.head + 1 } : BenchMarks n bits).Stamped := by
  have hold : ∀ i, s.InFlight i → (s.put p (.reserved s.head stage)).InFlight i := by
    rintro i ⟨q, hq⟩
    have hne : q ≠ p := by
      rintro rfl
      rw [hp] at hq
      cases hq
    exact ⟨q, (congrArg Mark.ticket (put_of_ne s hne _)).trans hq⟩
  have hnew : (s.put p (.reserved s.head stage)).InFlight s.head :=
    ⟨p, congrArg Mark.ticket (put_self s p _)⟩
  have hbefore : ∀ i, i < s.head + 1 → ¬(s.put p (.reserved s.head stage)).InFlight i →
      i < s.head ∧ ¬s.InFlight i := by
    intro i hi hflight
    have hne : i ≠ s.head := fun heq => hflight (heq ▸ hnew)
    exact ⟨by omega, fun hin => hflight (hold i hin)⟩
  constructor
  · intro q i k sample hstoring
    have hq : q ≠ p := by
      intro heq
      rw [heq] at hstoring
      cases (put_self s p _).symm.trans hstoring
    obtain ⟨hstamp, hagrees⟩ := h.storing q i k sample (storing_of_put hq hstoring)
    refine ⟨hstamp, fun hlap => hagrees ?_⟩
    have hhead : s.head + 1 ≤ i + 2 ^ bits := hlap
    omega
  · intro i hi hflight
    obtain ⟨hlt, hin⟩ := hbefore i hi hflight
    exact h.returned i hlt hin
  · intro i number sample hi hlap hflight
    obtain ⟨hlt, hin⟩ := hbefore i hi hflight
    have hhead : s.head + 1 ≤ i + 2 ^ bits := hlap
    exact h.whole i number sample hlt (by omega) hin
  · intro i number sample hstamp
    obtain ⟨hlt, hrest⟩ := h.numbers i number sample hstamp
    exact ⟨Nat.lt_succ_of_lt hlt, hrest⟩
  · exact h.unique

lemma Stamped.clock (h : s.Stamped) {ticket : Nat} {stage : UInt32} (hp : s.threads p = .reserved ticket stage)
    (tsNs : Int64) (tsc : UInt64) : (s.put p (.clocked ticket stage tsNs tsc)).Stamped := by
  have hticket : (Mark.clocked ticket stage tsNs tsc).ticket = (s.threads p).ticket := by
    rw [hp]
    rfl
  constructor
  · intro q i k sample hstoring
    have hq : q ≠ p := by
      intro heq
      rw [heq] at hstoring
      cases (put_self s p _).symm.trans hstoring
    exact h.storing q i k sample (storing_of_put hq hstoring)
  · exact fun i hi hflight => h.returned i hi (fun hin => hflight ((inFlight_put hticket i).mpr hin))
  · exact fun i number sample hi hlap hflight =>
      h.whole i number sample hi hlap (fun hin => hflight ((inFlight_put hticket i).mpr hin))
  · exact h.numbers
  · exact h.unique

lemma Stamped.number (h : s.Stamped) (ht : s.Tickets) {ticket : Nat} {stage : UInt32} {tsNs : Int64}
    {tsc : UInt64} (hp : s.threads p = .clocked ticket stage tsNs tsc) {sample : RingSlot}
    (hseq : sample.seq = UInt32.ofNat s.seq) (hvalid : sample.valid = 1) :
    ({ s.put p (.storing ticket 0 sample) with
      seq := s.seq + 1
      stamps := Function.update s.stamps ticket (some (s.seq, sample)) } : BenchMarks n bits).Stamped := by
  have hticket : (Mark.storing ticket 0 sample).ticket = (s.threads p).ticket := by
    rw [hp]
    rfl
  have hown : s.InFlight ticket := ⟨p, by rw [hp]; rfl⟩
  have hself : Function.update s.stamps ticket (some (s.seq, sample)) ticket = some (s.seq, sample) :=
    Function.update_self ..
  have hother : ∀ i, i ≠ ticket → Function.update s.stamps ticket (some (s.seq, sample)) i = s.stamps i :=
    fun i hi => Function.update_of_ne hi ..
  constructor
  · intro q i k x hstoring
    by_cases hq : q = p
    · rw [hq] at hstoring
      obtain ⟨rfl, rfl, rfl⟩ := Mark.storing.inj ((put_self s p _).symm.trans hstoring)
      exact ⟨⟨s.seq, hself⟩, fun _ => RingSlot.agrees_zero ..⟩
    · have hbefore := storing_of_put hq hstoring
      have hi : i ≠ ticket := by
        rintro rfl
        exact hq (ht.distinct q p i (by rw [hbefore]; rfl) (by rw [hp]; rfl))
      obtain ⟨⟨number, hstamp⟩, hagrees⟩ := h.storing q i k x hbefore
      exact ⟨⟨number, (hother i hi).trans hstamp⟩, hagrees⟩
  · intro i hi hflight
    have hin : ¬s.InFlight i := fun hin => hflight ((inFlight_put hticket i).mpr hin)
    have hne : i ≠ ticket := fun heq => hin (heq ▸ hown)
    show (Function.update s.stamps ticket _ i).isSome = true
    rw [hother i hne]
    exact h.returned i hi hin
  · intro i number x hi hlap hflight hstamp
    have hin : ¬s.InFlight i := fun hin => hflight ((inFlight_put hticket i).mpr hin)
    have hne : i ≠ ticket := fun heq => hin (heq ▸ hown)
    exact h.whole i number x hi hlap hin ((hother i hne).symm.trans hstamp)
  · intro i number x hstamp
    by_cases hne : i = ticket
    · rw [hne] at hstamp ⊢
      obtain ⟨rfl, rfl⟩ := Prod.mk.inj (Option.some.inj (hself.symm.trans hstamp))
      exact ⟨ht.reserved ticket hown, Nat.lt_succ_self _, hseq, hvalid⟩
    · obtain ⟨hlt, hnumber, hrest⟩ := h.numbers i number x ((hother i hne).symm.trans hstamp)
      exact ⟨hlt, Nat.lt_succ_of_lt hnumber, hrest⟩
  · have hfresh : ∀ j y, j ≠ ticket → Function.update s.stamps ticket (some (s.seq, sample)) j ≠ some (s.seq, y) := by
      intro j y hj hstamp
      have hlt := (h.numbers j s.seq y ((hother j hj).symm.trans hstamp)).2.1
      omega
    intro i j number x y hi hj
    by_cases hiown : i = ticket
    · by_cases hjown : j = ticket
      · rw [hiown, hjown]
      · rw [hiown] at hi
        obtain ⟨rfl, -⟩ := Prod.mk.inj (Option.some.inj (hself.symm.trans hi))
        exact absurd hj (hfresh j y hjown)
    · by_cases hjown : j = ticket
      · rw [hjown] at hj
        obtain ⟨rfl, -⟩ := Prod.mk.inj (Option.some.inj (hself.symm.trans hj))
        exact absurd hi (hfresh i x hiown)
      · exact h.unique i j number x y ((hother i hiown).symm.trans hi) ((hother j hjown).symm.trans hj)

lemma Stamped.store (h : s.Stamped) (ht : s.Tickets) {ticket k : Nat} {sample : RingSlot}
    (hp : s.threads p = .storing ticket k sample) (hk : k < 5) (hlap : s.head ≤ ticket + 2 ^ bits) :
    ({ s.put p (.storing ticket (k + 1) sample) with
      base := Function.update s.base (slot ticket) (sample.store k (s.base (slot ticket))) } :
      BenchMarks n bits).Stamped := by
  have hticket : (Mark.storing ticket (k + 1) sample).ticket = (s.threads p).ticket := by
    rw [hp]
    rfl
  have hown : (s.threads p).ticket = some ticket := by
    rw [hp]
    rfl
  have hlt := ht.reserved ticket ⟨p, hown⟩
  have hother : ∀ i, i < s.head → s.head ≤ i + 2 ^ bits → i ≠ ticket →
      Function.update s.base (slot ticket) (sample.store k (s.base (slot ticket))) (slot i) = s.base (slot i) := by
    intro i hi hilap hne
    exact Function.update_of_ne (fun heq => hne (slot_inj hi hlt hilap hlap heq)) ..
  constructor
  · intro q i l x hstoring
    by_cases hq : q = p
    · rw [hq] at hstoring
      obtain ⟨rfl, rfl, rfl⟩ := Mark.storing.inj ((put_self s p _).symm.trans hstoring)
      obtain ⟨hstamp, hagrees⟩ := h.storing p ticket k sample hp
      refine ⟨hstamp, fun _ => ?_⟩
      show RingSlot.Agrees (k + 1) sample (Function.update s.base (slot ticket) _ (slot ticket))
      rw [Function.update_self]
      exact (hagrees hlap).store hk
    · have hbefore := storing_of_put hq hstoring
      have hflight : (s.threads q).ticket = some i := by
        rw [hbefore]
        rfl
      have hne : i ≠ ticket := by
        rintro rfl
        exact hq (ht.distinct q p i hflight hown)
      obtain ⟨hstamp, hagrees⟩ := h.storing q i l x hbefore
      refine ⟨hstamp, fun hilap => ?_⟩
      show RingSlot.Agrees l x (Function.update s.base (slot ticket) _ (slot i))
      rw [hother i (ht.reserved i ⟨q, hflight⟩) hilap hne]
      exact hagrees hilap
  · exact fun i hi hflight => h.returned i hi (fun hin => hflight ((inFlight_put hticket i).mpr hin))
  · intro i number x hi hilap hflight hstamp
    have hin : ¬s.InFlight i := fun hin => hflight ((inFlight_put hticket i).mpr hin)
    have hne : i ≠ ticket := fun heq => hin (heq ▸ ⟨p, hown⟩)
    show Function.update s.base (slot ticket) _ (slot i) = x
    rw [hother i hi hilap hne]
    exact h.whole i number x hi hilap hin hstamp
  · exact h.numbers
  · exact h.unique

lemma Stamped.publish (h : s.Stamped) {ticket : Nat} {sample : RingSlot}
    (hp : s.threads p = .storing ticket 5 sample) :
    ({ s.put p .idle with pub := s.pub + 1 } : BenchMarks n bits).Stamped := by
  obtain ⟨⟨number, hstamp⟩, hagrees⟩ := h.storing p ticket 5 sample hp
  have hbefore : ∀ i, i ≠ ticket → ¬(s.put p .idle).InFlight i → ¬s.InFlight i := by
    rintro i hne hflight ⟨q, hq⟩
    have hqp : q ≠ p := by
      rintro rfl
      rw [hp] at hq
      exact hne (Option.some.inj hq).symm
    exact hflight ⟨q, (congrArg Mark.ticket (put_of_ne s hqp _)).trans hq⟩
  constructor
  · intro q i k x hstoring
    have hq : q ≠ p := by
      intro heq
      rw [heq] at hstoring
      cases (put_self s p _).symm.trans hstoring
    exact h.storing q i k x (storing_of_put hq hstoring)
  · intro i hi hflight
    by_cases hne : i = ticket
    · show (s.stamps i).isSome = true
      rw [hne, hstamp]
      rfl
    · exact h.returned i hi (hbefore i hne hflight)
  · intro i m x hi hlap hflight hx
    by_cases hne : i = ticket
    · rw [hne] at hx hlap ⊢
      obtain ⟨-, rfl⟩ := Prod.mk.inj (Option.some.inj (hstamp.symm.trans hx))
      exact (hagrees hlap).eq
    · exact h.whole i m x hi hlap (hbefore i hne hflight) hx
  · exact h.numbers
  · exact h.unique

/-! ### Every run whose stores are in lap -/

lemma step_keeps (h : s.Tickets ∧ s.Stamped) (hstep : s.step a = some t) (hlap : s.InLap a) :
    t.Tickets ∧ t.Stamped := by
  obtain ⟨htickets, hstamped⟩ := h
  cases a with
  | reserve p stage =>
    cases hp : s.threads p with
    | idle =>
      simp only [step, hp] at hstep
      obtain rfl := Option.some.inj hstep
      exact ⟨htickets.reserve hp stage, hstamped.reserve hp stage⟩
    | _ =>
      simp only [step, hp] at hstep
      cases hstep
  | clock p tsNs tsc =>
    cases hp : s.threads p with
    | reserved ticket stage =>
      simp only [step, hp] at hstep
      obtain rfl := Option.some.inj hstep
      refine ⟨htickets.goOn ?_ ?_ s.base s.stamps, hstamped.clock hp tsNs tsc⟩
      · rw [hp]
        rfl
      · rw [hp]
        rfl
    | _ =>
      simp only [step, hp] at hstep
      cases hstep
  | number p =>
    cases hp : s.threads p with
    | clocked ticket stage tsNs tsc =>
      simp only [step, hp] at hstep
      obtain rfl := Option.some.inj hstep
      refine ⟨htickets.goOn ?_ ?_ s.base _, hstamped.number htickets hp rfl rfl⟩
      · rw [hp]
        rfl
      · rw [hp]
        rfl
    | _ =>
      simp only [step, hp] at hstep
      cases hstep
  | store p =>
    cases hp : s.threads p with
    | storing ticket k sample =>
      simp only [step, hp] at hstep
      obtain ⟨hk, ht⟩ := Option.ite_none_right_eq_some.mp hstep
      obtain rfl := Option.some.inj ht
      have hown : s.head ≤ ticket + 2 ^ bits := hlap ticket (by rw [hp]; rfl)
      refine ⟨htickets.goOn ?_ ?_ _ s.stamps, hstamped.store htickets hp hk hown⟩
      · rw [hp]
        rfl
      · rw [hp]
        rfl
    | _ =>
      simp only [step, hp] at hstep
      cases hstep
  | publish p =>
    cases hp : s.threads p with
    | storing ticket k sample =>
      simp only [step, hp] at hstep
      obtain ⟨rfl, ht⟩ := Option.ite_none_right_eq_some.mp hstep
      obtain rfl := Option.some.inj ht
      exact ⟨htickets.publish hp, hstamped.publish hp⟩
    | _ =>
      simp only [step, hp] at hstep
      cases hstep

lemma total_inFlight_idle : Workers.total Mark.inFlight (fun _ : Fin n => Mark.idle) = 0 :=
  Workers.total_replicate rfl

lemma total_unnumbered_idle : Workers.total Mark.unnumbered (fun _ : Fin n => Mark.idle) = 0 :=
  Workers.total_replicate rfl

lemma run_keeps {as : List (Action n)} (hlap : (machine n bits).Always as (fun s a _ => s.InLap a))
    (hrun : (machine n bits).run (machine n bits).init as = some s) : s.Tickets ∧ s.Stamped := by
  refine (machine n bits).invariant_of_always (I := fun s => s.Tickets ∧ s.Stamped) ?_
    (fun _ _ _ _ h hstep hC => step_keeps h hstep hC) hlap hrun
  have hnone : ∀ ticket, ¬(machine n bits).init.InFlight ticket := by
    rintro ticket ⟨p, hp⟩
    cases hp
  constructor
  · constructor
    · exact fun ticket hin => absurd hin (hnone ticket)
    · exact fun p _ ticket hp => absurd ⟨p, hp⟩ (hnone ticket)
    · exact (Nat.zero_add _).trans total_inFlight_idle
    · exact (Nat.zero_add _).trans total_unnumbered_idle
  · exact ⟨nofun, nofun, nofun, nofun, nofun⟩

/-- The samples of the newest calls, newest first. -/
def newestStamps (s : BenchMarks n bits) (count : Nat) : List LatencySample :=
  (List.range count).filterMap (fun k => (s.stamps (s.pub - 1 - k)).map (fun stamp => stamp.2.sample))

/-- The slots are the largest power of two that does not exceed the number asked for. In every interleaving
of the producers in which no call stores behind a full lap of the head: the sample of each of the newest calls
that have returned stands whole in its slot under a number of its own. When no call is in flight, the three
counters agree and `bench_stats` walks the samples of the newest calls. -/
theorem bench_marks_whole {bytes : Nat} (hbytes : bytes < 2 ^ 63) {s : BenchMarks n (ringBits bytes)}
    {as : List (Action n)} (hlap : (machine n (ringBits bytes)).Always as (fun s a _ => s.InLap a))
    (hrun : (machine n (ringBits bytes)).run (machine n (ringBits bytes)).init as = some s) :
    (2 ^ ringBits bytes ≤ (if bytes = 0 then kDefaultRingBytes else bytes) ∧
      (if bytes = 0 then kDefaultRingBytes else bytes) < 2 ^ (ringBits bytes + 1)) ∧
    (∀ ticket, ticket < s.head → s.head ≤ ticket + 2 ^ ringBits bytes → ¬s.InFlight ticket →
      ∃ number sample, s.stamps ticket = some (number, sample) ∧ s.base (slot ticket) = sample ∧
        sample.seq = UInt32.ofNat number ∧ sample.valid = 1 ∧
        ∀ other x, s.stamps other = some (number, x) → other = ticket) ∧
    ((∀ p, s.threads p = .idle) → s.pub = s.head ∧ s.seq = s.head ∧
      ∀ count, count ≤ s.pub → count ≤ 2 ^ ringBits bytes → s.ring.newest s.pub count = s.newestStamps count) := by
  obtain ⟨htickets, hstamped⟩ := run_keeps hlap hrun
  have hwhole : ∀ ticket, ticket < s.head → s.head ≤ ticket + 2 ^ ringBits bytes → ¬s.InFlight ticket →
      ∃ number sample, s.stamps ticket = some (number, sample) ∧ s.base (slot ticket) = sample := by
    intro ticket hlt hle hflight
    obtain ⟨⟨number, sample⟩, hstamp⟩ := Option.isSome_iff_exists.mp (hstamped.returned ticket hlt hflight)
    exact ⟨number, sample, hstamp, hstamped.whole ticket number sample hlt hle hflight hstamp⟩
  refine ⟨?_, ?_, ?_⟩
  · have hrequest : 0 < (if bytes = 0 then kDefaultRingBytes else bytes) ∧
        (if bytes = 0 then kDefaultRingBytes else bytes) < 2 ^ 63 := by
      split_ifs with hzero
      · exact ⟨by decide, by decide⟩
      · exact ⟨Nat.pos_of_ne_zero hzero, hbytes⟩
    exact growBits_spec (by rw [pow_zero]; exact hrequest.1) (hrequest.2.trans (by norm_num))
  · intro ticket hlt hle hflight
    obtain ⟨number, sample, hstamp, hbase⟩ := hwhole ticket hlt hle hflight
    obtain ⟨-, -, hseq, hvalid⟩ := hstamped.numbers ticket number sample hstamp
    exact ⟨number, sample, hstamp, hbase, hseq, hvalid,
      fun other x hx => hstamped.unique other ticket number x sample hx hstamp⟩
  · intro hidle
    have hnone : ∀ ticket, ¬s.InFlight ticket := by
      rintro ticket ⟨p, hp⟩
      rw [hidle p] at hp
      cases hp
    have hthreads : s.threads = fun _ => .idle := funext hidle
    have hcounted := htickets.counted
    have hnumbered := htickets.numbered
    rw [hthreads, total_inFlight_idle] at hcounted
    rw [hthreads, total_unnumbered_idle] at hnumbered
    refine ⟨hcounted, hnumbered, ?_⟩
    intro count hpub hcap
    unfold BenchRing.newest newestStamps
    rw [← List.filterMap_eq_map]
    apply List.filterMap_congr
    intro k hk
    have hlt := List.mem_range.mp hk
    obtain ⟨number, sample, hstamp, hbase⟩ := hwhole (s.pub - 1 - k) (by omega) (by omega) (hnone _)
    rw [hstamp]
    show some (s.base (slot (s.pub - 1 - k))).sample = some sample.sample
    rw [hbase]

/-- Two producers on a ring of two slots. The later slot gets the earlier number. -/
def twoProducers : List (Action 2) :=
  [.reserve 0 1, .reserve 1 2, .clock 1 20 200, .number 1, .clock 0 10 100, .number 0] ++
    (List.replicate 5 [Action.store 0, .store 1]).flatten ++ [.publish 1, .publish 0]

theorem bench_marks_whole_twoProducers :
    ∃ s, (machine 2 (ringBits 3)).run (machine 2 (ringBits 3)).init twoProducers = some s ∧
      (s.newestStamps 2).map LatencySample.seq = [0, 1] ∧ s.ring.newest s.pub 2 = s.newestStamps 2 := by
  have hlap : (machine 2 (ringBits 3)).Always twoProducers (fun s a _ => s.InLap a) := by
    refine (Machine.always_congr _ (fun s a t _ _ => decide_eq_true_iff) twoProducers).mp
      ((machine 2 (ringBits 3)).always_of_checks (C := fun s a => decide (s.InLap a)) ?_)
    decide +kernel
  have hrun : ((machine 2 (ringBits 3)).run (machine 2 (ringBits 3)).init twoProducers).map (fun s =>
      (decide (∀ p, s.threads p = .idle), s.pub, (s.newestStamps 2).map LatencySample.seq)) =
      some (true, 2, [0, 1]) := by decide +kernel
  obtain ⟨s, hs, hfacts⟩ := Option.map_eq_some_iff.mp hrun
  simp only [Prod.mk.injEq, decide_eq_true_eq] at hfacts
  obtain ⟨hidle, hpub, hseqs⟩ := hfacts
  obtain ⟨-, -, hwalk⟩ := bench_marks_whole (by decide) hlap hs
  exact ⟨s, hs, hseqs, (hwalk hidle).2.2 2 (by rw [hpub]) (by decide)⟩

end BenchMarks

end Telemetry

end LatencyArb
