import LatencyArb.Ring

/-!
# The ring under two threads (`SpscRing::push` and `SpscRing::pop`, access by access)

Every load and store of the two operations is a step of its own, and the steps of the one producer and
the one consumer interleave in any order. `SpscInv` ties the two program counters to the ring.
-/

namespace LatencyArb

/-- The producer inside `push`: what it has loaded and done so far. -/
inductive Producer (T : Type) (capacity : Nat) where
  | outside
  | headLoaded (item : T) (head : Fin capacity)
  | tailLoaded (item : T) (head : Fin capacity) (dropped : Bool)
  | slotWritten (item : T) (head : Fin capacity) (dropped : Bool)

/-- The consumer inside `pop`. -/
inductive Consumer (T : Type) (capacity : Nat) where
  | outside
  | tailLoaded (tail : Fin capacity)
  | headLoaded (tail : Fin capacity)
  | slotRead (tail : Fin capacity) (out : T)

/-- `pushed` and `popped` record the published and the returned items, `returns` what the calls of `push`
returned, and `checks` how many published items were unread when each of them loaded `tail_`. -/
structure SpscThreads (T : Type) (capacity : Nat) where
  ring : SpscRing T capacity
  producer : Producer T capacity := .outside
  consumer : Consumer T capacity := .outside
  pushed : List T := []
  popped : List T := []
  checks : List Nat := []
  returns : List Bool := []

namespace SpscThreads

variable {T : Type} {capacity : Nat}

inductive Action (T : Type) where
  | push (item : T)
  | producer
  | consumer
  deriving DecidableEq

def backlog (s : SpscThreads T capacity) : Nat := s.pushed.length - s.popped.length

def push (s : SpscThreads T capacity) (item : T) : Option (SpscThreads T capacity) :=
  match s.producer with
  | .outside => some { s with producer := .headLoaded item s.ring.head }
  | _ => none

def producerStep (s : SpscThreads T capacity) : Option (SpscThreads T capacity) :=
  match s.producer with
  | .outside => none
  | .headLoaded item head =>
    let dropped := decide (SpscRing.next head = s.ring.tail)
    some { s with producer := .tailLoaded item head dropped, checks := s.checks ++ [s.backlog] }
  | .tailLoaded item head dropped =>
    let ring := { s.ring with slots := Function.update s.ring.slots head item }
    some { s with ring := ring, producer := .slotWritten item head dropped }
  | .slotWritten item head dropped =>
    let ring := { s.ring with head := SpscRing.next head }
    some { s with
      ring := ring
      producer := .outside
      pushed := s.pushed ++ [item]
      returns := s.returns ++ [!dropped] }

def consumerStep (s : SpscThreads T capacity) : SpscThreads T capacity :=
  match s.consumer with
  | .outside => { s with consumer := .tailLoaded s.ring.tail }
  | .tailLoaded tail =>
    if tail = s.ring.head then { s with consumer := .outside }
    else { s with consumer := .headLoaded tail }
  | .headLoaded tail => { s with consumer := .slotRead tail (s.ring.slots tail) }
  | .slotRead tail out =>
    let ring := { s.ring with tail := SpscRing.next tail }
    { s with ring := ring, consumer := .outside, popped := s.popped ++ [out] }

def step (s : SpscThreads T capacity) : Action T → Option (SpscThreads T capacity)
  | .push item => s.push item
  | .producer => s.producerStep
  | .consumer => some s.consumerStep

lemma two_pow_neZero (k : Nat) : NeZero (2 ^ (k + 1)) := ⟨(Nat.two_pow_pos _).ne'⟩

def machine (T : Type) [Inhabited T] (k : Nat) : Machine (SpscThreads T (2 ^ (k + 1))) (Action T) where
  init := { ring := @SpscRing.init T (2 ^ (k + 1)) _ (two_pow_neZero k) (SpscRing.two_pow_isPow2 k) }
  step := step

/-- A `push` that nobody interrupts is the `push` of the ring. -/
lemma run_push (k : Nat) [Inhabited T] (s : SpscThreads T (2 ^ (k + 1))) (item : T)
    (hs : s.producer = .outside) :
    (machine T k).run s (Action.push item :: List.replicate 3 .producer) =
      some { s with
        ring := (s.ring.push item).1
        pushed := s.pushed ++ [item]
        checks := s.checks ++ [s.backlog]
        returns := s.returns ++ [(s.ring.push item).2] } := by
  obtain ⟨ring, producer, consumer, pushed, popped, checks, returns⟩ := s
  obtain rfl : producer = .outside := hs
  rfl

/-- A `pop` that nobody interrupts is the `pop` of the ring. -/
lemma run_pop (s : SpscThreads T capacity) (hs : s.consumer = .outside) :
    s.ring.pop.2 = none ∧ s.consumerStep.consumerStep = s ∨
      ∃ out, s.ring.pop.2 = some out ∧ s.consumerStep.consumerStep.consumerStep.consumerStep =
        { s with ring := s.ring.pop.1, popped := s.popped ++ [out] } := by
  obtain ⟨ring, producer, consumer, pushed, popped, checks, returns⟩ := s
  obtain rfl : consumer = .outside := hs
  by_cases hempty : ring.tail = ring.head
  · left
    simp [SpscRing.pop, consumerStep, hempty]
  · right
    refine ⟨ring.slots ring.tail, ?_⟩
    simp [SpscRing.pop, consumerStep, hempty]

/-! ## The invariant -/

/-- Where the producer is, and what it relies on. -/
def ProducerInv (s : SpscThreads T capacity) : Prop :=
  match s.producer with
  | .outside => True
  | .headLoaded _ head => head = s.ring.head
  | .tailLoaded _ head _ => head = s.ring.head
  | .slotWritten item head _ => head = s.ring.head ∧ s.ring.slots head = item

/-- The check of the push in progress has already been recorded, its return value has not. -/
def pending : Producer T capacity → List Bool
  | .tailLoaded _ _ dropped => [!dropped]
  | .slotWritten _ _ dropped => [!dropped]
  | _ => []

def ConsumerInv (s : SpscThreads T capacity) : Prop :=
  match s.consumer with
  | .outside => True
  | .tailLoaded tail => tail = s.ring.tail
  | .headLoaded tail => tail = s.ring.tail ∧ s.ring.unread ≠ []
  | .slotRead tail out => tail = s.ring.tail ∧ s.ring.unread.head? = some out

structure SpscInv (s : SpscThreads T capacity) : Prop where
  order : s.pushed = s.popped ++ s.ring.unread
  producer : s.ProducerInv
  consumer : s.ConsumerInv
  returns : s.checks.map (fun n => decide (n < capacity - 1)) = s.returns ++ pending s.producer

/-- Never more than `capacity - 1` published items are unread. -/
def Fits (_ : SpscThreads T capacity) (_ : Action T) (t : SpscThreads T capacity) : Prop :=
  t.backlog ≤ capacity - 1

lemma SpscInv.backlog_eq {s : SpscThreads T capacity} (h : s.SpscInv) : s.backlog = s.ring.count := by
  rw [backlog, h.order, List.length_append, SpscRing.unread_length]
  omega

lemma SpscInv.loadHead {s : SpscThreads T capacity} (h : s.SpscInv) (item : T)
    (hs : s.producer = .outside) :
    SpscInv { s with producer := .headLoaded item s.ring.head } := by
  refine ⟨h.order, rfl, h.consumer, ?_⟩
  have hreturns := h.returns
  rw [hs] at hreturns
  exact hreturns

lemma SpscInv.loadTail {s : SpscThreads T capacity} (h : s.SpscInv) {item : T} {head : Fin capacity}
    (hs : s.producer = .headLoaded item head) :
    SpscInv { s with
      producer := .tailLoaded item head (decide (SpscRing.next head = s.ring.tail))
      checks := s.checks ++ [s.backlog] } := by
  have hhead : head = s.ring.head := by
    have hproducer := h.producer
    rw [ProducerInv, hs] at hproducer
    exact hproducer
  have hreturns := h.returns
  rw [hs] at hreturns
  refine ⟨h.order, hhead, h.consumer, ?_⟩
  have hlt := s.ring.count_lt
  have hfull : decide (s.backlog < capacity - 1) = !decide (SpscRing.next head = s.ring.tail) := by
    rw [hhead, h.backlog_eq, decide_eq_decide.mpr s.ring.next_head_eq_tail_iff, ← decide_not]
    apply decide_eq_decide.mpr
    omega
  rw [List.map_append, hreturns, List.map_cons, List.map_nil, hfull]
  simp [pending]

/-- Writing the slot under `head` leaves the unread items alone. -/
lemma unread_write (r : SpscRing T capacity) (item : T) :
    ({ r with slots := Function.update r.slots r.head item } : SpscRing T capacity).unread =
      r.unread := by
  unfold SpscRing.unread
  apply List.map_congr_left
  intro k hk
  exact Function.update_of_ne (r.slotAt_ne_head (List.mem_range.mp hk)) _ _

lemma SpscInv.writeSlot {s : SpscThreads T capacity} (h : s.SpscInv) {item : T} {head : Fin capacity}
    {dropped : Bool} (hs : s.producer = .tailLoaded item head dropped) :
    SpscInv { s with
      ring := { s.ring with slots := Function.update s.ring.slots head item }
      producer := .slotWritten item head dropped } := by
  obtain rfl : head = s.ring.head := by
    have hproducer := h.producer
    rw [ProducerInv, hs] at hproducer
    exact hproducer
  have hunread := unread_write s.ring item
  have hreturns := h.returns
  rw [hs] at hreturns
  refine ⟨?_, ⟨rfl, Function.update_self _ _ _⟩, ?_, hreturns⟩
  · rw [hunread]
    exact h.order
  · have hconsumer := h.consumer
    unfold ConsumerInv at hconsumer ⊢
    dsimp only
    rw [hunread]
    exact hconsumer

lemma SpscInv.publishHead {s : SpscThreads T capacity} (h : s.SpscInv) {item : T}
    {head : Fin capacity} {dropped : Bool} (hs : s.producer = .slotWritten item head dropped)
    (hfits : s.backlog + 1 ≤ capacity - 1) :
    SpscInv { s with
      ring := { s.ring with head := SpscRing.next head }
      producer := .outside
      pushed := s.pushed ++ [item]
      returns := s.returns ++ [!dropped] } := by
  obtain ⟨rfl, hslot⟩ : head = s.ring.head ∧ s.ring.slots head = item := by
    have hproducer := h.producer
    rw [ProducerInv, hs] at hproducer
    exact hproducer
  have hpush : ({ s.ring with head := SpscRing.next s.ring.head } : SpscRing T capacity) =
      (s.ring.push item).1 := by
    rw [SpscRing.push, ← hslot, Function.update_eq_self]
  have hroom : s.ring.count < capacity - 1 := by
    rw [← h.backlog_eq]
    omega
  have hunread := (s.ring.push_unread item hroom).1
  have hreturns := h.returns
  rw [hs] at hreturns
  rw [hpush]
  refine ⟨?_, trivial, ?_, by rw [hreturns]; simp [pending]⟩
  · rw [hunread, h.order, List.append_assoc]
  · have hconsumer := h.consumer
    unfold ConsumerInv at hconsumer ⊢
    dsimp only
    rw [hunread, SpscRing.push_tail]
    cases hc : s.consumer with
    | outside => trivial
    | tailLoaded tail =>
      rw [hc] at hconsumer
      exact hconsumer
    | headLoaded tail => exact ⟨(hc ▸ hconsumer).1, by simp⟩
    | slotRead tail out =>
      rw [hc] at hconsumer
      exact ⟨hconsumer.1, by rw [List.head?_append, hconsumer.2, Option.some_or]⟩

lemma SpscInv.startPop {s : SpscThreads T capacity} (h : s.SpscInv) :
    SpscInv { s with consumer := .tailLoaded s.ring.tail } := ⟨h.order, h.producer, rfl, h.returns⟩

lemma SpscInv.popFails {s : SpscThreads T capacity} (h : s.SpscInv) :
    SpscInv { s with consumer := .outside } := ⟨h.order, h.producer, trivial, h.returns⟩

/-- The consumer sees that `head_` is elsewhere: an item is published, and nobody else takes it. -/
lemma SpscInv.seesItem {s : SpscThreads T capacity} (h : s.SpscInv) {tail : Fin capacity}
    (hs : s.consumer = .tailLoaded tail) (hne : tail ≠ s.ring.head) :
    SpscInv { s with consumer := .headLoaded tail } := by
  have htail : tail = s.ring.tail := by
    have hconsumer := h.consumer
    rw [ConsumerInv, hs] at hconsumer
    exact hconsumer
  refine ⟨h.order, h.producer, ⟨htail, ?_⟩, h.returns⟩
  intro hnil
  rw [htail, Ne, SpscRing.head_eq_tail_iff, ← SpscRing.unread_length, List.length_eq_zero_iff] at hne
  exact hne hnil

lemma unread_head_of_ne_nil (r : SpscRing T capacity) (h : r.unread ≠ []) :
    r.unread.head? = some (r.slots r.tail) := by
  obtain ⟨item, rest, hu⟩ := List.exists_cons_of_ne_nil h
  have hpop := (r.pop_of_unread_cons hu).2
  have hne : r.tail ≠ r.head := by
    rw [Ne, SpscRing.head_eq_tail_iff, ← SpscRing.unread_length, hu, List.length_cons]
    omega
  rw [SpscRing.pop, if_neg hne] at hpop
  rw [hu, List.head?_cons, ← hpop]

lemma SpscInv.readSlot {s : SpscThreads T capacity} (h : s.SpscInv) {tail : Fin capacity}
    (hs : s.consumer = .headLoaded tail) :
    SpscInv { s with consumer := .slotRead tail (s.ring.slots tail) } := by
  obtain ⟨rfl, hne⟩ : tail = s.ring.tail ∧ s.ring.unread ≠ [] := by
    have hconsumer := h.consumer
    rw [ConsumerInv, hs] at hconsumer
    exact hconsumer
  exact ⟨h.order, h.producer, ⟨rfl, unread_head_of_ne_nil s.ring hne⟩, h.returns⟩

lemma SpscInv.publishTail {s : SpscThreads T capacity} (h : s.SpscInv) {tail : Fin capacity} {out : T}
    (hs : s.consumer = .slotRead tail out) :
    SpscInv { s with
      ring := { s.ring with tail := SpscRing.next tail }
      consumer := .outside
      popped := s.popped ++ [out] } := by
  obtain ⟨rfl, hhead⟩ : tail = s.ring.tail ∧ s.ring.unread.head? = some out := by
    have hconsumer := h.consumer
    rw [ConsumerInv, hs] at hconsumer
    exact hconsumer
  obtain ⟨rest, hu⟩ : ∃ rest, s.ring.unread = out :: rest := List.head?_eq_some_iff.mp hhead
  have hne : s.ring.tail ≠ s.ring.head := by
    rw [Ne, SpscRing.head_eq_tail_iff, ← SpscRing.unread_length, hu, List.length_cons]
    omega
  have hpop : ({ s.ring with tail := SpscRing.next s.ring.tail } : SpscRing T capacity) =
      s.ring.pop.1 := by
    rw [SpscRing.pop, if_neg hne]
  have hrest := (s.ring.pop_of_unread_cons hu).1
  refine ⟨?_, h.producer, trivial, h.returns⟩
  rw [hpop, hrest, List.append_assoc, List.singleton_append, ← hu]
  exact h.order

lemma SpscInv.consumerStep {s : SpscThreads T capacity} (h : s.SpscInv) :
    s.consumerStep.SpscInv := by
  unfold SpscThreads.consumerStep
  cases hc : s.consumer with
  | outside => exact h.startPop
  | tailLoaded tail =>
    dsimp only
    split
    · exact h.popFails
    · exact h.seesItem hc ‹_›
  | headLoaded tail => exact h.readSlot hc
  | slotRead tail out => exact h.publishTail hc

lemma SpscInv.step {s t : SpscThreads T capacity} {a : Action T} (h : s.SpscInv)
    (hs : s.step a = some t) (hfits : Fits s a t) : t.SpscInv := by
  cases a with
  | push item =>
    rw [SpscThreads.step, push] at hs
    cases hp : s.producer <;> rw [hp] at hs <;> cases hs
    exact h.loadHead item hp
  | producer =>
    rw [SpscThreads.step, producerStep] at hs
    cases hp : s.producer with
    | outside =>
      rw [hp] at hs
      cases hs
    | headLoaded item head =>
      rw [hp] at hs
      obtain rfl := Option.some.inj hs
      exact h.loadTail hp
    | tailLoaded item head dropped =>
      rw [hp] at hs
      obtain rfl := Option.some.inj hs
      exact h.writeSlot hp
    | slotWritten item head dropped =>
      rw [hp] at hs
      obtain rfl := Option.some.inj hs
      apply h.publishHead hp
      have hlen := congrArg List.length h.order
      rw [List.length_append] at hlen
      have hnext : (s.pushed ++ [item]).length - s.popped.length ≤ capacity - 1 := hfits
      rw [List.length_append, List.length_singleton] at hnext
      rw [backlog]
      omega
  | consumer =>
    obtain rfl := Option.some.inj hs
    exact h.consumerStep

lemma init_spscInv (k : Nat) [Inhabited T] : (machine T k).init.SpscInv := by
  refine ⟨?_, trivial, trivial, rfl⟩
  exact (SpscRing.init_unread (SpscRing.two_pow_isPow2 k)).symm

/-- Every published item belongs to one call of `push` that has returned. -/
lemma step_returned {s t : SpscThreads T capacity} {a : Action T}
    (h : s.pushed.length = s.returns.length) (hs : s.step a = some t) :
    t.pushed.length = t.returns.length := by
  cases a with
  | push item =>
    rw [step, push] at hs
    cases hp : s.producer <;> rw [hp] at hs <;> cases hs
    exact h
  | producer =>
    rw [step, producerStep] at hs
    cases hp : s.producer with
    | outside =>
      rw [hp] at hs
      cases hs
    | slotWritten item head dropped =>
      rw [hp] at hs
      obtain rfl := Option.some.inj hs
      rw [List.length_append, List.length_append, h]
      rfl
    | _ =>
      rw [hp] at hs
      obtain rfl := Option.some.inj hs
      exact h
  | consumer =>
    obtain rfl := Option.some.inj hs
    unfold SpscThreads.consumerStep
    cases s.consumer with
    | tailLoaded tail =>
      dsimp only
      split <;> exact h
    | _ => exact h

/-- In every interleaving that never leaves more than `capacity - 1` published items unread: the popped
items are the first of the pushed ones, and a push returns true exactly when fewer than `capacity - 1`
items were unread at the moment it loaded `tail_`. -/
theorem popped_prefix_of_fits (k : Nat) [Inhabited T] (as : List (Action T))
    (hfits : (machine T k).Always as Fits) (t : SpscThreads T (2 ^ (k + 1)))
    (hrun : (machine T k).run (machine T k).init as = some t) :
    t.popped <+: t.pushed ∧ t.pushed.length = t.returns.length ∧
      t.returns <+: t.checks.map (fun n => decide (n < 2 ^ (k + 1) - 1)) := by
  have hI : t.SpscInv := Machine.invariant_of_always _ (init_spscInv k)
    (fun _ _ _ _ h hs hC => h.step hs hC) hfits hrun
  have hreturned : t.pushed.length = t.returns.length :=
    Machine.invariant (machine T k) (I := fun s => s.pushed.length = s.returns.length) rfl
      (fun _ _ _ _ h hs => step_returned h hs) ⟨as, hrun⟩
  refine ⟨?_, hreturned, ?_⟩
  · rw [hI.order]
    exact List.prefix_append _ _
  · rw [hI.returns]
    exact List.prefix_append _ _

/-- A ring of two slots: the second push loads `tail_` while the first item is unread, and the consumer
takes that item before the second one is published. -/
def lateTake : List (Action Nat) :=
  [Action.push 7, .producer, .producer, .producer] ++ [Action.push 8, .producer] ++
    List.replicate 4 .consumer ++ [Action.producer, .producer]

def fits (s : SpscThreads T capacity) (a : Action T) : Bool :=
  match s.step a with
  | none => true
  | some t => decide (t.backlog ≤ capacity - 1)

lemma always_fits_of_checks {k : Nat} [Inhabited T] {as : List (Action T)}
    (h : (machine T k).checks fits (machine T k).init as = true) : (machine T k).Always as Fits := by
  intro pre a s t hpre hs ht
  have hfits : fits s a = true := (machine T k).always_of_checks h pre a s t hpre hs ht
  have hstep : s.step a = some t := ht
  rw [fits, hstep, decide_eq_true_eq] at hfits
  exact hfits

theorem lateTake_push_returns_false :
    (machine Nat 0).Always lateTake Fits ∧
      ((machine Nat 0).run (machine Nat 0).init lateTake).map (fun t => (t.pushed, t.popped, t.returns)) =
        some ([7, 8], [7], [true, false]) :=
  ⟨always_fits_of_checks (by decide), by decide⟩

/-- Two pushes and one pop on a ring of four slots, with their steps mixed. -/
def interleavedCalls : List (Action Nat) :=
  [Action.push 7, .consumer, .producer, .producer, .consumer, .producer, .push 8, .consumer, .consumer,
    .producer, .consumer, .producer, .consumer, .producer]

theorem interleavedCalls_in_order :
    (machine Nat 1).Always interleavedCalls Fits ∧
      ∃ t, (machine Nat 1).run (machine Nat 1).init interleavedCalls = some t ∧
        t.popped <+: t.pushed ∧ t.pushed.length = t.returns.length ∧
        t.returns <+: t.checks.map (fun n => decide (n < 3)) := by
  have hfits : (machine Nat 1).Always interleavedCalls Fits := always_fits_of_checks (by decide)
  refine ⟨hfits, ?_⟩
  cases ht : (machine Nat 1).run (machine Nat 1).init interleavedCalls with
  | none => exact absurd ht (by decide)
  | some t => exact ⟨t, rfl, popped_prefix_of_fits 1 interleavedCalls hfits t ht⟩

end SpscThreads

end LatencyArb
