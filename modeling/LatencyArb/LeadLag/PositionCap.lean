import LatencyArb.LeadLag.Workers

/-!
# The cap on the open positions

`open_positions_` counts the orders that workers are placing, and not the positions that are open. Accepted
orders stay below the cap in the runs in which a worker passes the test only where the open positions and
the orders in flight leave room.
-/

namespace LatencyArb

namespace LeadLag

/-- An order that the broker may still accept. -/
def Stage.inFlight : Stage → Nat
  | .passed _ => 1
  | .placing o => if o.open? then 1 else 0
  | _ => 0

/-- A worker between its addition to `open_positions_` and its subtraction. -/
def Stage.counted : Stage → Nat
  | .placing _ => 1
  | _ => 0

namespace FXCMExecutor

variable {n : Nat}

def inFlight (e : FXCMExecutor n) : Nat := Workers.total Stage.inFlight e.workers

/-- The open positions and those that may be opened by the orders in flight. -/
def exposure (e : FXCMExecutor n) : Nat := e.accepted.length + e.inFlight

/-- A worker that passes the test finds room for its order. -/
def leavesRoom (cfg : Config) (e : FXCMExecutor n) : Action n → Bool
  | .load _ => skips cfg e.openPositions || decide ((e.exposure : Int) < cfg.maxOpenPositions)
  | _ => true

lemma put_inFlight (e : FXCMExecutor n) (w : Fin n) (stage : Stage) :
    (e.put w stage).inFlight + (e.workers w).inFlight = e.inFlight + stage.inFlight :=
  Workers.total_update e.workers w stage

variable {parse : List UInt8 → Option Json} {dump : Json → List UInt8} {cfg : Config}
  {e e' : FXCMExecutor n} {a : Action n}

/-- A worker that moves to a stage without an order in flight. -/
lemma put_inFlight_le {w : Fin n} {stage : Stage} (h : stage.inFlight = 0) :
    (e.put w stage).inFlight ≤ e.inFlight := by
  have hput := put_inFlight e w stage
  omega

/-- A round of the loop opens a position only with the order that was in flight. -/
lemma post_exposure {w : Fin n} {o : Order} (hstage : e.workers w = .placing o) (hopen : o.open? = true)
    (answer : Exchange) : (e.post parse dump cfg w o answer).exposure ≤ e.exposure := by
  have hput := put_inFlight e w (.placing (o.post parse dump cfg answer))
  have hbefore : (e.workers w).inFlight = 1 := by
    rw [hstage]
    exact if_pos hopen
  rw [hbefore] at hput
  show (if (o.post parse dump cfg answer).placed then e.accepted ++ [(o.post parse dump cfg answer).last]
    else e.accepted).length + (e.put w (.placing (o.post parse dump cfg answer))).inFlight ≤ _
  cases hok : (o.post parse dump cfg answer).placed with
  | true =>
    have hafter : (Stage.placing (o.post parse dump cfg answer)).inFlight = 0 := by
      simp [Stage.inFlight, Order.open?, hok]
    rw [hafter] at hput
    simp only [if_true, List.length_append, List.length_singleton]
    unfold exposure
    omega
  | false =>
    have hafter : (Stage.placing (o.post parse dump cfg answer)).inFlight ≤ 1 := by
      unfold Stage.inFlight
      dsimp only
      split <;> omega
    simp only [Bool.false_eq_true, if_false]
    unfold exposure
    omega

/-- Only a worker that passes the test adds to the exposure, and it adds one. -/
theorem step_exposure (hs : e.step parse dump cfg a = some e') :
    e'.exposure ≤ e.exposure ∨
      ∃ w, a = .load w ∧ skips cfg e.openPositions = false ∧ e'.exposure = e.exposure + 1 := by
  cases step_moves hs with
  | start w stage => exact .inl (Nat.add_le_add_left (put_inFlight_le rfl) _)
  | submit s => exact .inl le_rfl
  | stop => exact .inl le_rfl
  | stopped stopping joined => exact .inl le_rfl
  | take w s queue stage front => exact .inl (Nat.add_le_add_left (put_inFlight_le rfl) _)
  | finish w stage empty stopping => exact .inl (Nat.add_le_add_left (put_inFlight_le rfl) _)
  | skip w s stage skipped => exact .inl (Nat.add_le_add_left (put_inFlight_le rfl) _)
  | pass w s stage passed =>
    have hput := put_inFlight e w (.passed s)
    rw [stage] at hput
    exact .inr ⟨w, rfl, passed, congrArg (e.accepted.length + ·) hput⟩
  | add w s stage =>
    have hput := put_inFlight e w (.placing { signal := s })
    rw [stage] at hput
    left
    show e.accepted.length + (e.put w (.placing { signal := s })).inFlight ≤ e.accepted.length + e.inFlight
    have hpassed : (Stage.passed s).inFlight = 1 := rfl
    have hplacing : (Stage.placing { signal := s }).inFlight = 1 := rfl
    omega
  | post w o answer stage goesOn => exact .inl (post_exposure stage goesOn answer)
  | sub w o stage done => exact .inl (Nat.add_le_add_left (put_inFlight_le rfl) _)
  | close i accepted =>
    left
    show (e.accepted.eraseIdx i).length + e.inFlight ≤ e.accepted.length + e.inFlight
    have hlength := List.length_eraseIdx_le e.accepted i
    omega

/-- Where every worker that passes the test finds room, the open positions never exceed the cap. -/
theorem accepted_le_cap (parse : List UInt8 → Option Json) (dump : Json → List UInt8) (cfg : Config)
    (n : Nat) (hcap : 0 ≤ cfg.maxOpenPositions) {as : List (Action n)}
    (hroom : (machine parse dump cfg n).Always as (fun e a _ => leavesRoom cfg e a = true))
    {e : FXCMExecutor n} (hrun : (machine parse dump cfg n).run (machine parse dump cfg n).init as = some e) :
    (e.accepted.length : Int) ≤ cfg.maxOpenPositions := by
  have hinit : (machine parse dump cfg n).init.exposure = 0 := by
    show 0 + Workers.total Stage.inFlight (fun _ => .unstarted) = 0
    rw [Nat.zero_add]
    exact Workers.total_replicate rfl
  have hexposure : (e.exposure : Int) ≤ cfg.maxOpenPositions := by
    apply (machine parse dump cfg n).invariant_of_always (I := fun e : FXCMExecutor n =>
      (e.exposure : Int) ≤ cfg.maxOpenPositions) _ _ hroom hrun
    · rw [hinit]
      exact hcap
    · intro s a t _ hs hstep hfits
      rcases step_exposure hstep with hle | ⟨w, rfl, hskips, heq⟩
      · omega
      · have hlt : (s.exposure : Int) < cfg.maxOpenPositions := by
          simpa [leavesRoom, hskips] using hfits
        omega
  have hle : e.accepted.length ≤ e.exposure := Nat.le_add_right _ _
  omega

/-! ## A worker that finds no room -/

variable (cfg) in
lemma post_accepts {w : Fin n} {o : Order} (hstage : e.workers w = .placing o) (hopen : o.open? = true)
    {x : Exchange} (hx : (fxcmPost parse dump x).ok = true) :
    ∃ e', e.step parse dump cfg (.post w x) = some e' ∧ e'.inFlight + 1 = e.inFlight ∧
      e'.accepted.length = e.accepted.length + 1 := by
  have hplaced : (o.post parse dump cfg x).placed = true := by simp [Order.post, hx]
  refine ⟨e.post parse dump cfg w o x, by simp [step, hstage, hopen], ?_, ?_⟩
  · have hput := put_inFlight e w (.placing (o.post parse dump cfg x))
    have hbefore : (e.workers w).inFlight = 1 := by
      rw [hstage]
      exact if_pos hopen
    have hafter : (Stage.placing (o.post parse dump cfg x)).inFlight = 0 := by
      simp [Stage.inFlight, Order.open?, hplaced]
    show (e.put w (.placing (o.post parse dump cfg x))).inFlight + 1 = e.inFlight
    omega
  · simp [post, hplaced]

variable (cfg) in
lemma flight_accepted (hpos : 0 < e.inFlight) {x : Exchange} (hx : (fxcmPost parse dump x).ok = true) :
    ∃ as e', (machine parse dump cfg n).run e as = some e' ∧ e'.inFlight + 1 = e.inFlight ∧
      e'.accepted.length = e.accepted.length + 1 := by
  obtain ⟨w, hw⟩ := Workers.exists_of_total_pos hpos
  cases hstage : e.workers w with
  | passed s =>
    have hadd : (machine parse dump cfg n).step e (.add w) =
        some { e.put w (.placing { signal := s }) with openPositions := e.openPositions + 1 } := by
      simp [machine, step, hstage]
    have hput := put_inFlight e w (.placing { signal := s })
    rw [hstage] at hput
    obtain ⟨e', hpost, hflight, haccepted⟩ := post_accepts cfg
      (e := { e.put w (.placing { signal := s }) with openPositions := e.openPositions + 1 })
      (put_workers w _) rfl hx
    refine ⟨[.add w, .post w x], e', ?_, ?_, haccepted⟩
    · rw [Machine.run_cons, hadd, Option.bind_some, Machine.run_cons]
      simp only [machine, hpost]
      rfl
    · rw [hflight]
      exact Nat.add_right_cancel hput
  | placing o =>
    rw [hstage] at hw
    have hopen : o.open? = true := by
      by_contra hclosed
      simp [Stage.inFlight, hclosed] at hw
    obtain ⟨e', hpost, hflight, haccepted⟩ := post_accepts cfg hstage hopen hx
    refine ⟨[.post w x], e', ?_, hflight, haccepted⟩
    rw [Machine.run_cons]
    simp only [machine, hpost]
    rfl
  | unstarted => simp [hstage, Stage.inFlight] at hw
  | waiting => simp [hstage, Stage.inFlight] at hw
  | gate s => simp [hstage, Stage.inFlight] at hw
  | finished => simp [hstage, Stage.inFlight] at hw

variable (cfg) in
/-- The broker may accept all orders in flight before any position is closed. -/
lemma exposure_accepted (e : FXCMExecutor n) {x : Exchange} (hx : (fxcmPost parse dump x).ok = true) :
    ∃ as e', (machine parse dump cfg n).run e as = some e' ∧ e'.accepted.length = e.exposure := by
  induction hflight : e.inFlight generalizing e with
  | zero => exact ⟨[], e, rfl, by simp [exposure, hflight]⟩
  | succ k ih =>
    obtain ⟨as, e', hrun, hleft, haccepted⟩ := flight_accepted cfg (by omega : 0 < e.inFlight) hx
    obtain ⟨bs, e'', hrest, hfinal⟩ := ih e' (by omega)
    refine ⟨as ++ bs, e'', Machine.run_trans _ hrun hrest, ?_⟩
    rw [hfinal]
    unfold exposure
    omega

/-- The condition cannot be weakened: once a worker passes the test without room, the cap may be exceeded. -/
theorem cap_exceeded_of_no_room {w : Fin n} {s : Signal} (hstage : e.workers w = .gate s)
    (hroom : leavesRoom cfg e (.load w) = false) {x : Exchange} (hx : (fxcmPost parse dump x).ok = true) :
    ∃ as e', (machine parse dump cfg n).run e (.load w :: as) = some e' ∧
      cfg.maxOpenPositions < (e'.accepted.length : Int) := by
  simp only [leavesRoom, Bool.or_eq_false_iff, decide_eq_false_iff_not, not_lt] at hroom
  have hload : (machine parse dump cfg n).step e (.load w) = some (e.put w (.passed s)) := by
    simp [machine, step, hstage, hroom.1]
  have hput := put_inFlight e w (.passed s)
  rw [hstage] at hput
  obtain ⟨as, e', hrun, haccepted⟩ := exposure_accepted cfg (e.put w (.passed s)) hx
  refine ⟨as, e', ?_, ?_⟩
  · rw [Machine.run_cons, hload]
    exact hrun
  · have hexposure : (e.put w (.passed s)).exposure = e.exposure + 1 :=
      congrArg (e.accepted.length + ·) hput
    omega

/-! ## What `open_positions_` counts -/

lemma put_counted (e : FXCMExecutor n) (w : Fin n) (stage : Stage) :
    Workers.total Stage.counted (e.put w stage).workers + (e.workers w).counted =
      Workers.total Stage.counted e.workers + stage.counted :=
  Workers.total_update e.workers w stage

/-- A worker that moves without a change to `open_positions_`. -/
lemma put_uncounted {w : Fin n} {stage : Stage} (h : stage.counted = (e.workers w).counted) :
    Workers.total Stage.counted (e.put w stage).workers = Workers.total Stage.counted e.workers := by
  have hput := put_counted e w stage
  omega

lemma step_openPositions (hcount : e.openPositions = Workers.total Stage.counted e.workers)
    (hs : e.step parse dump cfg a = some e') :
    e'.openPositions = Workers.total Stage.counted e'.workers := by
  cases step_moves hs with
  | start w stage => exact hcount.trans (congrArg _ (put_uncounted (by rw [stage]; rfl)).symm)
  | submit s => exact hcount
  | stop => exact hcount
  | stopped stopping joined => exact hcount
  | take w s queue stage front => exact hcount.trans (congrArg _ (put_uncounted (by rw [stage]; rfl)).symm)
  | finish w stage empty stopping =>
    exact hcount.trans (congrArg _ (put_uncounted (by rw [stage]; rfl)).symm)
  | skip w s stage skipped => exact hcount.trans (congrArg _ (put_uncounted (by rw [stage]; rfl)).symm)
  | pass w s stage passed => exact hcount.trans (congrArg _ (put_uncounted (by rw [stage]; rfl)).symm)
  | add w s stage =>
    have hput := put_counted e w (.placing { signal := s })
    have hbefore : (e.workers w).counted = 0 := by
      rw [stage]
      rfl
    have hafter : (Stage.placing { signal := s }).counted = 1 := rfl
    show e.openPositions + 1 = Workers.total Stage.counted (e.put w (.placing { signal := s })).workers
    omega
  | post w o answer stage goesOn => exact hcount.trans (congrArg _ (put_uncounted (by rw [stage]; rfl)).symm)
  | sub w o stage done =>
    have hput := put_counted e w .waiting
    have hbefore : (e.workers w).counted = 1 := by
      rw [stage]
      rfl
    have hafter : Stage.waiting.counted = 0 := rfl
    show e.openPositions - 1 = Workers.total Stage.counted (e.put w .waiting).workers
    omega
  | close i accepted => exact hcount

/-- `open_positions_` is the number of workers that are placing an order. -/
theorem reachable_openPositions (he : (machine parse dump cfg n).Reachable e) :
    e.openPositions = Workers.total Stage.counted e.workers := by
  apply (machine parse dump cfg n).invariant
    (I := fun e => e.openPositions = Workers.total Stage.counted e.workers) _ _ he
  · have hzero : Workers.total Stage.counted (fun _ : Fin n => Stage.unstarted) = 0 :=
      Workers.total_replicate rfl
    show (0 : Int) = Workers.total Stage.counted (fun _ : Fin n => Stage.unstarted)
    rw [hzero]
    rfl
  · intro s a t _ hcount hs
    exact step_openPositions hcount hs

/-- With no more workers than positions the test never stops a signal. -/
theorem gate_passes (hlive : cfg.dryRun = false) (hn : (n : Int) ≤ cfg.maxOpenPositions)
    (he : (machine parse dump cfg n).Reachable e) {w : Fin n} {s : Signal} (hstage : e.workers w = .gate s) :
    skips cfg e.openPositions = false := by
  have hcounted : Workers.total Stage.counted e.workers < n := by
    apply Workers.total_lt
    · intro stage
      unfold Stage.counted
      split <;> omega
    · rw [hstage]
      rfl
  have hcount := reachable_openPositions he
  simp only [skips, hlive, Bool.false_or, decide_eq_false_iff_not, not_le]
  omega

/-! ## Two orders -/

def approval : Exchange := .answered 200 (reply true)

/-- A worker goes through `execute` with an order that is accepted. -/
def placing (w : Fin n) : List (Action n) := [.take w, .load w, .add w, .post w approval, .sub w]

/-- One worker, two signals, and the first position closed before the second signal is taken. -/
def closedBetween : List (Action 1) :=
  [Action.start 0, .submit buySignal, .submit buySignal] ++ placing 0 ++ [Action.close 0] ++ placing 0

theorem closedBetween_le_cap :
    ∃ e, (machine parseReply (fun _ => []) { dryRun := false } 1).run
        (machine parseReply (fun _ => []) { dryRun := false } 1).init closedBetween = some e ∧
      (e.accepted.length : Int) ≤ 1 := by
  have hrun : ((machine parseReply (fun _ => []) { dryRun := false } 1).run
      (machine parseReply (fun _ => []) { dryRun := false } 1).init closedBetween).isSome = true := by
    decide +kernel
  have hroom : (machine parseReply (fun _ => []) { dryRun := false } 1).checks
      (leavesRoom { dryRun := false }) (machine parseReply (fun _ => []) { dryRun := false } 1).init
      closedBetween = true := by
    decide +kernel
  obtain ⟨e, he⟩ := Option.isSome_iff_exists.mp hrun
  exact ⟨e, he, accepted_le_cap parseReply (fun _ => []) { dryRun := false } 1 (by decide)
    (Machine.always_of_checks _ hroom) he⟩

/-- With the default cap of one, a worker opens two positions one after the other, and two workers that
load before they add open two at once. -/
theorem cap_of_one_exceeded :
    ((machine parseReply (fun _ => []) { dryRun := false } 1).run
        (machine parseReply (fun _ => []) { dryRun := false } 1).init
        ([Action.start 0, .submit buySignal, .submit buySignal] ++ placing 0 ++ placing 0)).map
      (fun e => e.accepted.length) = some 2 ∧
    ((machine parseReply (fun _ => []) { dryRun := false } 2).run
        (machine parseReply (fun _ => []) { dryRun := false } 2).init
        [.start 0, .start 1, .submit buySignal, .submit buySignal, .take 0, .take 1, .load 0, .load 1,
          .add 0, .add 1, .post 0 approval, .post 1 approval]).map
      (fun e => e.accepted.length) = some 2 ∧
    ({ dryRun := false } : Config).maxOpenPositions = 1 := by
  decide +kernel

end FXCMExecutor

end LeadLag

end LatencyArb
