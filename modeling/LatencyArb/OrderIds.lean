import LatencyArb.FixNumbers
import LatencyArb.OrderPath

/-!
# The identifiers of the engine's orders

The ClOrdID of an order is the reason of its signal, and the reason follows from the side. So two
orders of one session have different identifiers exactly when their sides differ.
-/

namespace LatencyArb

/-- The reason that `maybe_emit` writes into a signal of this side. -/
def Signal.Reasoned (s : Signal) : Prop :=
  (s.side = .buy ∧ s.reason = "lead_gt_ask") ∨ (s.side = .sell ∧ s.reason = "bid_gt_lead")

lemma signalOf_reasoned (cfg : Config) (d : Decision) (lead : ℚ) (q : BrokerQuote) (nowMs : Int) :
    (Strategy.signalOf cfg d lead q nowMs).Reasoned := by
  by_cases hd : d = .long
  · exact Or.inl ⟨if_pos hd, if_pos hd⟩
  · exact Or.inr ⟨if_neg hd, if_neg hd⟩

/-- Tag 54 of the order frame for the signal. -/
def Signal.sideCode (s : Signal) : String := if s.side = .buy then "1" else "2"

def FixFrame.isNewOrder (frame : FixFrame) : Bool := frame.value 35 == some "D"

/-- ClOrdID and side of an order frame that comes from a signal of the strategy. -/
def FixFrame.Reasoned (frame : FixFrame) : Prop :=
  (frame.value 54 = some "1" ∧ frame.value 11 = some "lead_gt_ask") ∨
    (frame.value 54 = some "2" ∧ frame.value 11 = some "bid_gt_lead")

lemma newOrderSingle_side (cfg : Config) (s : Signal) (seq : Int) (sendingTime : String) :
    (newOrderSingle cfg s seq sendingTime).value 54 = some s.sideCode := rfl

lemma newOrderSingle_reasoned {s : Signal} (h : s.Reasoned) (cfg : Config) (seq : Int)
    (sendingTime : String) : (newOrderSingle cfg s seq sendingTime).Reasoned := by
  have hid : (newOrderSingle cfg s seq sendingTime).value 11 =
      some (if s.reason = "" then "LEADLAG" else s.reason) := rfl
  unfold FixFrame.Reasoned
  rw [newOrderSingle_side, hid]
  rcases h with ⟨hside, hreason⟩ | ⟨hside, hreason⟩
  · simp [Signal.sideCode, hside, hreason]
  · simp [Signal.sideCode, hside, hreason]

/-- Between two orders the identifiers differ as the sides do. -/
lemma FixFrame.Reasoned.id_eq_iff {f g : FixFrame} (hf : f.Reasoned) (hg : g.Reasoned) :
    f.value 11 = g.value 11 ↔ f.value 54 = g.value 54 := by
  rcases hf with ⟨hf54, hf11⟩ | ⟨hf54, hf11⟩ <;> rcases hg with ⟨hg54, hg11⟩ | ⟨hg54, hg11⟩ <;>
    simp [hf54, hf11, hg54, hg11]

namespace FixClient

/-- The order frames handed to the socket of a session. -/
def orderFrames (c : FixClient) (session : Nat) : List FixFrame :=
  (c.sessionFrames session).filter FixFrame.isNewOrder

def OrderIdsDiffer (c : FixClient) : Prop :=
  ∀ session, (c.orderFrames session).Pairwise (fun f g => f.value 11 ≠ g.value 11)

/-- The order that is handed to the socket next has a side no order of the session has had. -/
def newSide (c : FixClient) : FixEvent → Bool
  | .send _ _ =>
    match c.phase with
    | .sending (s :: _) =>
      !c.fdOpen || (c.orderFrames c.session).all (fun f => decide (f.value 54 ≠ some s.sideCode))
    | _ => true
  | _ => true

/-- Every signal in the client and every order frame comes from the strategy. -/
structure Reasoned (c : FixClient) : Prop where
  batch : ∀ s ∈ c.batch, s.Reasoned
  orders : ∀ s ∈ c.orders, s.Reasoned
  frames : ∀ w ∈ c.written, w.frame.isNewOrder = true → w.frame.Reasoned

variable {cfg : Config} {nowMs : Int} {c c' : FixClient} {event : FixEvent}

lemma orderFrames_append {w : WrittenFrame} (h : c'.written = c.written ++ [w]) (session : Nat) :
    c'.orderFrames session = c.orderFrames session ++
      if w.session = session ∧ w.frame.isNewOrder = true then [w.frame] else [] := by
  unfold orderFrames
  rw [sessionFrames_append h, List.filter_append]
  by_cases hw : w.session = session
  · by_cases hf : w.frame.isNewOrder = true <;> simp [hw, hf]
  · simp [hw]

lemma orderFrames_congr (h : c'.written = c.written) : c'.orderFrames = c.orderFrames := by
  funext session
  unfold orderFrames sessionFrames
  rw [h]

lemma orderFrames_of_session {w : WrittenFrame} (h : c'.written = c.written ++ [w])
    (hw : w.frame.isNewOrder = false) : c'.orderFrames = c.orderFrames := by
  funext session
  rw [orderFrames_append h]
  simp [hw]

lemma mem_orderFrames {session : Nat} {f : FixFrame} (h : f ∈ c.orderFrames session) :
    ∃ w ∈ c.written, w.frame = f ∧ f.isNewOrder = true := by
  obtain ⟨hmem, hf⟩ := List.mem_filter.mp h
  obtain ⟨w, hw, rfl⟩ := List.mem_map.mp hmem
  exact ⟨w, (List.mem_filter.mp hw).1, rfl, hf⟩

lemma Reasoned.mem_orderFrames (hR : c.Reasoned) {session : Nat} {f : FixFrame}
    (h : f ∈ c.orderFrames session) : f.Reasoned := by
  obtain ⟨w, hw, rfl, hf⟩ := FixClient.mem_orderFrames h
  exact hR.frames w hw hf

/-- The signals of the client only move from the mailbox to the batch and out of it. -/
lemma Moves.signals (h : Moves cfg nowMs c event c') :
    (∀ s ∈ c'.batch, s ∈ c.batch ∨ s ∈ c.orders) ∧ ∀ s ∈ c'.orders, s ∈ c.orders := by
  cases h with
  | attempt phase => simp [batch]
  | connectFailed phase => simp [batch, close]
  | connect sent sendingTime phase =>
    cases sent with
    | true => simp [startSession_sent, batch]
    | false => simp [startSession_failed, close, batch]
  | swap phase => exact ⟨fun s hs => Or.inr hs, by simp⟩
  | leave phase => simp [batch, close]
  | drained sent sendingTime phase => simp [batch]
  | send s rest sent sendingTime phase =>
    by_cases hfd : c.fdOpen = true
    · cases sent with
      | true =>
        rw [sendNext_sent hfd]
        refine ⟨?_, fun x hx => hx⟩
        intro x hx
        left
        unfold batch
        rw [phase]
        exact List.mem_cons_of_mem s hx
      | false => simp [sendNext_failed hfd, batch, close]
    · simp [sendNext_closed (Bool.not_eq_true _ ▸ hfd), batch, close]
  | beat sent sendingTime phase =>
    obtain ⟨horders, hbatch⟩ := c.sendHeartbeat_keeps cfg nowMs sent sendingTime
    simp [horders, hbatch]

lemma logon_not_order (cfg : Config) (seq : Int) (sendingTime : String) :
    (LatencyArb.logon cfg seq sendingTime).isNewOrder = false := by
  unfold FixFrame.isNewOrder
  rw [show (LatencyArb.logon cfg seq sendingTime).value 35 = some "A" from buildFix_msgType ..]
  decide

lemma heartbeat_not_order (cfg : Config) (seq : Int) (sendingTime : String) :
    (LatencyArb.heartbeat cfg seq sendingTime).isNewOrder = false := by
  unfold FixFrame.isNewOrder
  rw [show (LatencyArb.heartbeat cfg seq sendingTime).value 35 = some "0" from buildFix_msgType ..]
  decide

lemma newOrderSingle_isOrder (cfg : Config) (s : Signal) (seq : Int) (sendingTime : String) :
    (newOrderSingle cfg s seq sendingTime).isNewOrder = true := by
  unfold FixFrame.isNewOrder
  rw [newOrderSingle_isNewOrder cfg s seq sendingTime]
  decide

lemma Reasoned.frames_append (hR : c.Reasoned) {w : WrittenFrame}
    (h : c'.written = c.written ++ [w]) (hw : w.frame.isNewOrder = true → w.frame.Reasoned) :
    ∀ x ∈ c'.written, x.frame.isNewOrder = true → x.frame.Reasoned := by
  intro x hx
  rw [h] at hx
  rcases List.mem_append.mp hx with hold | hlast
  · exact hR.frames x hold
  · rw [List.mem_singleton.mp hlast]
    exact hw

lemma Moves.reasoned (hR : c.Reasoned) (h : Moves cfg nowMs c event c') : c'.Reasoned := by
  obtain ⟨hbatch, horders⟩ := h.signals
  refine ⟨fun s hs => (hbatch s hs).elim (hR.batch s) (hR.orders s),
    fun s hs => hR.orders s (horders s hs), ?_⟩
  cases h.writeStep with
  | quiet idle written session fd =>
    rw [written]
    exact hR.frames
  | logon sent sendingTime phase happens written session seqOut =>
    apply hR.frames_append written
    simp [logon_not_order]
  | order s rest sent sendingTime phase happens fd written session seqOut =>
    apply hR.frames_append written
    intro _
    apply newOrderSingle_reasoned
    apply hR.batch
    simp [batch, phase]
  | heartbeat sent sendingTime phase happens fd due written session seqOut =>
    apply hR.frames_append written
    simp [heartbeat_not_order]

/-- The identifiers stay different exactly when the order that is written has a new side. -/
lemma Moves.orderIdsDiffer_iff (hR : c.Reasoned) (hI : c.OrderIdsDiffer)
    (h : Moves cfg nowMs c event c') : c'.OrderIdsDiffer ↔ c.newSide event = true := by
  cases h.writeStep with
  | quiet idle written session fd =>
    unfold OrderIdsDiffer
    rw [orderFrames_congr written]
    refine iff_of_true hI ?_
    unfold newSide
    split
    · split
      · rename_i hphase
        have hclosed : c.fdOpen = false := by simpa [writes, hphase] using idle
        simp [hclosed]
      · rfl
    · rfl
  | logon sent sendingTime phase happens written session seqOut =>
    unfold OrderIdsDiffer
    rw [orderFrames_of_session written (logon_not_order ..)]
    subst happens
    exact iff_of_true hI rfl
  | heartbeat sent sendingTime phase happens fd due written session seqOut =>
    unfold OrderIdsDiffer
    rw [orderFrames_of_session written (heartbeat_not_order ..)]
    subst happens
    exact iff_of_true hI rfl
  | order s rest sent sendingTime phase happens fd written session seqOut =>
    subst happens
    have hs : s.Reasoned := hR.batch s (by simp [batch, phase])
    have hnew := newOrderSingle_reasoned hs cfg c.seqOut sendingTime
    have hid : ∀ f ∈ c.orderFrames c.session,
        (f.value 11 ≠ (newOrderSingle cfg s c.seqOut sendingTime).value 11 ↔
          f.value 54 ≠ some s.sideCode) := by
      intro f hf
      rw [← newOrderSingle_side cfg s c.seqOut sendingTime]
      exact not_congr ((hR.mem_orderFrames hf).id_eq_iff hnew)
    simp only [newSide, phase, fd, Bool.not_true, Bool.false_or, List.all_eq_true, decide_eq_true_eq]
    constructor
    · intro hdiffer f hf
      have hsession := hdiffer c.session
      rw [orderFrames_append written, if_pos ⟨rfl, newOrderSingle_isOrder ..⟩,
        List.pairwise_append] at hsession
      exact (hid f hf).mp (hsession.2.2 f hf _ (List.mem_singleton_self _))
    · intro hsides session
      rw [orderFrames_append written]
      by_cases hsame : c.session = session
      · subst hsame
        rw [if_pos ⟨rfl, newOrderSingle_isOrder ..⟩, List.pairwise_append]
        refine ⟨hI _, List.pairwise_singleton _ _, ?_⟩
        intro f hf g hg
        rw [List.mem_singleton.mp hg]
        exact (hid f hf).mpr (hsides f hf)
      · rw [if_neg (fun h => hsame h.1), List.append_nil]
        exact hI session

end FixClient

namespace Engine

variable {cfg : Config} {utcOffsetS : Int} {boot : ℕ+}

/-- Every signal between the strategy and the socket comes from the strategy. -/
structure Reasoned (e : Engine) : Prop where
  phase : ∀ s, e.phase = .submit s → s.Reasoned
  queue : ∀ s ∈ e.exec.queue, s.Reasoned
  worker : ∀ s, e.exec.worker = .holding s ∨ e.exec.worker = .published s → s.Reasoned
  fix : e.fix.Reasoned

lemma sendOrder_reasoned {c : FixClient} (hR : c.Reasoned) {s : Signal} (hs : s.Reasoned) :
    (c.sendOrder s).Reasoned := by
  refine ⟨hR.batch, ?_, hR.frames⟩
  intro x hx
  rcases List.mem_append.mp hx with hold | hlast
  · exact hR.orders x hold
  · rw [List.mem_singleton.mp hlast]
    exact hs

variable {e e' : Engine}

lemma reasoned_iff : e.Reasoned ↔ e.EnRoute Signal.Reasoned ∧ e.fix.Reasoned := by
  constructor
  · intro h
    exact ⟨⟨h.phase, h.queue, fun s hs => h.worker s (.inl hs), fun s hs => h.worker s (.inr hs)⟩, h.fix⟩
  · rintro ⟨h, hfix⟩
    exact ⟨h.phase, h.queue, fun s hs => hs.elim (h.holding s) (h.published s), hfix⟩

lemma step_fix_reasoned (hR : e.Reasoned) (h : PathStep cfg e e') : e'.fix.Reasoned := by
  cases h with
  | other same phase => exact same.fix ▸ hR.fix
  | route s worker phase strategy exec fix =>
    rw [fix]
    split
    · exact sendOrder_reasoned hR.fix (hR.worker s (Or.inr worker))
    · exact hR.fix
  | session event fix phase strategy exec => exact (FixClient.step_moves fix).reasoned hR.fix
  | stopFix phase strategy exec fix => exact fix ▸ ⟨hR.fix.batch, hR.fix.orders, hR.fix.frames⟩
  | _ => exact ‹e'.fix = e.fix› ▸ hR.fix

lemma step_reasoned (hR : e.Reasoned) (h : PathStep cfg e e') : e'.Reasoned := by
  have henRoute : e'.EnRoute Signal.Reasoned :=
    step_enRoute (fun d lead q nowMs _ _ => signalOf_reasoned cfg d lead q nowMs) (reasoned_iff.mp hR).1 h
  exact reasoned_iff.mpr ⟨henRoute, step_fix_reasoned hR h⟩

theorem reachable_reasoned (he : (machine cfg utcOffsetS boot).Reachable e) :
    e.Reasoned := by
  apply Machine.invariant _ _ _ he
  · exact ⟨by simp [machine], by simp [machine], by simp [machine],
      by simp [machine, FixClient.batch], by simp [machine], by simp [machine]⟩
  · intro s a t _ hR hs
    exact step_reasoned hR (step_pathStep cfg utcOffsetS s t a hs)

/-- A frame that the FIX session writes for an order has a side that is new in its session. -/
def newSide (e : Engine) : Action → Bool
  | .fix event => e.fix.newSide event
  | _ => true

lemma route_orderIdsDiffer {c : FixClient} (h : c.OrderIdsDiffer) (s : Signal) :
    (if cfg.fixEnabled = true then c.sendOrder s else c).OrderIdsDiffer := by
  split <;> exact h

lemma popQuote_fix (e : Engine) (nowMs : Int) (lead : ℚ) :
    (e.popQuote cfg nowMs lead).fix = e.fix := by
  unfold popQuote
  split
  · split
    · unfold evaluateQuote
      dsimp only
      split <;> rfl
    · rfl
  · rfl

lemma brokerFrame_fix (e : Engine) (q : BrokerQuote) : (e.brokerFrame q).fix = e.fix := by
  unfold brokerFrame
  split <;> rfl

theorem step_orderIdsDiffer_iff {e e' : Engine} {a : Action} (hR : e.Reasoned)
    (hI : e.fix.OrderIdsDiffer) (hs : e.step cfg utcOffsetS a = some e') :
    e'.fix.OrderIdsDiffer ↔ e.newSide a = true := by
  cases step_moves hs with
  | session event fix hstep => exact (FixClient.step_moves hstep).orderIdsDiffer_iff hR.fix hI
  | route s worker => exact iff_of_true (route_orderIdsDiffer hI s) rfl
  | brokerFrame q => exact iff_of_true ((e.brokerFrame_fix q).symm ▸ hI) rfl
  | ingestFast nowMs phase =>
    exact iff_of_true ((e.ingestFast_samePath nowMs).1.fix.symm ▸ hI) rfl
  | ingestDeribit nowMs phase =>
    exact iff_of_true ((e.ingestDeribit_samePath cfg utcOffsetS nowMs).1.fix.symm ▸ hI) rfl
  | popQuote nowMs lead phase => exact iff_of_true ((e.popQuote_fix nowMs lead).symm ▸ hI) rfl
  | _ => exact iff_of_true hI rfl

/-- In every run of the engine the orders of every session have different identifiers exactly when no
two orders of a session have the same side. -/
theorem order_ids_differ_iff (cfg : Config) (utcOffsetS : Int) (boot : ℕ+) (run : List Action) :
    (machine cfg utcOffsetS boot).Always run (fun _ _ t => t.fix.OrderIdsDiffer) ↔
      (machine cfg utcOffsetS boot).Always run (fun s a _ => s.newSide a = true) := by
  apply Machine.always_iff_along _ (I := fun e => e.fix.OrderIdsDiffer)
  · intro session
    exact List.Pairwise.nil
  · intro s a t hr hI hs hC
    exact (step_orderIdsDiffer_iff (reachable_reasoned hr) hI hs).mpr hC
  · intro s a t hr hI hs
    exact step_orderIdsDiffer_iff (reachable_reasoned hr) hI hs

/-- One message and one quote that it beats, the iteration, and the way of its signal to the socket. -/
def oneBuy : List Action :=
  [Action.wait 60000, .fastMessage 104 104, .brokerFrame { bid := 99, ask := 100, spread := 1 }] ++
    List.replicate 6 .strategy ++ List.replicate 3 .worker ++
    [Action.fix .swap, .fix (.send true ""), .fix (.send true ""), .fix (.beat true "")]

/-- Two buy signals, a minute apart, on one session. -/
def twoBuys : List Action :=
  [Action.fix .attempt, .fix (.connect true "")] ++ oneBuy.drop 1 ++ oneBuy

def fixConfig : Config := { fixEnabled := true }

/-- Both orders have the identifier `lead_gt_ask`. -/
theorem two_buys_share_id :
    ((machine fixConfig 0 1700000000000).run (machine fixConfig 0 1700000000000).init twoBuys).map
      (fun e => (e.fix.orderFrames 1).map (fun f => f.value 11)) =
        some [some "lead_gt_ask", some "lead_gt_ask"] ∧
    ¬(machine fixConfig 0 1700000000000).Always twoBuys (fun _ _ t => t.fix.OrderIdsDiffer) := by
  have hids : ((machine fixConfig 0 1700000000000).run
      (machine fixConfig 0 1700000000000).init twoBuys).map
        (fun e => (e.fix.orderFrames 1).map (fun f => f.value 11)) =
          some [some "lead_gt_ask", some "lead_gt_ask"] := by decide +kernel
  refine ⟨hids, ?_⟩
  intro hdiffer
  obtain ⟨t, ht, hsame⟩ := Option.map_eq_some_iff.mp hids
  obtain ⟨s, hs, hlast⟩ := (machine fixConfig 0 1700000000000).run_concat_eq_some.mp
    (show (machine fixConfig 0 1700000000000).run _ (twoBuys.dropLast ++ [Action.fix (.beat true "")]) = _
      from ht)
  have hpairwise := List.pairwise_map.mpr (hdiffer _ _ s t List.prefix_rfl hs hlast 1)
  rw [hsame] at hpairwise
  revert hpairwise
  decide

end Engine

end LatencyArb
