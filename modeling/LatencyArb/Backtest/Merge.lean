import LatencyArb.Backtest.Books

/-!
# The order of the replayed ticks

The loop consumes the two streams in the order of `List.merge`, and between two lag ticks the lead mid
is the one of the last valid lead tick consumed.
-/

namespace LatencyArb

/-- Two lists told apart by `p` come out of their merge as they went in. -/
lemma filter_merge {α : Type*} (le : α → α → Bool) (p : α → Bool) {xs ys : List α}
    (hxs : ∀ x ∈ xs, p x = true) (hys : ∀ y ∈ ys, p y = false) :
    (xs.merge ys le).filter p = xs ∧ (xs.merge ys le).filter (fun a => !p a) = ys := by
  induction xs generalizing ys with
  | nil => simpa using hys
  | cons x xs ih =>
    have hx : p x = true := hxs x (List.mem_cons_self ..)
    have hrest : ∀ z ∈ xs, p z = true := fun z hz => hxs z (List.mem_cons_of_mem _ hz)
    induction ys with
    | nil => simpa [hx] using hrest
    | cons y ys ih' =>
      have hy : p y = false := hys y (List.mem_cons_self ..)
      rw [List.cons_merge_cons]
      by_cases hle : le x y = true
      · obtain ⟨hl, hr⟩ := ih hrest hys
        rw [if_pos hle, List.filter_cons_of_pos hx, hl, List.filter_cons_of_neg (by simp [hx]), hr]
        exact ⟨rfl, rfl⟩
      · obtain ⟨hl, hr⟩ := ih' (fun z hz => hys z (List.mem_cons_of_mem _ hz))
        rw [if_neg hle, List.filter_cons_of_neg (by simp [hy]), hl,
          List.filter_cons_of_pos (by simp [hy]), hr]
        exact ⟨rfl, rfl⟩

namespace Replay

variable (cfg : Config) (params : ExecutionParams)

/-- The order of the replay: by time, and the lead first at equal times. -/
def precedes (a b : Feed × BinaryTick) : Bool :=
  decide (a.2.tsMs < b.2.tsMs ∨ a.2.tsMs = b.2.tsMs ∧ (a.1 = .lead ∨ b.1 = .lag))

def merged (lead lag : List BinaryTick) : List (Feed × BinaryTick) :=
  (lead.map (Feed.lead, ·)).merge (lag.map (Feed.lag, ·)) precedes

lemma precedes_trans (a b c : Feed × BinaryTick) (hab : precedes a b = true)
    (hbc : precedes b c = true) : precedes a c = true := by
  obtain ⟨fa, ta⟩ := a
  obtain ⟨fb, tb⟩ := b
  obtain ⟨fc, tc⟩ := c
  simp only [precedes, decide_eq_true_eq] at *
  cases fa <;> cases fb <;> cases fc <;> simp_all <;> omega

lemma precedes_total (a b : Feed × BinaryTick) : (precedes a b || precedes b a) = true := by
  obtain ⟨fa, ta⟩ := a
  obtain ⟨fb, tb⟩ := b
  simp only [precedes, Bool.or_eq_true, decide_eq_true_eq]
  cases fa <;> cases fb <;> simp <;> omega

lemma merged_sorted {lead lag : List BinaryTick}
    (hlead : lead.Pairwise (fun a b => a.tsMs ≤ b.tsMs))
    (hlag : lag.Pairwise (fun a b => a.tsMs ≤ b.tsMs)) :
    (merged lead lag).Pairwise (fun a b => precedes a b = true) := by
  have hfeed : ∀ (feed : Feed) (ticks : List BinaryTick),
      ticks.Pairwise (fun a b => a.tsMs ≤ b.tsMs) →
      (ticks.map (feed, ·)).Pairwise (fun a b => precedes a b = true) := by
    intro feed ticks hticks
    refine List.pairwise_map.mpr (hticks.imp ?_)
    intro a b hab
    simp only [precedes, decide_eq_true_eq]
    cases feed <;> simp <;> omega
  exact List.pairwise_merge precedes_trans precedes_total _ _ (hfeed .lead lead hlead)
    (hfeed .lag lag hlag)

lemma merged_feeds (lead lag : List BinaryTick) :
    ((merged lead lag).filter (fun a => decide (a.1 = .lead))).map Prod.snd = lead ∧
      ((merged lead lag).filter (fun a => decide (a.1 = .lag))).map Prod.snd = lag := by
  have hleads : ∀ a ∈ lead.map (Feed.lead, ·), decide (a.1 = Feed.lead) = true := by simp
  have hlags : ∀ a ∈ lag.map (Feed.lag, ·), decide (a.1 = Feed.lead) = false := by simp
  obtain ⟨hl, hr⟩ := filter_merge precedes (fun a => decide (a.1 = Feed.lead)) hleads hlags
  have hlag : (fun a : Feed × BinaryTick => !decide (a.1 = .lead)) = fun a => decide (a.1 = .lag) := by
    funext a
    cases a.1 <;> rfl
  rw [hlag] at hr
  rw [merged, hl, hr]
  simp

/-! ## What orders and positions leave alone -/

/-- The quotes that the streams set, and the ticks counted. -/
structure Feeds where
  leadMid : ℚ
  lagBid : ℚ
  lagAsk : ℚ
  leadTicks : Nat
  lagTicks : Nat

def feeds (s : Replay) : Feeds :=
  ⟨s.leadMid, s.lagBid, s.lagAsk, s.out.leadTicksConsumed, s.out.lagTicksConsumed⟩

lemma recordTrade_feeds (s : Replay) (tr : Trade) : (s.recordTrade tr).feeds = s.feeds := by
  unfold recordTrade
  dsimp only
  split <;> rfl

lemma realize_feeds (s : Replay) (pnl : ℚ) : (s.realize pnl).feeds = s.feeds := rfl

lemma orderClosed_feeds (s : Replay) (pnl comm : ℚ) : (s.orderClosed pnl comm).feeds = s.feeds := rfl

lemma release_feeds (s : Replay) : ({ s with held := none } : Replay).feeds = s.feeds := rfl

lemma instantTrade_feeds (s : Replay) (f : Fill) : (s.instantTrade f).feeds = s.feeds := by
  unfold instantTrade
  rw [recordTrade_feeds, orderClosed_feeds, realize_feeds]

lemma closeOpen_feeds (s : Replay) (nowMs : Int) (curLead curBid curAsk : ℚ) (force : Bool) :
    (s.closeOpen params nowMs curLead curBid curAsk force).feeds = s.feeds := by
  unfold closeOpen
  split
  · rfl
  split
  · rfl
  · rw [release_feeds, orderClosed_feeds, recordTrade_feeds, realize_feeds]

lemma handleFill_feeds (s : Replay) (nowMs : Int) :
    (s.handleFill params nowMs).feeds = s.feeds := by
  unfold handleFill
  split
  · rfl
  dsimp only
  split
  · split
    · rfl
    · rw [instantTrade_feeds]
      rfl
  · rfl

lemma ride_feeds (s : Replay) (nowMs : Int) : (s.ride params nowMs).feeds = s.feeds := by
  unfold ride
  split
  · exact closeOpen_feeds params s nowMs _ _ _ _
  · rfl

lemma evaluateQuote_feeds (s : Replay) (nowMs : Int) :
    (s.evaluateQuote cfg nowMs).feeds = s.feeds := by
  unfold evaluateQuote
  split
  · dsimp only
    split
    · rfl
    · split <;> rfl
  · rfl

lemma forceClose_feeds (s : Replay) (nowMs : Int) :
    (s.forceClose params nowMs).feeds = s.feeds := by
  unfold forceClose
  split
  · rfl
  dsimp only
  rw [closeOpen_feeds]
  split <;> rfl

/-- A valid lag tick sets the lag quote and is counted, and that is all that its iteration does to the
feeds. -/
lemma lagTick_feeds (s : Replay) (t : BinaryTick) :
    (s.lagTick cfg params t).feeds = if t.isValid then (s.quoted t).feeds else s.feeds := by
  unfold lagTick
  cases t.isValid with
  | false => rfl
  | true =>
    change (evaluateQuote cfg _ t.tsMs).feeds = _
    rw [evaluateQuote_feeds, ride_feeds, handleFill_feeds]
    rfl

/-! ## The order of the loop -/

/-- The feed and the tick of the next iteration. -/
def taken (s : Replay) : Option (Feed × BinaryTick) := s.pick.map (fun p => (p.1, p.2.1))

/-- The ticks that `run_impl` visits, in order. -/
def visitedTicks (delayMs : Int) (lead lag : List BinaryTick) : List (Feed × BinaryTick) :=
  if lead = [] ∨ lag = [] then []
  else
    (Loop.visits (next cfg params) (lead.length + lag.length)
      (start params delayMs lead lag)).filterMap taken

/-- The next tick is the head of the merged streams. -/
lemma pick_merged (s : Replay) :
    (s.pick = none ∧ merged s.lead s.lag = []) ∨
      ∃ feed t s', s.pick = some (feed, t, s') ∧
        merged s.lead s.lag = (feed, t) :: merged s'.lead s'.lag := by
  unfold pick
  cases hlead : s.lead with
  | nil =>
    cases hlag : s.lag with
    | nil => exact .inl ⟨rfl, by simp [merged]⟩
    | cons b lag => exact .inr ⟨.lag, b, _, rfl, by simp [merged]⟩
  | cons a lead =>
    cases hlag : s.lag with
    | nil => exact .inr ⟨.lead, a, _, rfl, by simp [merged]⟩
    | cons b lag =>
      right
      have hfirst : precedes (.lead, a) (.lag, b) = decide (a.tsMs ≤ b.tsMs) := by
        rw [precedes, decide_eq_decide]
        simp only [true_or, and_true]
        omega
      dsimp only
      by_cases hle : a.tsMs ≤ b.tsMs
      · rw [if_pos hle]
        exact ⟨.lead, a, _, rfl, by simp [merged, hfirst, hle]⟩
      · rw [if_neg hle]
        exact ⟨.lag, b, _, rfl, by simp [merged, hfirst, hle]⟩

/-- An iteration takes the head of the merged streams and leaves the rest of them. -/
lemma next_merged {s t : Replay} (h : next cfg params s = some t) :
    ∃ a, s.taken = some a ∧ merged s.lead s.lag = a :: merged t.lead t.lag := by
  unfold next at h
  unfold taken
  obtain ⟨hp, -⟩ | ⟨feed, tick, s', hp, hmerged⟩ := s.pick_merged
  · simp [hp] at h
  refine ⟨(feed, tick), by rw [hp]; rfl, ?_⟩
  have hstreams : t.lead = s'.lead ∧ t.lag = s'.lag := by
    cases feed with
    | lead =>
      simp only [hp, Option.some.injEq] at h
      have hheader := (s'.leadTick_same tick).2
      rw [h] at hheader
      exact ⟨congrArg Header.lead hheader, congrArg Header.lag hheader⟩
    | lag =>
      simp only [hp, Option.some.injEq] at h
      have hheader := s'.lagTick_header cfg params tick
      rw [h] at hheader
      exact ⟨congrArg Header.lead hheader, congrArg Header.lag hheader⟩
  rw [hmerged, hstreams.1, hstreams.2]

lemma merged_length (lead lag : List BinaryTick) :
    (merged lead lag).length = lead.length + lag.length := by
  simp [merged]

lemma visits_merged {fuel : Nat} {s : Replay} (hfuel : s.lead.length + s.lag.length ≤ fuel) :
    (Loop.visits (next cfg params) fuel s).filterMap taken = merged s.lead s.lag := by
  induction fuel generalizing s with
  | zero =>
    have hempty : (merged s.lead s.lag).length = 0 := by
      rw [merged_length]
      omega
    rw [List.length_eq_zero_iff.mp hempty]
    rfl
  | succ fuel ih =>
    rw [Loop.visits]
    cases hn : next cfg params s with
    | none =>
      obtain ⟨hlead, hlag⟩ := next_eq_none cfg params hn
      simp [hlead, hlag, merged]
    | some t =>
      obtain ⟨a, ha, hmerged⟩ := next_merged cfg params hn
      have hlen := congrArg List.length hmerged
      rw [merged_length, List.length_cons, merged_length] at hlen
      dsimp only
      rw [List.filterMap_cons_some ha, hmerged, ih (by omega)]

/-! ## The ticks counted -/

def isCounted (feed : Feed) (a : Feed × BinaryTick) : Bool := decide (a.1 = feed) && a.2.isValid

def Feeds.ticks : Feed → Feeds → Nat
  | .lead, f => f.leadTicks
  | .lag, f => f.lagTicks

/-- The stream of a feed. -/
def stream (lead lag : List BinaryTick) : Feed → List BinaryTick
  | .lead => lead
  | .lag => lag

lemma pick_feeds {s s' : Replay} {feed : Feed} {t : BinaryTick} (h : s.pick = some (feed, t, s')) :
    s'.feeds = s.feeds := by
  rw [pick_same h]
  rfl

/-- A lead tick leaves the lag quotes alone. -/
lemma leadTick_quotes (s : Replay) (t : BinaryTick) :
    (s.leadTick t).lagBid = s.lagBid ∧ (s.leadTick t).lagAsk = s.lagAsk ∧
      (s.leadTick t).lastBid = s.lastBid ∧ (s.leadTick t).lastAsk = s.lastAsk := by
  unfold leadTick
  split <;> exact ⟨rfl, rfl, rfl, rfl⟩

lemma next_feeds (feed : Feed) {s t : Replay} (h : next cfg params s = some t) :
    (t.feeds.ticks feed : Int) = s.feeds.ticks feed + (s.taken.any (isCounted feed)).toNat := by
  unfold taken
  obtain ⟨tick, s', hp, rfl⟩ | ⟨tick, s', hp, rfl⟩ := next_cases cfg params h
  · rw [hp, ← pick_feeds hp, leadTick]
    cases hvalid : tick.isValid <;> cases feed <;> simp [isCounted, hvalid, feeds, Feeds.ticks]
  · rw [hp, ← pick_feeds hp, lagTick_feeds]
    cases hvalid : tick.isValid <;> cases feed <;>
      simp [isCounted, hvalid, feeds, Feeds.ticks, quoted]

lemma countP_taken (visited : List Replay) (p : Feed × BinaryTick → Bool) :
    visited.countP (fun s => s.taken.any p) = (visited.filterMap taken).countP p := by
  rw [List.countP_filterMap]
  congr 1
  funext s
  cases s.taken <;> rfl

lemma merged_counted (feed : Feed) (lead lag : List BinaryTick) :
    (merged lead lag).countP (isCounted feed) = (stream lead lag feed).countP BinaryTick.isValid := by
  have hperm : (merged lead lag).Perm (lead.map (Feed.lead, ·) ++ lag.map (Feed.lag, ·)) :=
    List.merge_perm_append precedes
  have hcount : ∀ (feed' : Feed) (ticks : List BinaryTick),
      (ticks.map (feed', ·)).countP (isCounted feed) =
        if feed' = feed then ticks.countP BinaryTick.isValid else 0 := by
    intro feed' ticks
    rw [List.countP_map]
    by_cases hfeed : feed' = feed
    · rw [if_pos hfeed]
      congr 1
      funext t
      simp [isCounted, hfeed]
    · rw [if_neg hfeed, List.countP_eq_zero]
      simp [isCounted, hfeed]
  rw [hperm.countP_eq, List.countP_append, hcount, hcount]
  cases feed <;> simp [stream]

lemma replayed_counted (feed : Feed) (delayMs : Int) (lead lag : List BinaryTick) :
    (replayed cfg params delayMs lead lag).feeds.ticks feed =
      (stream lead lag feed).countP BinaryTick.isValid := by
  have hrun : ((replayed cfg params delayMs lead lag).feeds.ticks feed : Int) =
      (start params delayMs lead lag).feeds.ticks feed +
        (Loop.visits (next cfg params) (lead.length + lag.length)
          (start params delayMs lead lag)).countP (fun s => s.taken.any (isCounted feed)) :=
    Loop.run_count (I := fun _ : Replay => True) (fun s => (s.feeds.ticks feed : Int))
      (fun s t _ hs => ⟨trivial, next_feeds cfg params feed hs⟩) trivial _
  have hvisits : (Loop.visits (next cfg params) (lead.length + lag.length)
      (start params delayMs lead lag)).filterMap taken = merged lead lag :=
    visits_merged cfg params le_rfl
  have hzero : (start params delayMs lead lag).feeds.ticks feed = 0 := by cases feed <;> rfl
  rw [countP_taken, hvisits, merged_counted, hzero] at hrun
  omega

/-! ## The lead mid of an evaluation -/

/-- The strategy evaluation of the next iteration: the state it is made in, and its time. -/
def evaluation (s : Replay) : Option (Replay × Int) :=
  match s.pick with
  | some (.lag, t, s) =>
    let ridden := ((s.quoted t).handleFill params t.tsMs).ride params t.tsMs
    if t.isValid ∧ 0 < ridden.leadMid ∧ 0 < ridden.lagBid ∧ 0 < ridden.lagAsk then
      some (ridden, t.tsMs)
    else none
  | _ => none

/-- All strategy evaluations of a run. -/
def evaluations (delayMs : Int) (lead lag : List BinaryTick) : List (Replay × Int) :=
  if lead = [] ∨ lag = [] then []
  else
    (Loop.visits (next cfg params) (lead.length + lag.length)
      (start params delayMs lead lag)).filterMap (evaluation params)

/-- The last valid tick of the stream that is not later than `nowMs`. -/
def lastValid (ticks : List BinaryTick) (nowMs : Int) : Option BinaryTick :=
  (ticks.filter (fun a => a.isValid && decide (a.tsMs ≤ nowMs))).getLast?

/-- Its mid, 0 if there is no such tick. -/
def leadMidAt (lead : List BinaryTick) (nowMs : Int) : ℚ :=
  ((lastValid lead nowMs).map BinaryTick.mid).getD 0

/-- The lead ticks that are no longer in the stream were consumed, none of them is later than a
remaining lag tick, and the last valid one set the lead mid. -/
structure MidInv (lead : List BinaryTick) (s : Replay) : Prop where
  sorted : s.lag.Pairwise (fun a b => a.tsMs ≤ b.tsMs)
  consumed : ∃ consumed, lead = consumed ++ s.lead ∧ (∀ a ∈ consumed, ∀ b ∈ s.lag, a.tsMs ≤ b.tsMs) ∧
    s.leadMid = ((consumed.filter BinaryTick.isValid).getLast?.map BinaryTick.mid).getD 0

lemma pick_streams {s s' : Replay} {feed : Feed} {t : BinaryTick} (h : s.pick = some (feed, t, s')) :
    (feed = .lead ∧ s.lead = t :: s'.lead ∧ s'.lag = s.lag ∧ ∀ b ∈ s.lag.head?, t.tsMs ≤ b.tsMs) ∨
      (feed = .lag ∧ s.lag = t :: s'.lag ∧ s'.lead = s.lead ∧ ∀ a ∈ s.lead.head?, t.tsMs < a.tsMs) := by
  unfold pick at h
  cases hlead : s.lead with
  | nil =>
    cases hlag : s.lag with
    | nil => simp [hlead, hlag] at h
    | cons b lag =>
      simp only [hlead, hlag, Option.some.injEq, Prod.mk.injEq] at h
      obtain ⟨rfl, rfl, rfl⟩ := h
      exact .inr ⟨rfl, rfl, rfl, by simp⟩
  | cons a lead =>
    cases hlag : s.lag with
    | nil =>
      simp only [hlead, hlag, Option.some.injEq, Prod.mk.injEq] at h
      obtain ⟨rfl, rfl, rfl⟩ := h
      exact .inl ⟨rfl, rfl, rfl, by simp⟩
    | cons b lag =>
      simp only [hlead, hlag] at h
      split at h <;> simp only [Option.some.injEq, Prod.mk.injEq] at h <;>
        obtain ⟨rfl, rfl, rfl⟩ := h
      · exact .inl ⟨rfl, rfl, rfl, by simpa using ‹a.tsMs ≤ b.tsMs›⟩
      · exact .inr ⟨rfl, rfl, rfl, by simpa using ‹¬a.tsMs ≤ b.tsMs›⟩

lemma le_of_head {l : List BinaryTick} (hl : l.Pairwise (fun a b => a.tsMs ≤ b.tsMs)) {x : Int}
    (hx : ∀ b ∈ l.head?, x ≤ b.tsMs) : ∀ b ∈ l, x ≤ b.tsMs := by
  cases l with
  | nil => simp
  | cons first rest =>
    have hfirst : x ≤ first.tsMs := hx first rfl
    intro b hb
    obtain rfl | hb := List.mem_cons.mp hb
    · exact hfirst
    · exact hfirst.trans (List.rel_of_pairwise_cons hl hb)

lemma start_midInv (delayMs : Int) (lead : List BinaryTick) {lag : List BinaryTick}
    (hlag : lag.Pairwise (fun a b => a.tsMs ≤ b.tsMs)) :
    MidInv lead (start params delayMs lead lag) :=
  ⟨hlag, [], rfl, by simp, rfl⟩

lemma next_midInv {lead : List BinaryTick} {s t : Replay} (h : MidInv lead s)
    (hs : next cfg params s = some t) : MidInv lead t := by
  obtain ⟨hsorted, consumed, hlead, hearlier, hmid⟩ := h
  obtain ⟨tick, s', hp, rfl⟩ | ⟨tick, s', hp, rfl⟩ := next_cases cfg params hs
  · obtain ⟨-, hsplit, hlag', hfirst⟩ | ⟨⟨⟩, -⟩ := pick_streams hp
    have hmid' : s'.leadMid = s.leadMid := congrArg Feeds.leadMid (pick_feeds hp)
    have hheader := (s'.leadTick_same tick).2
    have htlead : (s'.leadTick tick).lead = s'.lead := congrArg Header.lead hheader
    have htlag : (s'.leadTick tick).lag = s.lag := (congrArg Header.lag hheader).trans hlag'
    refine ⟨htlag ▸ hsorted, consumed ++ [tick], ?_, ?_, ?_⟩
    · rw [htlead, hlead, hsplit, List.append_assoc, List.singleton_append]
    · intro a ha b hb
      rw [htlag] at hb
      obtain ha | ha := List.mem_append.mp ha
      · exact hearlier a ha b hb
      · rw [List.mem_singleton.mp ha]
        exact le_of_head hsorted hfirst b hb
    · rw [leadTick, List.filter_append]
      cases hvalid : tick.isValid with
      | true => simp [hvalid]
      | false => simpa [hvalid] using hmid'.trans hmid
  · obtain ⟨⟨⟩, -⟩ | ⟨-, hsplit, hlead', -⟩ := pick_streams hp
    have hmid' : s'.leadMid = s.leadMid := congrArg Feeds.leadMid (pick_feeds hp)
    have hheader := s'.lagTick_header cfg params tick
    have htlead : (s'.lagTick cfg params tick).lead = s.lead :=
      (congrArg Header.lead hheader).trans hlead'
    have htlag : (s'.lagTick cfg params tick).lag = s'.lag := congrArg Header.lag hheader
    have htmid : (s'.lagTick cfg params tick).leadMid = s.leadMid := by
      refine Eq.trans (congrArg Feeds.leadMid (s'.lagTick_feeds cfg params tick)) ?_
      cases tick.isValid <;> exact hmid'
    rw [hsplit] at hsorted hearlier
    refine ⟨htlag ▸ hsorted.tail, consumed, by rw [htlead, hlead], ?_, htmid.trans hmid⟩
    intro a ha b hb
    exact hearlier a ha b (List.mem_cons_of_mem _ (htlag ▸ hb))

/-- The lead mid that a lag tick meets is that of the last valid lead tick that is not later. -/
lemma MidInv.leadMid_at {lead : List BinaryTick} (hlead : lead.Pairwise (fun a b => a.tsMs ≤ b.tsMs))
    {s s' : Replay} {tick : BinaryTick} (h : MidInv lead s) (hp : s.pick = some (.lag, tick, s')) :
    s.leadMid = leadMidAt lead tick.tsMs := by
  obtain ⟨-, consumed, hsplit, hearlier, hmid⟩ := h
  obtain ⟨⟨⟩, -⟩ | ⟨-, hlag, -, hlater⟩ := pick_streams hp
  rw [hsplit, List.pairwise_append] at hlead
  have hrest : ∀ a ∈ s.lead, tick.tsMs + 1 ≤ a.tsMs := le_of_head hlead.2.1 (fun a ha => hlater a ha)
  have hseen : ∀ a ∈ consumed, a.tsMs ≤ tick.tsMs :=
    fun a ha => hearlier a ha tick (hlag ▸ List.mem_cons_self ..)
  have hfilter : lead.filter (fun a => a.isValid && decide (a.tsMs ≤ tick.tsMs)) =
      consumed.filter BinaryTick.isValid := by
    have hnone : s.lead.filter (fun a => a.isValid && decide (a.tsMs ≤ tick.tsMs)) = [] := by
      rw [List.filter_eq_nil_iff]
      intro a ha hyes
      have hlate := hrest a ha
      simp only [Bool.and_eq_true, decide_eq_true_eq] at hyes
      omega
    have hall : consumed.filter (fun a => a.isValid && decide (a.tsMs ≤ tick.tsMs)) =
        consumed.filter BinaryTick.isValid :=
      List.filter_congr (fun a ha => by simp [hseen a ha])
    rw [hsplit, List.filter_append, hnone, hall, List.append_nil]
  rw [leadMidAt, lastValid, hfilter]
  exact hmid

/-- The lead mid of an evaluation is the mid of the last valid lead tick that is not later. -/
lemma evaluation_mid {lead : List BinaryTick}
    (hlead : lead.Pairwise (fun a b => a.tsMs ≤ b.tsMs)) {s u : Replay} {nowMs : Int} (h : MidInv lead s)
    (he : s.evaluation params = some (u, nowMs)) :
    ∃ tick, lastValid lead nowMs = some tick ∧ u.leadMid = tick.mid := by
  unfold evaluation at he
  cases hp : s.pick with
  | none => simp [hp] at he
  | some picked =>
    obtain ⟨feed, tick, s'⟩ := picked
    cases feed with
    | lead => simp [hp] at he
    | lag =>
      simp only [hp] at he
      split at he
      case isFalse => cases he
      case isTrue hgate =>
        cases he
        set u := ((s'.quoted tick).handleFill params tick.tsMs).ride params tick.tsMs
        have hu : u.leadMid = leadMidAt lead tick.tsMs := by
          have hfeeds : u.feeds = (s'.quoted tick).feeds := by rw [ride_feeds, handleFill_feeds]
          have hsame : u.leadMid = s.leadMid :=
            (congrArg Feeds.leadMid hfeeds).trans (congrArg Feeds.leadMid (pick_feeds hp))
          rw [hsame, h.leadMid_at hlead hp]
        have hpos : 0 < leadMidAt lead tick.tsMs := hu ▸ hgate.2.1
        unfold leadMidAt at hu hpos
        cases hlast : lastValid lead tick.tsMs with
        | none => simp [hlast] at hpos
        | some last =>
          rw [hlast] at hu
          exact ⟨last, rfl, hu⟩

/-- The merge of two streams that hold a tick each: the loop ends, after it has visited every tick of
each stream once and in order, and the counters are the numbers of valid ticks. For ordered streams the
visited ticks are in chronological order with the lead first at equal times, and every strategy
evaluation uses the mid of the last valid lead tick that is not later. -/
theorem chronological_merge (delayMs : Int) (lead lag : List BinaryTick) (hlead : lead ≠ [])
    (hlag : lag ≠ []) :
    let visited := visitedTicks cfg params delayMs lead lag
    let result := runImpl cfg params delayMs lead lag
    next cfg params (replayed cfg params delayMs lead lag) = none ∧
      (visited.filter (fun a => decide (a.1 = .lead))).map Prod.snd = lead ∧
      (visited.filter (fun a => decide (a.1 = .lag))).map Prod.snd = lag ∧
      result.leadTicksConsumed = lead.countP BinaryTick.isValid ∧
      result.lagTicksConsumed = lag.countP BinaryTick.isValid ∧
      (lead.Pairwise (fun a b => a.tsMs ≤ b.tsMs) → lag.Pairwise (fun a b => a.tsMs ≤ b.tsMs) →
        visited.Pairwise (fun a b => a.2.tsMs < b.2.tsMs ∨
          a.2.tsMs = b.2.tsMs ∧ (a.1 = .lead ∨ b.1 = .lag)) ∧
        ∀ call ∈ evaluations cfg params delayMs lead lag, ∃ tick,
          lastValid lead call.2 = some tick ∧ call.1.leadMid = tick.mid) := by
  have hnonempty : ¬(lead = [] ∨ lag = []) := not_or.mpr ⟨hlead, hlag⟩
  have hcounted : ∀ feed, (replayed cfg params delayMs lead lag).feeds.ticks feed =
      (stream lead lag feed).countP BinaryTick.isValid :=
    fun feed => replayed_counted cfg params feed delayMs lead lag
  obtain ⟨hl, hr⟩ := merged_feeds lead lag
  intro visited result
  have hvisited : visited = merged lead lag := by
    refine Eq.trans (if_neg hnonempty) ?_
    exact visits_merged cfg params le_rfl
  have hresult : result = (((replayed cfg params delayMs lead lag).handleFill params
      (replayed cfg params delayMs lead lag).drainMs).forceClose params
        ((replayed cfg params delayMs lead lag).drainMs + 1)).finish := if_neg hnonempty
  have hfeeds := (forceClose_feeds params ((replayed cfg params delayMs lead lag).handleFill params
      (replayed cfg params delayMs lead lag).drainMs)
        ((replayed cfg params delayMs lead lag).drainMs + 1)).trans (handleFill_feeds params _ _)
  refine ⟨?_, by rw [hvisited]; exact hl, by rw [hvisited]; exact hr, ?_, ?_, ?_⟩
  · obtain ⟨hlead', hlag'⟩ := replayed_consumes cfg params delayMs lead lag
    rw [next, pick, hlead', hlag']
  · rw [hresult]
    exact (congrArg Feeds.leadTicks hfeeds).trans (hcounted .lead)
  · rw [hresult]
    exact (congrArg Feeds.lagTicks hfeeds).trans (hcounted .lag)
  · intro hleadSorted hlagSorted
    constructor
    · rw [hvisited]
      exact (merged_sorted hleadSorted hlagSorted).imp of_decide_eq_true
    · intro call hcall
      rw [evaluations, if_neg hnonempty] at hcall
      obtain ⟨s, hs, he⟩ := List.mem_filterMap.mp hcall
      obtain ⟨-, hall⟩ := Loop.run_invariant (fun s t h hs => next_midInv cfg params h hs)
        (start_midInv params delayMs lead hlagSorted) (lead.length + lag.length)
      exact evaluation_mid params hleadSorted (hall s hs) he

theorem chronological_merge_minute :
    visitedTicks {} {} 5 minuteLead minuteLag = minuteLead.map (Feed.lead, ·) ++
        minuteLag.map (Feed.lag, ·) ∧
      (runImpl {} {} 5 minuteLead minuteLag).lagTicksConsumed = minuteLag.countP BinaryTick.isValid :=
  ⟨by decide +kernel,
    (chronological_merge {} {} 5 minuteLead minuteLag (by decide) (by decide)).2.2.2.2.1⟩

/-- Without a lead tick the loop is never entered: three valid lag ticks, none consumed. -/
theorem empty_lead_skips_lag :
    minuteLag.countP BinaryTick.isValid = 3 ∧ visitedTicks {} {} 5 [] minuteLag = [] ∧
      (runImpl {} {} 5 [] minuteLag).lagTicksConsumed = 0 := by
  refine ⟨?_, ?_, ?_⟩ <;> decide +kernel

end Replay

end LatencyArb
