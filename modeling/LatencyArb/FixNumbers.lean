import LatencyArb.FixSession

/-!
# The sequence numbers of the FIX client

The Logon reads the counter without advancing it, and no session resets it. So a session is numbered
1, 2, 3 only as long as it writes nothing after a Logon with number 1.
-/

namespace LatencyArb

/-- The frames of one session carry the numbers 1, 2, 3, and the first of them is its Logon. -/
structure SessionNumbered (frames : List FixFrame) : Prop where
  numbers : ∀ (i : Nat) (f : FixFrame), frames[i]? = some f → f.value 34 = some (toString (i + 1 : Int))
  logon : ∀ f : FixFrame, frames[0]? = some f → f.value 35 = some "A"

lemma sessionNumbered_nil : SessionNumbered [] := by
  constructor <;> simp

lemma logon_seq (cfg : Config) (seq : Int) (sendingTime : String) :
    (logon cfg seq sendingTime).value 34 = some (toString seq) := rfl

lemma newOrderSingle_seq (cfg : Config) (s : Signal) (seq : Int) (sendingTime : String) :
    (newOrderSingle cfg s seq sendingTime).value 34 = some (toString seq) := rfl

lemma heartbeat_seq (cfg : Config) (seq : Int) (sendingTime : String) :
    (heartbeat cfg seq sendingTime).value 34 = some (toString seq) := rfl

lemma sessionNumbered_logon_iff (cfg : Config) (seq : Int) (sendingTime : String) :
    SessionNumbered [logon cfg seq sendingTime] ↔ seq = 1 := by
  constructor
  · intro h
    have hnumber := h.numbers 0 _ rfl
    rw [logon_seq, Option.some.injEq] at hnumber
    exact Int.repr_injective hnumber
  · rintro rfl
    constructor
    · intro i f hi
      obtain ⟨hlt, rfl⟩ := List.getElem?_eq_some_iff.mp hi
      obtain rfl : i = 0 := by simpa using hlt
      rfl
    · intro f hf
      cases hf
      exact buildFix_msgType ..

/-- A second frame with number 1. -/
lemma not_sessionNumbered_second {first second : FixFrame} (h : second.value 34 = some (toString (1 : Int))) :
    ¬SessionNumbered [first, second] := by
  intro hnumbered
  have hnumber := hnumbered.numbers 1 second rfl
  rw [h] at hnumber
  revert hnumber
  decide

namespace FixClient

/-- The frames handed to the socket of a session, in order. -/
def sessionFrames (c : FixClient) (session : Nat) : List FixFrame :=
  (c.written.filter (fun w => decide (w.session = session))).map WrittenFrame.frame

lemma sessionFrames_append {c c' : FixClient} {w : WrittenFrame} (h : c'.written = c.written ++ [w])
    (session : Nat) :
    c'.sessionFrames session =
      c.sessionFrames session ++ if w.session = session then [w.frame] else [] := by
  unfold sessionFrames
  rw [h, List.filter_append, List.map_append]
  by_cases hw : w.session = session <;> simp [hw]

lemma sessionFrames_new {c : FixClient} (h : ∀ w ∈ c.written, w.session ≤ c.session) :
    c.sessionFrames (c.session + 1) = [] := by
  unfold sessionFrames
  rw [List.map_eq_nil_iff, List.filter_eq_nil_iff]
  intro w hw
  have hle := h w hw
  simp only [decide_eq_true_eq]
  omega

/-- Every session is numbered, and an open one has written its Logon only. -/
structure NumbersInv (c : FixClient) : Prop where
  numbered : ∀ session, SessionNumbered (c.sessionFrames session)
  past : ∀ w ∈ c.written, w.session ≤ c.session
  alone : c.fdOpen = true → c.seqOut = 1 ∧ ∃ logon, c.sessionFrames c.session = [logon]

lemma NumbersInv.quiet {c c' : FixClient} (hI : c.NumbersInv) (hwritten : c'.written = c.written)
    (hsession : c'.session = c.session)
    (hfd : c'.fdOpen = true → c.fdOpen = true ∧ c'.seqOut = c.seqOut) : c'.NumbersInv := by
  have hframes : c'.sessionFrames = c.sessionFrames := by
    funext session
    unfold sessionFrames
    rw [hwritten]
  constructor
  · rw [hframes]
    exact hI.numbered
  · rw [hwritten, hsession]
    exact hI.past
  · intro h
    obtain ⟨hopen, hseq⟩ := hfd h
    rw [hframes, hsession, hseq]
    exact hI.alone hopen

lemma NumbersInv.session_frames {c c' : FixClient} (hI : c.NumbersInv) {frame : FixFrame} {sent : Bool}
    (hwritten : c'.written = c.written ++ [⟨c.session + 1, frame, sent⟩]) :
    c'.sessionFrames (c.session + 1) = [frame] := by
  rw [sessionFrames_append hwritten, if_pos rfl, sessionFrames_new hI.past, List.nil_append]

lemma NumbersInv.logon {cfg : Config} {c c' : FixClient} {sent : Bool} {sendingTime : String}
    (hI : c.NumbersInv) (hone : c.seqOut = 1)
    (hwritten : c'.written = c.written ++ [⟨c.session + 1, LatencyArb.logon cfg c.seqOut sendingTime, sent⟩])
    (hsession : c'.session = c.session + 1) (hseq : c'.seqOut = c.seqOut) : c'.NumbersInv := by
  have hnew := hI.session_frames hwritten
  constructor
  · intro session
    by_cases hs : session = c.session + 1
    · rw [hs, hnew]
      exact (sessionNumbered_logon_iff cfg c.seqOut sendingTime).mpr hone
    · rw [sessionFrames_append hwritten, if_neg (Ne.symm hs), List.append_nil]
      exact hI.numbered session
  · intro w hw
    rw [hwritten] at hw
    rw [hsession]
    rcases List.mem_append.mp hw with hold | hlast
    · exact (hI.past w hold).trans (Nat.le_succ _)
    · rw [List.mem_singleton.mp hlast]
  · intro _
    rw [hseq, hsession, hnew]
    exact ⟨hone, _, rfl⟩

/-- A frame after the Logon repeats its number. -/
lemma NumbersInv.not_second {c c' : FixClient} {frame : FixFrame} {sent : Bool} (hI : c.NumbersInv)
    (hfd : c.fdOpen = true) (hframe : frame.value 34 = some (toString c.seqOut))
    (hwritten : c'.written = c.written ++ [⟨c.session, frame, sent⟩]) :
    ¬∀ session, SessionNumbered (c'.sessionFrames session) := by
  intro hnumbered
  obtain ⟨hone, first, hfirst⟩ := hI.alone hfd
  have hframes := hnumbered c.session
  rw [sessionFrames_append hwritten, if_pos rfl, hfirst] at hframes
  rw [hone] at hframe
  exact not_sessionNumbered_second hframe hframes

end FixClient

namespace FixSession

/-- The frames of every session are numbered 1, 2, 3 from its Logon on. -/
def Numbered (s : FixSession) : Prop := ∀ session, SessionNumbered (s.client.sessionFrames session)

/-- The step writes no order and no heartbeat, and a Logon only while no number has been used up. -/
def logonsOnly (s : FixSession) (a : SessionAction) : Bool :=
  match a with
  | .event (.connect sent sendingTime) =>
    !s.client.writes s.nowMs (.connect sent sendingTime) || s.client.seqOut == 1
  | .event event => !s.client.writes s.nowMs event
  | _ => true

variable {cfg : Config} {s t : FixSession} {a : SessionAction}

lemma logonsOnly_of_idle {event : FixEvent} (h : s.client.writes s.nowMs event = false) :
    s.logonsOnly (.event event) = true := by
  cases event <;> simp [logonsOnly, h]

lemma event_numbers {event : FixEvent} {client : FixClient} (hI : s.client.NumbersInv)
    (hstep : FixClient.Moves cfg s.nowMs s.client event client)
    (hC : s.logonsOnly (.event event) = true) : client.NumbersInv := by
  cases hstep.writeStep with
  | quiet idle written session fd => exact hI.quiet written session fd
  | logon sent sendingTime phase happens written session seqOut =>
    subst happens
    have hone : s.client.seqOut = 1 := by simpa [logonsOnly, FixClient.writes, phase] using hC
    exact hI.logon hone written session seqOut
  | order order rest sent sendingTime phase happens fd written session seqOut =>
    subst happens
    simp [logonsOnly, FixClient.writes, phase, fd] at hC
  | heartbeat sent sendingTime phase happens fd due written session seqOut =>
    subst happens
    simp [logonsOnly, FixClient.writes, phase, fd, due] at hC

lemma event_logonsOnly {event : FixEvent} {client : FixClient} (hI : s.client.NumbersInv)
    (hstep : FixClient.Moves cfg s.nowMs s.client event client)
    (hnumbered : ∀ session, SessionNumbered (client.sessionFrames session)) :
    s.logonsOnly (.event event) = true := by
  cases hstep.writeStep with
  | quiet idle written session fd => exact logonsOnly_of_idle idle
  | logon sent sendingTime phase happens written session seqOut =>
    subst happens
    have hfirst := hnumbered (s.client.session + 1)
    rw [hI.session_frames written, sessionNumbered_logon_iff] at hfirst
    simp [logonsOnly, hfirst]
  | order order rest sent sendingTime phase happens fd written session seqOut =>
    exact absurd hnumbered (hI.not_second fd (newOrderSingle_seq ..) written)
  | heartbeat sent sendingTime phase happens fd due written session seqOut =>
    exact absurd hnumbered (hI.not_second fd (heartbeat_seq ..) written)

lemma step_numbers (hI : s.client.NumbersInv) (hs : s.step cfg a = some t)
    (hC : s.logonsOnly a = true) : t.client.NumbersInv := by
  cases step_moves hs with
  | started => exact hI
  | start phase => exact hI.quiet rfl rfl (fun h => ⟨h, rfl⟩)
  | order order => exact hI.quiet rfl rfl (fun h => ⟨h, rfl⟩)
  | wait ms => exact hI
  | data fd => exact hI
  | event event client step => exact event_numbers hI step hC
  | stop => exact hI.quiet rfl rfl (by simp [FixClient.stop])

theorem step_numbered_iff (hI : s.client.NumbersInv) (hs : s.step cfg a = some t) :
    t.Numbered ↔ s.logonsOnly a = true := by
  constructor
  · intro hnumbered
    cases step_moves hs with
    | event event client step => exact event_logonsOnly hI step hnumbered
    | _ => rfl
  · intro hC
    exact (step_numbers hI hs hC).numbered

/-- In a run every session is numbered 1, 2, 3 exactly when no order and no heartbeat is handed to a
socket and every session starts before the counter has moved. -/
theorem sessions_numbered_iff (cfg : Config) (run : List SessionAction) :
    (machine cfg).Always run (fun _ _ t => t.Numbered) ↔
      (machine cfg).Always run (fun s a _ => s.logonsOnly a = true) := by
  apply (machine cfg).always_iff_along (I := fun s => s.client.NumbersInv)
  · exact ⟨fun _ => sessionNumbered_nil, by simp [machine], by simp [machine]⟩
  · intro s a t _ hI hs hC
    exact step_numbers hI hs hC
  · intro s a t _ hI hs
    exact step_numbered_iff hI hs

/-- The first order of the first session. -/
def firstOrder : List SessionAction :=
  [.order (sampleSignal .buy), .event .attempt, .event (.connect true ""), .event .swap,
    .event (.send true "")]

/-- It repeats the number of the Logon. -/
theorem first_order_repeats_number :
    ((machine {}).run (machine {}).init firstOrder).map
      (fun s => (s.client.sessionFrames 1).map (fun f => (f.value 35, f.value 34))) =
        some [(some "A", some "1"), (some "D", some "1")] ∧
    ¬(machine {}).Always firstOrder (fun _ _ t => t.Numbered) := by
  refine ⟨by decide +kernel, ?_⟩
  intro hnumbered
  have hframes : ((machine {}).run (machine {}).init firstOrder).map
      (fun s => (s.client.sessionFrames 1)[1]?.map (fun f => f.value 34)) =
        some (some (some "1")) := by decide +kernel
  obtain ⟨t, ht, hnumber⟩ := Option.map_eq_some_iff.mp hframes
  obtain ⟨f, hf, hone⟩ := Option.map_eq_some_iff.mp hnumber
  obtain ⟨s, hs, hlast⟩ := (machine {}).run_concat_eq_some.mp
    (show (machine {}).run _ (firstOrder.dropLast ++ [SessionAction.event (.send true "")]) = _ from ht)
  have htwo := (hnumbered _ _ s t List.prefix_rfl hs hlast 1).numbers 1 f hf
  rw [hone] at htwo
  revert htwo
  decide

end FixSession

end LatencyArb
