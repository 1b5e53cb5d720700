import LatencyArb.Fix.Receiving

/-!
# What a FIX session keeps of the ones before it

A session that starts with a buffer that makes no difference, and without a last inbound number, handles
the frames of the bytes it hears and asks for their gaps. The executor clears neither at a reconnect.
-/

namespace LatencyArb

open LatencyArb.Fix

namespace FixExecutor

/-- The bytes read on the streams before that no handler has taken yet. -/
def lateBytes (e : FixExecutor) : Bytes := e.dataReads.flatMap Prod.snd

/-- What was received before makes no difference. -/
def clean (e : FixExecutor) : Bool := !live (e.inbound ++ e.lateBytes) && e.seqIn == 0

/-- `before` is what the session found, `last` the inbound number it found. Reads of the streams before
come before its own. -/
structure Hears (before : Bytes) (last : Nat) (e : FixExecutor) : Prop where
  cut : ∃ late fresh, e.dataReads = late ++ fresh ∧ (∀ r ∈ late, r.1 ≠ e.session) ∧
    (∀ r ∈ fresh, r.1 = e.session) ∧ (late ≠ [] → e.heard = []) ∧
    ∀ later, frames (before ++ e.heard ++ later) =
      e.handled ++ frames (e.inbound ++ late.flatMap Prod.snd ++ later)
  seqIn : e.seqIn = e.handled.foldl seqAfter last
  resends : e.resends = resendsFor last e.handled
  settled : e.stage ≠ .parsing → frames e.inbound = []

variable {cfg : Config} {utc : Nat → String} {e e' : FixExecutor} {before : Bytes} {last : Nat}

lemma Hears.quiet (h : Hears before last e) (same : Quiet e e') : Hears before last e' := by
  constructor
  · rw [same.reads, same.session, same.heard, same.handled, same.inbound]
    exact h.cut
  · rw [same.seqIn, same.handled]
    exact h.seqIn
  · rw [same.resends, same.handled]
    exact h.resends
  · intro hstage
    rw [same.inbound]
    exact h.settled (fun hp => hstage (same.parsing.mpr hp))

lemma Hears.received (h : Hears before last e) (bytes : Bytes) :
    Hears before last
      (({ e with reads := e.reads - 1 } : FixExecutor).post (.read (.data e.session bytes))) := by
  obtain ⟨late, fresh, hreads, hlate, hfresh, hempty, hcut⟩ := h.cut
  refine ⟨⟨late, fresh ++ [(e.session, bytes)], ?_, hlate, ?_, hempty, hcut⟩, h.seqIn, h.resends, h.settled⟩
  · show readsOf (e.handlers ++ [.read (.data e.session bytes)]) = _
    rw [readsOf_append, show readsOf e.handlers = late ++ fresh from hreads, List.append_assoc]
    rfl
  · intro r hr
    rcases List.mem_append.mp hr with hold | hnew
    · exact hfresh r hold
    · rw [List.mem_singleton.mp hnew]
      rfl

lemma Hears.read (h : Hears before last e) {stream : Nat} {bytes : Bytes} {rest : List Handler}
    (hnext : e.handlers = .read (.data stream bytes) :: rest) :
    Hears before last ((e.dequeue rest).onRead (.data stream bytes)) := by
  obtain ⟨late, fresh, hreads, hlate, hfresh, hempty, hcut⟩ := h.cut
  have htail : late ++ fresh = (stream, bytes) :: (e.dequeue rest).dataReads := by
    rw [← hreads, dataReads_dequeue hnext]
    rfl
  refine ⟨?_, h.seqIn, h.resends, fun hstage => absurd rfl hstage⟩
  cases late with
  | nil =>
    -- a read of the session
    rw [List.nil_append] at htail
    have hstream : stream = e.session := by
      apply hfresh (stream, bytes)
      rw [htail]
      exact List.mem_cons_self
    refine ⟨[], (e.dequeue rest).dataReads, rfl, by simp, ?_, by simp, ?_⟩
    · intro r hr
      apply hfresh r
      rw [htail]
      exact List.mem_cons_of_mem _ hr
    · intro later
      have hmore := hcut (bytes ++ later)
      show frames (before ++ (if stream = e.session then e.heard ++ bytes else e.heard) ++ later) =
        e.handled ++ frames (e.inbound ++ bytes ++ [] ++ later)
      rw [if_pos hstream]
      simpa using hmore
  | cons r late =>
    -- a read left over from a stream before
    obtain ⟨rfl, hrest⟩ := List.cons.inj htail
    have hstream : stream ≠ e.session := hlate (stream, bytes) List.mem_cons_self
    have hnothing : e.heard = [] := hempty (by simp)
    refine ⟨late, fresh, hrest.symm, ?_, hfresh, ?_, ?_⟩
    · intro r hr
      exact hlate r (List.mem_cons_of_mem _ hr)
    · intro _
      show (if stream = e.session then e.heard ++ bytes else e.heard) = []
      rw [if_neg hstream]
      exact hnothing
    · intro later
      have hmore := hcut later
      show frames (before ++ (if stream = e.session then e.heard ++ bytes else e.heard) ++ later) =
        e.handled ++ frames (e.inbound ++ bytes ++ late.flatMap Prod.snd ++ later)
      rw [if_neg hstream, hmore]
      simp

/-! ## A round of `process_inbound` -/

lemma readAgain_eq (e : FixExecutor) : SameReceiver { e with stage := .running } e.readAgain := by
  have hsame := sameReceiver_startRead e
  exact ⟨hsame.inbound, hsame.seqIn, hsame.handled, hsame.resends, hsame.heard, hsame.session,
    hsame.reads, hsame.halted, rfl⟩

variable (cfg utc) in
lemma parse_keeps (e : FixExecutor) :
    (e.parse cfg utc).session = e.session ∧ (e.parse cfg utc).dataReads = e.dataReads ∧
      (e.parse cfg utc).halted = e.halted := by
  match hscan : scan e.inbound with
  | .wait keep =>
    rw [parse_wait hscan]
    have hsame := readAgain_eq { e with inbound := keep }
    exact ⟨hsame.session, hsame.reads, hsame.halted⟩
  | .skip rest =>
    rw [parse_skip hscan]
    exact ⟨rfl, rfl, rfl⟩
  | .item f rest =>
    rw [parse_item hscan]
    have hframe := ({ e with inbound := rest } : FixExecutor).handleFrame_eq cfg utc f
    split
    · have hsame := readAgain_eq (({ e with inbound := rest } : FixExecutor).handleFrame cfg utc f)
      exact ⟨hsame.session.trans hframe.session, hsame.reads.trans hframe.reads,
        hsame.halted.trans hframe.halted⟩
    · exact ⟨hframe.session, hframe.reads, hframe.halted⟩

lemma Hears.parse (h : Hears before last e) (hstage : e.stage = .parsing) (hgoing : e.halted = false) :
    Hears before last (e.parse cfg utc) := by
  obtain ⟨late, fresh, hreads, hlate, hfresh, hempty, hcut⟩ := h.cut
  match hscan : scan e.inbound with
  | .wait keep =>
    rw [parse_wait hscan]
    have hsame := readAgain_eq { e with inbound := keep }
    constructor
    · rw [hsame.reads, hsame.session, hsame.heard, hsame.handled, hsame.inbound]
      refine ⟨late, fresh, hreads, hlate, hfresh, hempty, ?_⟩
      intro later
      rw [hcut later, List.append_assoc, List.append_assoc, frames_wait_append hscan]
    · rw [hsame.seqIn, hsame.handled]
      exact h.seqIn
    · rw [hsame.resends, hsame.handled]
      exact h.resends
    · intro _
      rw [hsame.inbound]
      exact frames_kept hscan
  | .skip rest =>
    rw [parse_skip hscan]
    refine ⟨⟨late, fresh, hreads, hlate, hfresh, hempty, ?_⟩, h.seqIn, h.resends, ?_⟩
    · intro later
      rw [hcut later, List.append_assoc, List.append_assoc, frames_skip_append hscan]
    · exact fun hnot => absurd hstage hnot
  | .item f rest =>
    have hframe := ({ e with inbound := rest } : FixExecutor).handleFrame_eq cfg utc f
    rw [parse_item hscan, if_neg (by rw [hframe.halted]; exact Bool.eq_false_iff.mp hgoing)]
    constructor
    · rw [hframe.reads, hframe.session, hframe.heard, hframe.handled, hframe.inbound]
      refine ⟨late, fresh, hreads, hlate, hfresh, hempty, ?_⟩
      intro later
      rw [hcut later, List.append_assoc e.inbound, frames_item_append hscan]
      simp
    · rw [hframe.seqIn, hframe.handled, List.foldl_concat, ← h.seqIn]
    · rw [hframe.resends, hframe.handled]
      show e.resends ++ (noteSeq e.seqIn f).2.toList = resendsFor last (e.handled ++ [f])
      rw [resendsFor_concat, ← h.seqIn, ← h.resends]
    · intro hnot
      exact absurd (hframe.stage.trans hstage) hnot

/-! ## A session -/

variable (cfg utc) in
lemma startSession_eq (e : FixExecutor) :
    SameReceiver { e.opened with stage := .draining } (e.startSession cfg utc) := by
  have hsame : SameReceiver e.opened (e.opened.send utc (buildLogon cfg)) := sameReceiver_send ..
  exact ⟨hsame.inbound, hsame.seqIn, hsame.handled, hsame.resends, hsame.heard, hsame.session,
    hsame.reads, hsame.halted, rfl⟩

lemma reachable_reads (h : (machine cfg utc).Reachable e) : ∀ r ∈ e.dataReads, r.1 ≤ e.session := by
  apply (machine cfg utc).invariant (I := fun e => ∀ r ∈ e.dataReads, r.1 ≤ e.session) _ _ h
  · intro r hr
    cases hr
  · intro e a e' _ hI hs
    cases step_receiveStep hs with
    | quiet same =>
      rw [same.reads, same.session]
      exact hI
    | opened =>
      have hsame := startSession_eq cfg utc e
      rw [hsame.reads, hsame.session]
      intro r hr
      exact (hI r hr).trans (Nat.le_succ _)
    | received bytes =>
      intro r hr
      have hr : r ∈ readsOf (e.handlers ++ [.read (.data e.session bytes)]) := hr
      rw [readsOf_append] at hr
      rcases List.mem_append.mp hr with hold | hnew
      · exact hI r hold
      · rw [List.mem_singleton.mp hnew]
        exact le_rfl
    | read stream bytes rest stage next =>
      intro r hr
      apply hI r
      rw [dataReads_dequeue next]
      exact List.mem_append_right _ hr
    | parse stage =>
      obtain ⟨hsession, hreads, -⟩ := e.parse_keeps cfg utc
      rw [hsession, hreads]
      exact hI

/-- The session that starts after `history` has taken the steps `steps` and runs on: it is neither over
nor stopped, and between two handlers. -/
structure SessionOf (cfg : Config) (utc : Nat → String) (history steps : List Action)
    (s t : FixExecutor) : Prop where
  start : (machine cfg utc).run (machine cfg utc).init (history ++ [Action.connect .up]) = some s
  run : (machine cfg utc).run s steps = some t
  same : t.session = s.session
  running : t.stage = .running
  going : t.halted = false

variable {history steps : List Action} {s t : FixExecutor}

lemma connect_up (hs : e.step cfg utc (.connect .up) = some e') : e' = e.startSession cfg utc := by
  cases step_moves hs with
  | connected stage => rfl
  | connectFailed result threw failed stage => exact absurd rfl failed

lemma SessionOf.start_hears (h : SessionOf cfg utc history steps s t)
    (hfound : frames (s.inbound ++ s.lateBytes) = []) :
    Hears (s.inbound ++ s.lateBytes) s.seqIn s := by
  obtain ⟨e, he, hs⟩ := (machine cfg utc).run_concat_eq_some.mp h.start
  have hpast := reachable_reads ⟨history, he⟩
  obtain rfl := connect_up hs
  have hsame := startSession_eq cfg utc e
  have hheard : (e.startSession cfg utc).heard = [] := hsame.heard
  have hhandled : (e.startSession cfg utc).handled = [] := hsame.handled
  constructor
  · refine ⟨(e.startSession cfg utc).dataReads, [], (List.append_nil _).symm, ?_, by simp, fun _ => hheard, ?_⟩
    · intro r hr
      rw [hsame.reads] at hr
      have hle := hpast r hr
      rw [hsame.session]
      show r.1 ≠ e.session + 1
      omega
    · intro later
      rw [hheard, hhandled, List.append_nil]
      rfl
  · rw [hhandled]
    rfl
  · rw [hhandled]
    exact hsame.resends
  · intro _
    have hprefix := frames_prefix (e.startSession cfg utc).inbound (e.startSession cfg utc).lateBytes
    rw [hfound] at hprefix
    exact List.prefix_nil.mp hprefix

lemma step_hears {k : Nat} {a : Action} (hle : k ≤ e.session)
    (hI : e.session = k → e.serving = true → e.halted = false → Hears before last e)
    (hs : e.step cfg utc a = some e') :
    k ≤ e'.session ∧
      (e'.session = k → e'.serving = true → e'.halted = false → Hears before last e') := by
  cases step_receiveStep hs with
  | quiet same =>
    rw [same.session]
    refine ⟨hle, ?_⟩
    intro hk hserving hgoing
    obtain ⟨hwas, hwent⟩ := same.going hserving hgoing
    exact (hI hk hwas hwent).quiet same
  | opened =>
    have hsession : (e.startSession cfg utc).session = e.session + 1 := (startSession_eq cfg utc e).session
    rw [hsession]
    exact ⟨by omega, fun hk => by omega⟩
  | received bytes => exact ⟨hle, fun hk hserving hgoing => (hI hk hserving hgoing).received bytes⟩
  | read stream bytes rest stage next =>
    refine ⟨hle, ?_⟩
    intro hk _ hgoing
    exact (hI hk (by simp [serving, stage]) hgoing).read next
  | parse stage =>
    obtain ⟨hsession, -, hhalted⟩ := e.parse_keeps cfg utc
    rw [hsession, hhalted]
    refine ⟨hle, ?_⟩
    intro hk _ hgoing
    exact (hI hk (by simp [serving, stage]) hgoing).parse stage hgoing

/-- A session answers what it hears from what it found. -/
theorem SessionOf.answers (h : SessionOf cfg utc history steps s t)
    (hfound : frames (s.inbound ++ s.lateBytes) = []) :
    (t.handled, t.resends) = Fix.answers (s.inbound ++ s.lateBytes) s.seqIn t.heard := by
  have hrun : s.session ≤ t.session ∧ (t.session = s.session → t.serving = true → t.halted = false →
      Hears (s.inbound ++ s.lateBytes) s.seqIn t) := by
    apply (machine cfg utc).run_keeps (I := fun e => s.session ≤ e.session ∧ (e.session = s.session →
      e.serving = true → e.halted = false → Hears (s.inbound ++ s.lateBytes) s.seqIn e)) _ _ h.run
    · intro e a e' hI hs
      exact step_hears hI.1 hI.2 hs
    · exact ⟨le_rfl, fun _ _ _ => h.start_hears hfound⟩
  have hears := hrun.2 h.same (by simp [serving, h.running]) h.going
  obtain ⟨late, fresh, -, -, -, hempty, hcut⟩ := hears.cut
  have hall := hcut []
  rw [List.append_nil, List.append_nil] at hall
  have hhandled : t.handled = frames (s.inbound ++ s.lateBytes ++ t.heard) := by
    cases late with
    | nil =>
      have hsettled := hears.settled (by rw [h.running]; simp)
      rw [List.flatMap_nil, List.append_nil, hsettled, List.append_nil] at hall
      exact hall.symm
    | cons r late =>
      rw [hempty (by simp), List.append_nil, hfound] at hall ⊢
      exact (List.append_eq_nil_iff.mp hall.symm).1
  rw [hears.resends, hhandled]
  rfl

/-- A session that starts clean answers as the first one does. -/
lemma SessionOf.answers_clean (h : SessionOf cfg utc history steps s t) (hclean : s.clean = true) :
    (t.handled, t.resends) = Fix.answers [] 0 t.heard := by
  simp only [clean, Bool.and_eq_true, Bool.not_eq_true', beq_iff_eq] at hclean
  have hfresh := (answers_fresh_iff _ _).mpr hclean
  have hfound : frames (s.inbound ++ s.lateBytes) = [] := by
    have hnone := congrArg Prod.fst (hfresh [])
    simpa [Fix.answers, frames_nil] using hnone
  rw [h.answers hfound, hfresh]

/-- Whatever came before them, two sessions that start clean and hear the same bytes handle the same
frames and ask for the same resends. -/
theorem sessions_isolated {cfg cfg' : Config} {utc utc' : Nat → String}
    {history steps history' steps' : List Action} {s t s' t' : FixExecutor}
    (h : SessionOf cfg utc history steps s t) (h' : SessionOf cfg' utc' history' steps' s' t')
    (hclean : s.clean = true) (hclean' : s'.clean = true) (heard : t.heard = t'.heard) :
    t.handled = t'.handled ∧ t.resends = t'.resends := by
  have hanswers : (t.handled, t.resends) = (t'.handled, t'.resends) := by
    rw [h.answers_clean hclean, h'.answers_clean hclean', heard]
  exact Prod.mk.inj hanswers

/-! ## Sessions that hear -/

/-- Whether the session starts clean, and what it hears and answers. -/
def observe (cfg : Config) (utc : Nat → String) (history steps : List Action) :
    Option (Bool × Bytes × List Bytes × List Nat) :=
  ((machine cfg utc).run (machine cfg utc).init (history ++ [Action.connect .up])).bind (fun s =>
    ((machine cfg utc).run s steps).bind (fun t =>
      if t.session = s.session ∧ t.stage = .running ∧ t.halted = false then
        some (s.clean, t.heard, t.handled, t.resends)
      else none))

lemma sessionOf_of_observe {clean : Bool} {heard : Bytes} {handled : List Bytes} {resends : List Nat}
    (h : observe cfg utc history steps = some (clean, heard, handled, resends)) :
    ∃ s t, SessionOf cfg utc history steps s t ∧ s.clean = clean ∧ t.heard = heard ∧
      t.handled = handled ∧ t.resends = resends := by
  obtain ⟨s, hs, h⟩ := Option.bind_eq_some_iff.mp h
  obtain ⟨t, ht, h⟩ := Option.bind_eq_some_iff.mp h
  split at h
  · rename_i hsession
    simp only [Option.some.injEq, Prod.mk.injEq] at h
    exact ⟨s, t, ⟨hs, ht, hsession.1, hsession.2.1, hsession.2.2⟩, h⟩
  · cases h

/-- The Logon is written and the bytes are read and parsed; `rest` handlers are left from before. -/
def hearing (rest : Nat) (bytes : Bytes) (rounds : Nat) : List Action :=
  [Action.drain, .listen, .arm] ++ List.replicate rest .handle ++
    [Action.wrote true, .handle, .received bytes, .handle] ++ List.replicate rounds .parse

def connecting : List Action := [.start, .loop]

/-- After a session that heard the bytes and broke down. -/
def reconnecting (bytes : Bytes) (rounds : Nat) : List Action :=
  connecting ++ [Action.connect .up] ++ hearing 0 bytes rounds ++ [Action.readFailed, .handle, .leave, .loop]

/-- The answer to the Logon, and a frame whose number leaves a gap. -/
def logonAndGap : Bytes := peerFrame 'A' 1 ++ peerFrame '0' 3

/-- A session after one that ended with a SequenceReset. -/
theorem sessions_isolated_after_reset :
    ∃ s t s' t', SessionOf {} (fun _ => "") connecting (hearing 0 logonAndGap 3) s t ∧
      SessionOf {} (fun _ => "") (reconnecting (peerFrame '4' 9) 2) (hearing 1 logonAndGap 3) s' t' ∧
      t.handled = t'.handled ∧ t.resends = t'.resends := by
  have hfirst : observe {} (fun _ => "") connecting (hearing 0 logonAndGap 3) =
      some (true, logonAndGap, [peerFrame 'A' 1, peerFrame '0' 3], [3]) := by decide +kernel
  have hsecond : observe {} (fun _ => "") (reconnecting (peerFrame '4' 9) 2) (hearing 1 logonAndGap 3) =
      some (true, logonAndGap, [peerFrame 'A' 1, peerFrame '0' 3], [3]) := by decide +kernel
  obtain ⟨s, t, h, hclean, heard, -⟩ := sessionOf_of_observe hfirst
  obtain ⟨s', t', h', hclean', heard', -⟩ := sessionOf_of_observe hsecond
  exact ⟨s, t, s', t', h, h', sessions_isolated h h' hclean hclean' (heard.trans heard'.symm)⟩

/-- A session after one that was cut in the middle of a frame swallows the answer to its Logon; after one
that had come to number 5 it misses the gap. -/
theorem session_depends_on_the_one_before :
    observe {} (fun _ => "") connecting (hearing 0 logonAndGap 3) =
      some (true, logonAndGap, [peerFrame 'A' 1, peerFrame '0' 3], [3]) ∧
    (observe {} (fun _ => "") (reconnecting ((peerFrame '0' 5).take 30) 1)
      (hearing 1 logonAndGap 3)).map (fun r => r.2.2.1.contains (peerFrame 'A' 1)) = some false ∧
    observe {} (fun _ => "") (reconnecting (peerFrame '0' 5) 2) (hearing 1 logonAndGap 3) =
      some (false, logonAndGap, [peerFrame 'A' 1, peerFrame '0' 3], []) ∧
    ¬∀ history steps history' steps' s t s' t', SessionOf {} (fun _ => "") history steps s t →
      SessionOf {} (fun _ => "") history' steps' s' t' → t.heard = t'.heard →
        t.handled = t'.handled ∧ t.resends = t'.resends := by
  have hfirst : observe {} (fun _ => "") connecting (hearing 0 logonAndGap 3) =
      some (true, logonAndGap, [peerFrame 'A' 1, peerFrame '0' 3], [3]) := by decide +kernel
  have hnumbered : observe {} (fun _ => "") (reconnecting (peerFrame '0' 5) 2)
      (hearing 1 logonAndGap 3) =
        some (false, logonAndGap, [peerFrame 'A' 1, peerFrame '0' 3], []) := by decide +kernel
  refine ⟨hfirst, by decide +kernel, hnumbered, ?_⟩
  intro hisolated
  obtain ⟨s, t, h, -, heard, -, hresends⟩ := sessionOf_of_observe hfirst
  obtain ⟨s', t', h', -, heard', -, hresends'⟩ := sessionOf_of_observe hnumbered
  have hsame := (hisolated _ _ _ _ s t s' t' h h' (heard.trans heard'.symm)).2
  rw [hresends, hresends'] at hsame
  cases hsame

end FixExecutor

end LatencyArb
