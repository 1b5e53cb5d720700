import LatencyArb.Fix.Receiving

/-!
# Reads and frames (`on_read`, `process_inbound`)

A call of `process_inbound` runs the rounds of its loop; the loop has no counter, so a call that runs out
of fuel has no result. Its calls on the reads of a stream hand over the frames of the stream.
-/

namespace LatencyArb

open LatencyArb.Fix

namespace FixExecutor

variable (cfg : Config) (utc : Nat → String)

def processInboundFuel : Nat → FixExecutor → Option FixExecutor
  | 0, _ => none
  | fuel + 1, e =>
    match scan e.inbound with
    | .wait keep => some { e with inbound := keep }
    | .skip rest => processInboundFuel fuel { e with inbound := rest }
    | .item f rest =>
      let e := ({ e with inbound := rest } : FixExecutor).handleFrame cfg utc f
      if e.halted then some e else processInboundFuel fuel e

def processInbound (e : FixExecutor) : Option FixExecutor :=
  processInboundFuel cfg utc (e.inbound.length + 1) e

/-- `process_inbound` after each read of the stream. -/
def onReads (e : FixExecutor) (reads : List Bytes) : Option FixExecutor :=
  reads.foldlM (fun e bytes => ({ e with inbound := e.inbound ++ bytes } : FixExecutor).processInbound
    cfg utc) e

variable {cfg utc} {e : FixExecutor}

lemma processInboundFuel_wait {keep : Bytes} (h : scan e.inbound = .wait keep) (fuel : Nat) :
    processInboundFuel cfg utc (fuel + 1) e = some { e with inbound := keep } := by
  simp only [processInboundFuel, h]

lemma processInboundFuel_skip {rest : Bytes} (h : scan e.inbound = .skip rest) (fuel : Nat) :
    processInboundFuel cfg utc (fuel + 1) e = processInboundFuel cfg utc fuel { e with inbound := rest } := by
  simp only [processInboundFuel, h]

lemma processInboundFuel_item {f rest : Bytes} (h : scan e.inbound = .item f rest) {d : FixExecutor}
    (hd : d = ({ e with inbound := rest } : FixExecutor).handleFrame cfg utc f) (fuel : Nat) :
    processInboundFuel cfg utc (fuel + 1) e =
      if d.halted then some d else processInboundFuel cfg utc fuel d := by
  simp only [processInboundFuel, h, hd]

variable (cfg utc) in
/-- Fuel for one round more than there are bytes is enough. -/
lemma processInboundFuel_enough {e : FixExecutor} {fuel : Nat} (h : e.inbound.length < fuel) :
    ∃ t, ∀ more, fuel ≤ more → processInboundFuel cfg utc more e = some t := by
  induction fuel generalizing e with
  | zero => omega
  | succ fuel ih =>
    have hsucc : ∀ {t : FixExecutor}, (∀ more, fuel ≤ more → processInboundFuel cfg utc (more + 1) e = some t) →
        ∀ more, fuel + 1 ≤ more → processInboundFuel cfg utc more e = some t := by
      intro t ht more hle
      obtain ⟨more, rfl⟩ := Nat.exists_eq_add_one_of_ne_zero (by omega : more ≠ 0)
      exact ht more (by omega)
    match hscan : scan e.inbound with
    | .wait keep => exact ⟨_, hsucc fun more _ => processInboundFuel_wait hscan more⟩
    | .skip rest =>
      have hlt : rest.length < e.inbound.length := splitter.skip_lt hscan
      have hrest : ({ e with inbound := rest } : FixExecutor).inbound.length < fuel := by
        show rest.length < fuel
        omega
      obtain ⟨t, ht⟩ := ih hrest
      refine ⟨t, hsucc ?_⟩
      intro more hle
      rw [processInboundFuel_skip hscan]
      exact ht more hle
    | .item f rest =>
      have hlt : rest.length < e.inbound.length := splitter.item_lt hscan
      have hframe := (({ e with inbound := rest } : FixExecutor).handleFrame_eq cfg utc f).inbound
      generalize hd : ({ e with inbound := rest } : FixExecutor).handleFrame cfg utc f = d at hframe
      have hround := processInboundFuel_item hscan hd.symm
      by_cases hhalted : d.halted = true
      · refine ⟨d, hsucc ?_⟩
        intro more _
        rw [hround, if_pos hhalted]
      · have hrest : d.inbound.length < fuel := by
          rw [hframe]
          show rest.length < fuel
          omega
        obtain ⟨t, ht⟩ := ih hrest
        refine ⟨t, hsucc ?_⟩
        intro more hle
        rw [hround, if_neg hhalted]
        exact ht more hle

/-- While the executor runs, a call hands over the frames of its buffer. -/
lemma processInboundFuel_split {fuel : Nat} (h : e.inbound.length < fuel) (hrunning : e.halted = false) :
    ∃ t, processInboundFuel cfg utc fuel e = some t ∧ t.halted = false ∧
      t.handled = e.handled ++ (splitter.split e.inbound).1 ∧ t.inbound = (splitter.split e.inbound).2 := by
  induction fuel generalizing e with
  | zero => omega
  | succ fuel ih =>
    match hscan : scan e.inbound with
    | .wait keep =>
      refine ⟨_, processInboundFuel_wait hscan fuel, hrunning, ?_, ?_⟩
      · rw [Splitter.split_wait (S := splitter) hscan, List.append_nil]
      · rw [Splitter.split_wait (S := splitter) hscan]
    | .skip rest =>
      have hlt : rest.length < e.inbound.length := splitter.skip_lt hscan
      rw [processInboundFuel_skip hscan, Splitter.split_skip (S := splitter) hscan]
      apply @ih { e with inbound := rest }
      · show rest.length < fuel
        omega
      · exact hrunning
    | .item f rest =>
      have hlt : rest.length < e.inbound.length := splitter.item_lt hscan
      have hframe := ({ e with inbound := rest } : FixExecutor).handleFrame_eq cfg utc f
      generalize hd : ({ e with inbound := rest } : FixExecutor).handleFrame cfg utc f = d at hframe
      have hd_halted : d.halted = false := hframe.halted.trans hrunning
      have hd_inbound : d.inbound = rest := hframe.inbound
      have hd_handled : d.handled = e.handled ++ [f] := hframe.handled
      obtain ⟨t, ht, hhalted, hhandled, hinbound⟩ := @ih d (by rw [hd_inbound]; omega) hd_halted
      refine ⟨t, ?_, hhalted, ?_, ?_⟩
      · rw [processInboundFuel_item hscan hd.symm, hd_halted]
        exact ht
      · rw [hhandled, hd_handled, hd_inbound, Splitter.split_item (S := splitter) hscan]
        simp
      · rw [hinbound, hd_inbound, Splitter.split_item (S := splitter) hscan]

/-- The rounds of the machine are those of a call. -/
theorem processInbound_run {fuel : Nat} {t : FixExecutor} (hstage : e.stage = .parsing)
    (h : processInboundFuel cfg utc fuel e = some t) :
    ∃ rounds ≤ fuel, (machine cfg utc).run e (List.replicate rounds .parse) = some t.readAgain := by
  have hstep : ∀ {d : FixExecutor}, d.stage = .parsing →
      (machine cfg utc).step d .parse = some (d.parse cfg utc) := by
    intro d hd
    show d.step cfg utc .parse = _
    simp only [step, hd]
  induction fuel generalizing e with
  | zero => cases h
  | succ fuel ih =>
    have hone : ∀ {d : FixExecutor}, e.parse cfg utc = d →
        (machine cfg utc).run e (List.replicate 1 .parse) = some d := by
      intro d hd
      rw [List.replicate_one, Machine.run_cons, hstep hstage, hd]
      rfl
    have hmore : ∀ {d : FixExecutor}, e.parse cfg utc = d → d.stage = .parsing →
        processInboundFuel cfg utc fuel d = some t →
        ∃ rounds ≤ fuel + 1, (machine cfg utc).run e (List.replicate rounds .parse) = some t.readAgain := by
      intro d hd hparsing ht
      obtain ⟨rounds, hle, hrun⟩ := ih hparsing ht
      refine ⟨rounds + 1, by omega, ?_⟩
      rw [List.replicate_succ, Machine.run_cons, hstep hstage, hd]
      exact hrun
    cases hscan : scan e.inbound with
    | wait keep =>
      rw [processInboundFuel_wait hscan, Option.some.injEq] at h
      rw [← h]
      exact ⟨1, by omega, hone (parse_wait hscan)⟩
    | skip rest =>
      rw [processInboundFuel_skip hscan] at h
      exact hmore (parse_skip hscan) hstage h
    | item f rest =>
      have hframe := ({ e with inbound := rest } : FixExecutor).handleFrame_eq cfg utc f
      have hparse : e.parse cfg utc = _ := parse_item hscan
      generalize hd : ({ e with inbound := rest } : FixExecutor).handleFrame cfg utc f = d at hframe hparse
      rw [processInboundFuel_item hscan hd.symm] at h
      by_cases hhalted : d.halted = true
      · rw [if_pos hhalted, Option.some.injEq] at h
        rw [if_pos hhalted] at hparse
        rw [← h]
        exact ⟨1, by omega, hone hparse⟩
      · rw [if_neg hhalted] at h hparse
        exact hmore hparse (hframe.stage.trans hstage) h

variable (cfg utc) in
/-- The calls on the reads feed the splitter. -/
lemma onReads_feed {e : FixExecutor} (hrunning : e.halted = false) (reads : List Bytes) :
    ∃ t, e.onReads cfg utc reads = some t ∧ t.halted = false ∧
      (t.handled, t.inbound) = reads.foldl splitter.feed (e.handled, e.inbound) := by
  induction reads generalizing e with
  | nil => exact ⟨e, rfl, hrunning, rfl⟩
  | cons read reads ih =>
    have hfuel := Nat.lt_succ_self (e.inbound ++ read).length
    obtain ⟨d, hd, hhalted, hhandled, hinbound⟩ :=
      @processInboundFuel_split cfg utc { e with inbound := e.inbound ++ read } _ hfuel hrunning
    obtain ⟨t, ht, hrest, hfed⟩ := ih hhalted
    refine ⟨t, ?_, hrest, ?_⟩
    · show (processInbound cfg utc { e with inbound := e.inbound ++ read }).bind _ = _
      unfold processInbound
      rw [hd]
      exact ht
    · rw [hfed, List.foldl_cons, Splitter.feed, hhandled, hinbound]

/-- Every call of `process_inbound` returns. From a buffer that a call has left, the frames that the calls
on a stream hand over do not depend on how the stream is cut into reads: they are those of the whole stream. -/
theorem frames_independent_of_reads (cfg : Config) (utc : Nat → String) (e : FixExecutor)
    (hrunning : e.halted = false) (hwaiting : scan e.inbound = .wait e.inbound) :
    (∀ d : FixExecutor, ∃ t, ∀ fuel, d.inbound.length < fuel → processInboundFuel cfg utc fuel d = some t) ∧
    ∀ reads reads' : List Bytes, reads.flatten = reads'.flatten →
      ∃ t t', e.onReads cfg utc reads = some t ∧ e.onReads cfg utc reads' = some t' ∧
        t.handled = t'.handled ∧ t.handled = e.handled ++ frames (e.inbound ++ reads.flatten) := by
  constructor
  · intro d
    obtain ⟨t, ht⟩ := processInboundFuel_enough cfg utc (Nat.lt_succ_self d.inbound.length)
    exact ⟨t, fun fuel hlt => ht fuel hlt⟩
  · intro reads reads' hsame
    obtain ⟨t, ht, -, hfed⟩ := onReads_feed cfg utc hrunning reads
    obtain ⟨t', ht', -, hfed'⟩ := onReads_feed cfg utc hrunning reads'
    have hsettled := Splitter.split_wait (S := splitter) hwaiting
    refine ⟨t, t', ht, ht', ?_, ?_⟩
    · rw [splitter.foldl_feed hsettled] at hfed hfed'
      rw [(Prod.mk.inj hfed).1, (Prod.mk.inj hfed').1, hsame]
    · rw [splitter.foldl_feed hsettled] at hfed
      exact (Prod.mk.inj hfed).1

/-- A frame cut in the middle of its header. -/
theorem cut_frame_handled :
    ∃ t t', onReads {} (fun _ => "") { running := true } [(peerFrame 'A' 1).take 5, (peerFrame 'A' 1).drop 5] =
        some t ∧
      onReads {} (fun _ => "") { running := true } [peerFrame 'A' 1] = some t' ∧
        t.handled = t'.handled ∧ t.handled = [peerFrame 'A' 1] := by
  have hwaiting : scan [] = .wait [] := rfl
  have hreads := (frames_independent_of_reads {} (fun _ => "") { running := true } rfl hwaiting).2
  have hcut : [(peerFrame 'A' 1).take 5, (peerFrame 'A' 1).drop 5].flatten = peerFrame 'A' 1 := by simp
  obtain ⟨t, t', ht, ht', hsame, hall⟩ := hreads [(peerFrame 'A' 1).take 5, (peerFrame 'A' 1).drop 5]
    [peerFrame 'A' 1] (by simp)
  refine ⟨t, t', ht, ht', hsame, ?_⟩
  rw [hall, hcut]
  decide +kernel

end FixExecutor

end LatencyArb
