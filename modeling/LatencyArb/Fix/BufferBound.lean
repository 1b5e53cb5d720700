import LatencyArb.Fix.Framing

/-!
# The size of the inbound buffer (`process_inbound`)

The cap on a BodyLength bounds a frame only from its field on. A header that no BodyLength field follows
soon keeps all that comes behind it.
-/

namespace LatencyArb

open LatencyArb.Fix

namespace Fix

/-- What the buffer should hold at most after `process_inbound`. -/
def inboundCap : Nat := kMaxMsgLen + 64

/-- The size of `rbuf_`. -/
def kReadSize : Nat := 65536

/-- The stream from a header on at which the splitter comes to stand. -/
def Stands (stream b : Bytes) : Prop :=
  ∃ c h, splitter.Reaches stream c ∧ findSub header c = some h ∧ c.drop h = b

/-- Behind the header at the start of `b` there is no more than the cap, or its BodyLength field and, where
that is valid, the frame it announces are over by then. -/
def FrameFits (b : Bytes) : Prop :=
  b.length ≤ inboundCap ∨ ∃ p9 n, findSub lengthTag b = some p9 ∧
    findSub [soh] (b.drop (p9 + 2)) = some n ∧ p9 + 2 + n + 1 ≤ inboundCap + 1 ∧
      (validLength ((b.drop (p9 + 2)).take n) = true →
        p9 + 2 + n + 1 + atol ((b.drop (p9 + 2)).take n) + 7 ≤ inboundCap + 1)

/-! ## A frame that does not fit -/

variable {b c : Bytes}

lemma scanFrame_field {p9 n : Nat} (hp : findSub lengthTag b = some p9)
    (hn : findSub [soh] (b.drop (p9 + 2)) = some n) :
    scanFrame b =
      if !validLength ((b.drop (p9 + 2)).take n) then .skip (b.drop 1)
      else if b.length < p9 + 2 + n + 1 + atol ((b.drop (p9 + 2)).take n) + 7 then .wait b
      else .item (b.take (p9 + 2 + n + 1 + atol ((b.drop (p9 + 2)).take n) + 7))
        (b.drop (p9 + 2 + n + 1 + atol ((b.drop (p9 + 2)).take n) + 7)) := by
  simp only [scanFrame, hp, hn]

/-- A field that ends in `c` is found in `c`. -/
lemma field_of_append {later : Bytes} {p9 n : Nat} (hp : findSub lengthTag (c ++ later) = some p9)
    (hn : findSub [soh] ((c ++ later).drop (p9 + 2)) = some n) (hfits : p9 + 2 + n + 1 ≤ c.length) :
    findSub lengthTag c = some p9 ∧ findSub [soh] (c.drop (p9 + 2)) = some n := by
  have hp' : findSub lengthTag c = some p9 := findSub_of_append hp (by show p9 + 2 ≤ _; omega)
  rw [List.drop_append_of_le_length (by omega)] at hn
  exact ⟨hp', findSub_of_append hn (by rw [List.length_drop, List.length_singleton]; omega)⟩

/-- Where the frame fits the splitter does not wait once it has more than the cap. -/
lemma FrameFits.not_wait {later keep : Bytes} (h : FrameFits (c ++ later)) (hlong : inboundCap < c.length) :
    scanFrame c ≠ .wait keep := by
  intro hwait
  rcases h with hshort | ⟨p9, n, hp, hn, hfield, hframe⟩
  · rw [List.length_append] at hshort
    omega
  · obtain ⟨hp', hn'⟩ := field_of_append hp hn (by omega)
    obtain ⟨-, -, htext⟩ := scanFrame_append later hp' hn'
    rw [htext] at hframe
    rw [scanFrame_field hp' hn'] at hwait
    split at hwait
    · cases hwait
    · rename_i hvalid
      have htotal := hframe (by simpa using hvalid)
      rw [if_neg (by omega)] at hwait
      cases hwait

/-- Where it does not, the splitter waits on one byte more than the cap. -/
lemma wait_of_not_frameFits (h : ¬FrameFits b) : inboundCap < b.length ∧
    scanFrame (b.take (inboundCap + 1)) = .wait (b.take (inboundCap + 1)) := by
  have hlong : inboundCap < b.length := not_le.mp (fun hle => h (.inl hle))
  refine ⟨hlong, ?_⟩
  have hlength : (b.take (inboundCap + 1)).length = inboundCap + 1 :=
    List.length_take_of_le (Nat.succ_le_of_lt hlong)
  have hwhole := List.take_append_drop (inboundCap + 1) b
  generalize b.take (inboundCap + 1) = c at *
  match hp : findSub lengthTag c with
  | none => simp only [scanFrame, hp]
  | some p9 =>
    match hn : findSub [soh] (c.drop (p9 + 2)) with
    | none => simp only [scanFrame, hp, hn]
    | some n =>
      obtain ⟨hp', hn', htext⟩ := scanFrame_append (b.drop (inboundCap + 1)) hp hn
      rw [hwhole] at hp' hn' htext
      have hend := (findSub_spec hn).2.1
      rw [List.length_drop, List.length_singleton] at hend
      have hp9 := lengthTag_fits hp
      have hover : ¬(validLength ((c.drop (p9 + 2)).take n) = true →
          p9 + 2 + n + 1 + atol ((c.drop (p9 + 2)).take n) + 7 ≤ inboundCap + 1) := by
        intro hframe
        exact h (.inr ⟨p9, n, hp', hn', by omega, htext ▸ hframe⟩)
      obtain ⟨hvalid, htotal⟩ := Classical.not_imp.mp hover
      rw [scanFrame_field hp hn, if_neg (by simp [hvalid]), if_pos (by omega)]

/-! ## The remainders -/

lemma scan_suffix {rest : Bytes} (h : scan b = .skip rest ∨ ∃ x, scan b = .item x rest) : rest <:+ b := by
  unfold scan at h
  split at h
  · simp at h
  · rename_i i hi
    have hdrop := List.drop_suffix i b
    unfold scanFrame at h
    split at h
    · simp at h
    · split at h
      · simp at h
      · dsimp only at h
        split at h
        · simp only [Scan.skip.injEq, reduceCtorEq, exists_false, or_false] at h
          exact h ▸ (List.drop_suffix 1 _).trans hdrop
        · split at h
          · simp at h
          · simp only [reduceCtorEq, Scan.item.injEq, exists_eq_left', false_or] at h
            exact h ▸ (List.drop_suffix _ _).trans hdrop

/-- What the splitter keeps of a stream: without a header 16 bytes, else the bytes from the header on. -/
lemma kept_cases {keep : Bytes} (h : scan b = .wait keep) :
    (findSub header b = none ∧ keep.length ≤ 16) ∨
      ∃ i, findSub header b = some i ∧ keep = b.drop i ∧ scanFrame keep = .wait keep := by
  match hi : findSub header b with
  | none =>
    left
    simp only [scan, hi, Scan.wait.injEq] at h
    rw [← h, List.length_drop]
    exact ⟨rfl, by omega⟩
  | some i =>
    right
    simp only [scan, hi] at h
    have hkeep := scanFrame_wait h
    exact ⟨i, rfl, hkeep, hkeep ▸ h⟩

/-- Where all frames of the stream fit, what is kept of any part of it is within the cap. -/
lemma kept_le_of_fits {part later : Bytes} (hfits : ∀ b, Stands (part ++ later) b → FrameFits b) :
    (splitter.split part).2.length ≤ inboundCap := by
  obtain ⟨c, hwait, hreach⟩ := Splitter.reaches_wait (S := splitter) part
  generalize (splitter.split part).2 = keep at *
  obtain ⟨-, hshort⟩ | ⟨i, hi, hkeep, hstuck⟩ := kept_cases hwait
  · exact hshort.trans (by decide)
  · by_contra hlong
    have hin := (findSub_spec hi).2.1
    have hstands : Stands (part ++ later) (keep ++ later) := by
      refine ⟨c ++ later, i, hreach later, findSub_append hi later, ?_⟩
      rw [List.drop_append_of_le_length (by omega), hkeep]
    exact (hfits _ hstands).not_wait (not_le.mp hlong) hstuck

/-- A text that starts with a header and waits is kept whole, whatever stands in front of it. -/
lemma length_le_kept {front d keep : Bytes} (h : scan (front ++ d) = .wait keep) (hheader : header <+: d) :
    d.length ≤ keep.length := by
  have hat : header <+: (front ++ d).drop front.length := by
    rw [List.drop_left]
    exact hheader
  obtain ⟨i, hle, hi⟩ := exists_findSub_le hat
  obtain ⟨hnone, -⟩ | ⟨j, hj, hkeep, -⟩ := kept_cases h
  · rw [hi] at hnone
    cases hnone
  · obtain rfl : i = j := Option.some.inj (hi.symm.trans hj)
    rw [hkeep, List.length_drop, List.length_append]
    omega

/-- What the splitter stands before, cut off behind a part that waits. -/
lemma scan_cut {d later : Bytes} {i : Nat} (hi : findSub header c = some i) (hcut : c.drop i = d ++ later)
    (hheader : header.length ≤ d.length) (hstuck : scanFrame d = .wait d) : scan (c.take i ++ d) = .wait d := by
  have hin := (findSub_spec hi).2.1
  have htake : (c.take i).length = i := List.length_take_of_le (by omega)
  have hwhole : c = (c.take i ++ d) ++ later := by
    rw [List.append_assoc, ← hcut, List.take_append_drop]
  have hfind : findSub header (c.take i ++ d) = some i := by
    apply @findSub_of_append _ _ _ _ later
    · rw [← hwhole]
      exact hi
    · rw [List.length_append, htake]
      omega
  simp only [scan, hfind]
  rw [List.drop_left' htake]
  exact hstuck

/-- Where a frame does not fit, more than the cap is kept of a part of the stream. -/
lemma long_kept_of_not_fits {stream : Bytes} (hstands : Stands stream b) (hover : ¬FrameFits b) :
    ∃ part, part <+: stream ∧ inboundCap < (splitter.split part).2.length := by
  obtain ⟨hlong, hstuck⟩ := wait_of_not_frameFits hover
  obtain ⟨c, i, hreach, hi, rfl⟩ := hstands
  obtain ⟨d, hd⟩ : ∃ d, (c.drop i).take (inboundCap + 1) = d := ⟨_, rfl⟩
  obtain ⟨later, hlater⟩ : ∃ later, (c.drop i).drop (inboundCap + 1) = later := ⟨_, rfl⟩
  have hcut : c.drop i = d ++ later := by rw [← hd, ← hlater, List.take_append_drop]
  have hdlen : d.length = inboundCap + 1 := by
    rw [← hd]
    exact List.length_take_of_le (Nat.succ_le_of_lt hlong)
  have hroom : header.length ≤ d.length := by
    rw [hdlen]
    decide
  have hheader : header <+: d :=
    List.prefix_of_prefix_length_le (findSub_spec hi).1 (hcut ▸ List.prefix_append d later) hroom
  rw [hd] at hstuck
  have hwait := scan_cut hi hcut hroom hstuck
  obtain ⟨pre, hpre, hwaits⟩ := hreach.keepsCut (fun h => scan_suffix (.inl h)) (fun h => scan_suffix (.inr ⟨_, h⟩))
  have hfront : c = c.take i ++ d ++ later := by
    rw [List.append_assoc, ← hcut, List.take_append_drop]
  obtain ⟨before, hbefore⟩ := hwaits (c.take i ++ d) later d hfront hwait
  refine ⟨pre ++ (c.take i ++ d), ?_, ?_⟩
  · refine ⟨later, ?_⟩
    rw [hpre, List.append_assoc, ← hfront]
  · rw [← List.append_assoc] at hbefore
    have hkept := length_le_kept hbefore hheader
    omega

/-- The frame that is cut first starts at a header of the buffer. -/
lemma first_frame {x rest : Bytes} (h : splitter.First b x rest) :
    ∃ i, header <+: b.drop i ∧ scanFrame (b.drop i) = .item x rest := by
  induction h with
  | @item b rest x hscan =>
    have hscan : scan b = .item x rest := hscan
    unfold scan at hscan
    split at hscan
    · cases hscan
    · rename_i i hi
      exact ⟨i, (findSub_spec hi).1, hscan⟩
  | @skip b rest tail x hscan next ih =>
    obtain ⟨i, hheader, hitem⟩ := ih
    obtain ⟨front, rfl⟩ := scan_suffix (.inl hscan)
    refine ⟨front.length + i, ?_, ?_⟩
    · rwa [← List.drop_drop, List.drop_left]
    · rwa [← List.drop_drop, List.drop_left]

lemma scanFrame_item_iff {x rest : Bytes} : scanFrame b = .item x rest ↔
    ∃ p9 n, findSub lengthTag b = some p9 ∧ findSub [soh] (b.drop (p9 + 2)) = some n ∧
      validLength ((b.drop (p9 + 2)).take n) = true ∧
      p9 + 2 + n + 1 + atol ((b.drop (p9 + 2)).take n) + 7 ≤ b.length ∧
      x = b.take (p9 + 2 + n + 1 + atol ((b.drop (p9 + 2)).take n) + 7) ∧
      rest = b.drop (p9 + 2 + n + 1 + atol ((b.drop (p9 + 2)).take n) + 7) := by
  constructor
  · intro h
    match hp : findSub lengthTag b with
    | none => simp [scanFrame, hp] at h
    | some p9 =>
      match hn : findSub [soh] (b.drop (p9 + 2)) with
      | none => simp [scanFrame, hp, hn] at h
      | some n =>
        rw [scanFrame_field hp hn] at h
        split at h
        · cases h
        · rename_i hvalid
          split at h
          · cases h
          · rename_i hfull
            cases h
            exact ⟨p9, n, rfl, hn, by simpa using hvalid, not_lt.mp hfull, rfl, rfl⟩
  · rintro ⟨p9, n, hp, hn, hvalid, hfull, rfl, rfl⟩
    rw [scanFrame_field hp hn, if_neg (by simp [hvalid]), if_neg (not_lt.mpr hfull)]

/-- A frame that lies in a buffer with a header is no longer waited for. -/
lemma valid_of_wait {i : Nat} {x rest : Bytes} (hwait : scanFrame b = .wait b)
    (hitem : scanFrame (b.drop i) = .item x rest) :
    ∃ p9 n, findSub lengthTag b = some p9 ∧ findSub [soh] (b.drop (p9 + 2)) = some n ∧
      validLength ((b.drop (p9 + 2)).take n) = true ∧
      b.length < p9 + 2 + n + 1 + atol ((b.drop (p9 + 2)).take n) + 7 := by
  obtain ⟨q, m, hq, hm, -⟩ := scanFrame_item_iff.mp hitem
  have htag : lengthTag <+: b.drop (i + q) := by
    rw [← List.drop_drop]
    exact (findSub_spec hq).1
  obtain ⟨p9, hfirst, hp⟩ := exists_findSub_le htag
  have hend : [soh] <+: (b.drop (p9 + 2)).drop (i + q - p9 + m) := by
    have hat : (b.drop (p9 + 2)).drop (i + q - p9 + m) = ((b.drop i).drop (q + 2)).drop m := by
      rw [List.drop_drop, List.drop_drop, List.drop_drop]
      congr 1
      omega
    rw [hat]
    exact (findSub_spec hm).1
  obtain ⟨n, -, hn⟩ := exists_findSub_le hend
  rw [scanFrame_field hp hn] at hwait
  split at hwait
  · cases hwait
  · rename_i hvalid
    split at hwait
    · rename_i hshort
      exact ⟨p9, n, hp, hn, by simpa using hvalid, hshort⟩
    · cases hwait

/-- The first frame that is cut from what is left of the last call and a read ends in the read. -/
lemma first_rest_le {old read x rest : Bytes} (hold : scan old = .wait old)
    (h : splitter.First (old ++ read) x rest) : rest.length ≤ read.length := by
  by_contra hlong
  obtain ⟨i, hheader, hitem⟩ := first_frame h
  obtain ⟨q, m, hq, hm, hvalid, hfull, -, hrest⟩ := scanFrame_item_iff.mp hitem
  rw [hrest, List.length_drop] at hlong
  rw [List.length_drop, List.length_append] at hlong hfull
  -- the frame would end in what is left of the last call, which then does not wait for another
  have hdrop : (old ++ read).drop i = old.drop i ++ read := List.drop_append_of_le_length (by omega)
  rw [hdrop] at hq hm hvalid hfull hlong hheader
  obtain ⟨hq', hm'⟩ := field_of_append hq hm (by rw [List.length_drop]; omega)
  obtain ⟨-, -, htext⟩ := scanFrame_append read hq' hm'
  rw [htext] at hvalid hfull hlong
  have hin : scanFrame (old.drop i) = .item _ _ :=
    scanFrame_item_iff.mpr ⟨q, m, hq', hm', hvalid, by rw [List.length_drop]; omega, rfl, rfl⟩
  obtain ⟨hnone, -⟩ | ⟨j, hj, hkeep, hstuck⟩ := kept_cases hold
  · apply not_prefix_of_findSub_none hnone i
    exact List.prefix_of_prefix_length_le hheader (List.prefix_append _ _)
      (by rw [header_length, List.length_drop]; omega)
  · obtain ⟨p9, n, hp, hn, hvalid₀, hshort⟩ := valid_of_wait hstuck hin
    obtain ⟨hp', hn', htext₀⟩ := scanFrame_append read hp hn
    have hstart : header <+: old := by
      rw [hkeep]
      exact (findSub_spec hj).1
    have hscan : scan (old ++ read) = scanFrame (old ++ read) :=
      scan_of_header (hstart.trans (List.prefix_append _ _))
    rw [scanFrame_field hp' hn', htext₀, if_neg (by simp [hvalid₀])] at hscan
    cases h with
    | item hscan' =>
      rw [show scan (old ++ read) = .item x rest from hscan'] at hscan
      split at hscan
      · cases hscan
      · rw [Scan.item.injEq] at hscan
        have hlen := congrArg List.length hscan.2
        rw [hrest, List.length_drop, List.length_drop, List.length_drop, List.length_append, hdrop, htext] at hlen
        omega
    | skip hscan' next =>
      rw [show scan (old ++ read) = .skip _ from hscan'] at hscan
      split at hscan <;> cases hscan

end Fix

namespace FixExecutor

variable (cfg : Config) (utc : Nat → String)

/-- The executor after a call of `process_inbound`, while `stop` may come at any time. -/
inductive Returns : FixExecutor → FixExecutor → Prop
  | wait {e : FixExecutor} {keep : Bytes} (scan : scan e.inbound = .wait keep) :
      Returns e { e with inbound := keep }
  | skip {e t : FixExecutor} {rest : Bytes} (scan : scan e.inbound = .skip rest)
      (next : Returns { e with inbound := rest } t) : Returns e t
  | item {e t : FixExecutor} {f rest : Bytes} (scan : scan e.inbound = .item f rest)
      (going : (({ e with inbound := rest } : FixExecutor).handleFrame cfg utc f).halted = false)
      (next : Returns (({ e with inbound := rest } : FixExecutor).handleFrame cfg utc f) t) : Returns e t
  | halted {e : FixExecutor} {f rest : Bytes} (scan : scan e.inbound = .item f rest)
      (halted : (({ e with inbound := rest } : FixExecutor).handleFrame cfg utc f).halted = true) :
      Returns e (({ e with inbound := rest } : FixExecutor).handleFrame cfg utc f)
  | stop {e t : FixExecutor} (next : Returns e.stop t) : Returns e t

/-- The executor after the calls on the reads; a stopped executor does not read again. -/
inductive ReadsReturn : FixExecutor → List Bytes → FixExecutor → Prop
  | last {e t : FixExecutor} {read : Bytes}
      (call : Returns cfg utc { e with inbound := e.inbound ++ read } t) : ReadsReturn e [read] t
  | more {e d t : FixExecutor} {read : Bytes} {reads : List Bytes}
      (call : Returns cfg utc { e with inbound := e.inbound ++ read } d) (going : d.halted = false)
      (next : ReadsReturn d reads t) : ReadsReturn e (read :: reads) t

/-- After every return of `process_inbound` on the stream, however it is cut into reads, the buffer is
within the cap. -/
def BufferBounded (e : FixExecutor) (stream : Bytes) : Prop :=
  ∀ reads t, reads.flatten <+: stream → (∀ read ∈ reads, read.length ≤ kReadSize) →
    ReadsReturn cfg utc e reads t → t.inbound.length ≤ inboundCap

variable {cfg utc} {e t : FixExecutor}

lemma stop_halted (e : FixExecutor) : e.stop.halted = true ∧ e.stop.inbound = e.inbound := by
  unfold stop
  by_cases hs : e.stopped = true
  · rw [if_pos hs]
    exact ⟨by simp [halted, hs], rfl⟩
  · rw [if_neg hs]
    exact ⟨rfl, rfl⟩

lemma Returns.keeps_halted (h : Returns cfg utc e t) (hhalted : e.halted = true) : t.halted = true := by
  induction h with
  | wait scan => exact hhalted
  | skip scan next ih => exact ih hhalted
  | @item e t f rest scan going next ih =>
    rw [(handleFrame_eq cfg utc _ f).halted] at going
    exact absurd (hhalted.symm.trans going) (by simp)
  | halted scan halted => exact halted
  | stop next ih => exact ih (stop_halted _).1

/-- A call that is not stopped splits the buffer. -/
lemma Returns.split (h : Returns cfg utc e t) (hgoing : t.halted = false) :
    t.inbound = (splitter.split e.inbound).2 := by
  induction h with
  | wait scan => rw [Splitter.split_wait (S := splitter) scan]
  | skip scan next ih =>
    rw [Splitter.split_skip (S := splitter) scan]
    exact ih hgoing
  | @item e t f rest scan going next ih =>
    rw [Splitter.split_item (S := splitter) scan, ih hgoing, (handleFrame_eq cfg utc _ f).inbound]
  | halted scan halted => exact absurd (halted.symm.trans hgoing) (by simp)
  | stop next ih => exact absurd ((next.keeps_halted (stop_halted _).1).symm.trans hgoing) (by simp)

/-- What a call leaves is the rest of the split, or comes behind the first frame. -/
lemma Returns.leaves (h : Returns cfg utc e t) : t.inbound = (splitter.split e.inbound).2 ∨
    ∃ x rest, splitter.First e.inbound x rest ∧ t.inbound.length ≤ rest.length := by
  induction h with
  | wait scan =>
    left
    rw [Splitter.split_wait (S := splitter) scan]
  | skip scan next ih =>
    rw [Splitter.split_skip (S := splitter) scan]
    exact ih.imp id (fun ⟨x, rest, hfirst, hle⟩ => ⟨x, rest, .skip scan hfirst, hle⟩)
  | @item e t f rest scan going next ih =>
    rw [(handleFrame_eq cfg utc _ f).inbound] at ih
    rw [Splitter.split_item (S := splitter) scan]
    rcases ih with hsplit | ⟨y, tail, hfirst, hle⟩
    · exact .inl hsplit
    · exact .inr ⟨f, rest, .item scan, hle.trans hfirst.length_le⟩
  | @halted e f rest scan halted =>
    right
    refine ⟨f, rest, .item scan, ?_⟩
    rw [(handleFrame_eq cfg utc _ f).inbound]
  | @stop e t next ih =>
    rw [(stop_halted e).2] at ih
    exact ih

/-- The calls without a `stop` are among them. -/
lemma returns_of_fuel {fuel : Nat} (h : processInboundFuel cfg utc fuel e = some t) : Returns cfg utc e t := by
  induction fuel generalizing e with
  | zero => cases h
  | succ fuel ih =>
    cases hscan : scan e.inbound with
    | wait keep =>
      rw [processInboundFuel_wait hscan, Option.some.injEq] at h
      exact h ▸ .wait hscan
    | skip rest =>
      rw [processInboundFuel_skip hscan] at h
      exact .skip hscan (ih h)
    | item f rest =>
      rw [processInboundFuel_item hscan rfl] at h
      split at h
      · rename_i hhalted
        cases h
        exact .halted hscan hhalted
      · rename_i hgoing
        exact .item hscan (by simpa using hgoing) (ih h)

lemma split_read {part : Bytes} (hkept : e.inbound = (splitter.split part).2) (read : Bytes) :
    (splitter.split (e.inbound ++ read)).2 = (splitter.split (part ++ read)).2 := by
  rw [hkept, splitter.split_append part read]

/-- Without a `stop` the calls keep what the split of the stream keeps. -/
lemma exists_readsReturn {part : Bytes} {reads : List Bytes} (hrunning : e.halted = false)
    (hkept : e.inbound = (splitter.split part).2) (hreads : reads ≠ []) :
    ∃ t, ReadsReturn cfg utc e reads t ∧ t.inbound = (splitter.split (part ++ reads.flatten)).2 := by
  induction reads generalizing e part with
  | nil => exact absurd rfl hreads
  | cons read reads ih =>
    have hfuel := Nat.lt_succ_self (e.inbound ++ read).length
    obtain ⟨d, hd, hgoing, -, hinbound⟩ :=
      @processInboundFuel_split cfg utc { e with inbound := e.inbound ++ read } _ hfuel hrunning
    have hnext : d.inbound = (splitter.split (part ++ read)).2 := hinbound.trans (split_read hkept read)
    by_cases hlast : reads = []
    · subst hlast
      refine ⟨d, .last (returns_of_fuel hd), ?_⟩
      rw [hnext, List.flatten_cons, List.flatten_nil, List.append_nil]
    · obtain ⟨t, ht, hrest⟩ := ih hgoing hnext hlast
      refine ⟨t, .more (returns_of_fuel hd) hgoing ht, ?_⟩
      rw [hrest, List.flatten_cons, List.append_assoc]

/-- Where all frames of the stream fit, a call after any part of it leaves the buffer within the cap. -/
lemma Returns.bounded {part read later : Bytes} (h : Returns cfg utc { e with inbound := e.inbound ++ read } t)
    (hkept : e.inbound = (splitter.split part).2) (hread : read.length ≤ kReadSize)
    (hfits : ∀ b, Stands (part ++ read ++ later) b → FrameFits b) : t.inbound.length ≤ inboundCap := by
  rcases h.leaves with hsplit | ⟨x, rest, hfirst, hle⟩
  · rw [hsplit, split_read hkept read]
    exact kept_le_of_fits hfits
  · have hold : scan e.inbound = .wait e.inbound := by
      rw [hkept]
      exact splitter.scan_kept part
    calc t.inbound.length ≤ rest.length := hle
      _ ≤ read.length := first_rest_le hold hfirst
      _ ≤ kReadSize := hread
      _ ≤ inboundCap := by decide

lemma ReadsReturn.bounded {part later : Bytes} {reads : List Bytes} (h : ReadsReturn cfg utc e reads t)
    (hkept : e.inbound = (splitter.split part).2) (hreads : ∀ read ∈ reads, read.length ≤ kReadSize)
    (hfits : ∀ b, Stands (part ++ reads.flatten ++ later) b → FrameFits b) :
    t.inbound.length ≤ inboundCap := by
  induction h generalizing part with
  | @last e t read call =>
    rw [List.flatten_cons, List.flatten_nil, List.append_nil] at hfits
    exact call.bounded hkept (hreads read (List.mem_singleton_self read)) hfits
  | @more e d t read reads call going next ih =>
    rw [List.flatten_cons, ← List.append_assoc] at hfits
    apply ih ((call.split going).trans (split_read hkept read)) _ hfits
    intro r hr
    exact hreads r (List.mem_cons_of_mem read hr)

/-- A stream with a frame that does not fit is cut, byte by byte, so that more than the cap is kept. -/
lemma not_bounded_of_not_fits {stream b : Bytes} (hrunning : e.halted = false) (hempty : e.inbound = [])
    (hstands : Stands stream b) (hover : ¬FrameFits b) : ¬BufferBounded cfg utc e stream := by
  intro hbounded
  obtain ⟨part, hpart, hlong⟩ := long_kept_of_not_fits hstands hover
  have hkept : e.inbound = (splitter.split []).2 := hempty
  have hflat : (part.map (fun c => [c])).flatten = part := by
    rw [← List.flatMap_def, List.flatMap_singleton']
  have hreads : part.map (fun c => [c]) ≠ [] := by
    intro hnil
    rw [List.map_eq_nil_iff.mp hnil] at hlong
    revert hlong
    decide
  obtain ⟨t, ht, hinbound⟩ := @exists_readsReturn cfg utc e [] _ hrunning hkept hreads
  rw [List.nil_append, hflat] at hinbound
  refine absurd (hbounded _ t (by rw [hflat]; exact hpart) ?_ ht) (not_le.mpr (hinbound ▸ hlong))
  intro read hread
  obtain ⟨c, -, rfl⟩ := List.mem_map.mp hread
  show 1 ≤ kReadSize
  decide

/-- The buffer stays within the cap, for every cut of the stream, exactly when every frame at whose header
the splitter comes to stand fits: its BodyLength field and the frame it announces are over within the cap,
or the stream is. -/
theorem buffer_bounded_iff (cfg : Config) (utc : Nat → String) (e : FixExecutor) (hrunning : e.halted = false)
    (hempty : e.inbound = []) (stream : Bytes) :
    BufferBounded cfg utc e stream ↔ ∀ b, Stands stream b → FrameFits b := by
  constructor
  · intro hbounded b hstands
    by_contra hover
    exact not_bounded_of_not_fits hrunning hempty hstands hover hbounded
  · intro hfits reads t hprefix hreads hreturn
    obtain ⟨later, rfl⟩ := hprefix
    exact @ReadsReturn.bounded cfg utc e t [] later reads hreturn hempty hreads hfits

/-- A frame of the peer. -/
theorem buffer_bounded_frame :
    BufferBounded {} (fun _ => "") { running := true } (peerFrame 'A' 1) ↔
      ∀ b, Stands (peerFrame 'A' 1) b → FrameFits b :=
  buffer_bounded_iff {} (fun _ => "") { running := true } rfl rfl (peerFrame 'A' 1)

/-- A header and so many bytes `x`. -/
def headerAlone (n : Nat) : Bytes := header ++ List.replicate n 120

/-- A mebibyte without a BodyLength field is kept. -/
theorem header_alone_grows :
    ¬BufferBounded {} (fun _ => "") { running := true } (headerAlone (2 ^ 20 + 64)) := by
  have hstart : header <+: headerAlone (2 ^ 20 + 64) := List.prefix_append _ _
  have hstands : Stands (headerAlone (2 ^ 20 + 64)) (headerAlone (2 ^ 20 + 64)) :=
    ⟨_, 0, .here _, findSub_start hstart, rfl⟩
  apply not_bounded_of_not_fits rfl rfl hstands
  rintro (hshort | ⟨p9, n, hp, -⟩)
  · rw [headerAlone, List.length_append, List.length_replicate, header_length] at hshort
    exact absurd hshort (by decide)
  · have hnine : 57 ∈ headerAlone (2 ^ 20 + 64) :=
      List.mem_of_mem_drop ((findSub_spec hp).1.subset (by decide : (57 : UInt8) ∈ lengthTag))
    rcases List.mem_append.mp hnine with hheader | hx
    · revert hheader
      decide
    · exact absurd (List.eq_of_mem_replicate hx) (by decide)

end FixExecutor

end LatencyArb
