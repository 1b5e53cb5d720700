import LatencyArb.Fix.OrderBook
import LatencyArb.Fix.Outbound
import LatencyArb.Fix.Receiving

/-!
# Gaps in the inbound numbers and the resend requests

The request for a gap is built when the last inbound number is already the one after the gap.
-/

namespace LatencyArb

namespace Fix

/-- The MsgSeqNum that `handle_frame` takes notice of. -/
def msgSeqNum (f : Bytes) : Option Nat :=
  if isDigits (scanTag f 34) ∧ 0 < atol (scanTag f 34) then some (atol (scanTag f 34)) else none

def msgSeqNums (fs : List Bytes) : List Nat := fs.filterMap msgSeqNum

/-- A number that the frame skips: it comes after all that have been received, of which there are some,
and before that of the frame. -/
def Skipped (pre : List Bytes) (f : Bytes) (n : Nat) : Prop :=
  msgSeqNums pre ≠ [] ∧ (∀ k ∈ msgSeqNums pre, k < n) ∧ ∃ m, msgSeqNum f = some m ∧ n < m

/-- The number of the frame leaves no gap. -/
def InSequence (pre : List Bytes) (f : Bytes) : Prop :=
  msgSeqNums pre = [] ∨ ∀ m, msgSeqNum f = some m → ∃ k ∈ msgSeqNums pre, m ≤ k + 1

lemma noteSeq_fst (seqIn : Nat) (f : Bytes) :
    (noteSeq seqIn f).1 = (msgSeqNum f).elim seqIn (max seqIn) := by
  unfold noteSeq msgSeqNum
  by_cases hnumber : isDigits (scanTag f 34) = true ∧ 0 < atol (scanTag f 34)
  · simp only [if_pos hnumber, Option.elim_some]
    split_ifs <;> simp only <;> omega
  · simp only [if_neg hnumber, Option.elim_none]

/-- A request begins with the number of the frame that leaves the gap. -/
lemma noteSeq_snd (seqIn b : Nat) (f : Bytes) :
    (noteSeq seqIn f).2 = some b ↔ msgSeqNum f = some b ∧ seqIn ≠ 0 ∧ seqIn + 1 < b := by
  unfold noteSeq msgSeqNum
  by_cases hnumber : isDigits (scanTag f 34) = true ∧ 0 < atol (scanTag f 34)
  · simp only [if_pos hnumber, Option.some.injEq]
    split_ifs <;> simp only [Option.some.injEq, false_iff] <;> omega
  · simp only [if_neg hnumber, reduceCtorEq, false_and]

/-- The largest of the numbers received, 0 before the first. -/
structure Largest (numbers : List Nat) (seqIn : Nat) : Prop where
  zero : numbers = [] → seqIn = 0
  bound : ∀ k ∈ numbers, k ≤ seqIn
  mem : numbers ≠ [] → seqIn ∈ numbers

lemma Largest.concat {numbers : List Nat} {seqIn : Nat} (h : Largest numbers seqIn) (m : Nat) :
    Largest (numbers ++ [m]) (max seqIn m) := by
  constructor
  · intro hnil
    simp at hnil
  · intro k hk
    rcases List.mem_append.mp hk with hold | hnew
    · exact (h.bound k hold).trans (le_max_left seqIn m)
    · rw [List.mem_singleton.mp hnew]
      exact le_max_right seqIn m
  · intro _
    rcases max_choice seqIn m with hold | hnew
    · by_cases hnil : numbers = []
      · have hzero := h.zero hnil
        simp [hzero]
      · rw [hold]
        exact List.mem_append_left _ (h.mem hnil)
    · rw [hnew]
      exact List.mem_append_right _ (List.mem_singleton_self m)

lemma Largest.frame {fs : List Bytes} {seqIn : Nat} (h : Largest (msgSeqNums fs) seqIn) (f : Bytes) :
    Largest (msgSeqNums (fs ++ [f])) (noteSeq seqIn f).1 := by
  rw [noteSeq_fst]
  unfold msgSeqNums at h ⊢
  rw [List.filterMap_append, List.filterMap_cons]
  match msgSeqNum f with
  | none => simpa using h
  | some m => exact h.concat m

/-- A frame is in sequence where it skips no number. -/
lemma inSequence_iff {pre : List Bytes} {seqIn : Nat} (h : Largest (msgSeqNums pre) seqIn) (f : Bytes) :
    InSequence pre f ↔ ∀ n, ¬Skipped pre f n := by
  constructor
  · rintro (hnil | hnext) n ⟨hne, hbelow, m, hm, hlt⟩
    · exact hne hnil
    · obtain ⟨k, hk, hle⟩ := hnext m hm
      have hbound := hbelow k hk
      omega
  · intro hnone
    by_cases hnil : msgSeqNums pre = []
    · exact .inl hnil
    · right
      intro m hm
      refine ⟨seqIn, h.mem hnil, ?_⟩
      by_contra hgap
      apply hnone (seqIn + 1)
      refine ⟨hnil, ?_, m, hm, by omega⟩
      intro k hk
      exact Nat.lt_succ_of_le (h.bound k hk)

end Fix

open LatencyArb.Fix

namespace FixExecutor

variable {cfg : Config} {utc : Nat → String} {e : FixExecutor}

variable (cfg utc) in
/-- The messages that `handle_frame` gives to `io_write`. -/
def issues (e : FixExecutor) (f : Bytes) : List Message :=
  ((e.handleFrame cfg utc f).queued.drop e.queued.length).map Outgoing.message

variable (cfg utc) in
/-- A resend request whose range starts at this number is issued. -/
def Requests (e : FixExecutor) (f : Bytes) (beginSeq : Nat) : Prop :=
  ∃ seq time, buildResendRequest cfg beginSeq seq time ∈ e.issues cfg utc f

lemma send_queued (e : FixExecutor) (build : Nat → String → Message) :
    (e.send utc build).queued = e.queued ++ [⟨e.session, build e.seqOut (utc e.stamps), none⟩] := by
  rw [send_eq, (pumpWrite_keeps _).1]
  rfl

lemma noteFrame_queued (e : FixExecutor) (f : Bytes) :
    (e.noteFrame cfg utc f).queued =
      e.queued ++ (noteSeq e.seqIn f).2.toList.map
        (fun b => ⟨e.session, buildResendRequest cfg b e.seqOut (utc e.stamps), none⟩) := by
  unfold noteFrame
  split
  · rename_i seqIn hseq
    simp [hseq]
  · rename_i seqIn beginSeq hseq
    rw [send_queued, hseq]
    rfl

lemma onExecutionReport_queued (e : FixExecutor) (f : Bytes) :
    (e.onExecutionReport f).queued = e.queued := by
  unfold onExecutionReport
  split
  · rfl
  · split
    · rfl
    · split <;> rfl

variable (cfg utc) in
/-- The dispatch answers with Heartbeats only. -/
lemma dispatch_queued (e : FixExecutor) (f : Bytes) :
    ∃ sent, (e.dispatch cfg utc f).queued = e.queued ++ sent ∧
      ∀ out ∈ sent, out.message.value 35 = some (ascii "0") := by
  unfold dispatch
  split
  · exact ⟨[], by rw [onExecutionReport_queued, List.append_nil], by simp⟩
  · split
    · refine ⟨_, send_queued e _, ?_⟩
      intro out hout
      rw [List.mem_singleton.mp hout]
      exact buildMsg_type cfg '0' _ _ _
    · refine ⟨[], ?_, by simp⟩
      rw [List.append_nil]
      split <;> rfl

lemma buildResendRequest_inj {b b' seq seq' : Nat} {time time' : String}
    (h : buildResendRequest cfg b seq time = buildResendRequest cfg b' seq' time') : b = b' := by
  have hvalue : ∀ b seq time, (buildResendRequest cfg b seq time).value 7 = some (ascii (toString b)) :=
    fun _ _ _ => rfl
  have hsame := (hvalue b seq time).symm.trans ((congrArg (fun m => m.value 7) h).trans (hvalue b' seq' time'))
  exact Nat.repr_injective (ascii_inj.mp (Option.some.inj hsame))

/-- The request for a gap begins with the number after it. -/
lemma requests_iff (e : FixExecutor) (f : Bytes) (b : Nat) :
    e.Requests cfg utc f b ↔ (noteSeq e.seqIn f).2 = some b := by
  obtain ⟨sent, hsent, hheartbeats⟩ := dispatch_queued cfg utc
    (({ e with lastRecvMs := e.nowMs, handled := e.handled ++ [f] } : FixExecutor).noteFrame cfg utc f) f
  have hissues : e.issues cfg utc f =
      (noteSeq e.seqIn f).2.toList.map (fun b => buildResendRequest cfg b e.seqOut (utc e.stamps)) ++
        sent.map Outgoing.message := by
    unfold issues handleFrame
    rw [hsent, noteFrame_queued, List.append_assoc, List.drop_left, List.map_append, List.map_map]
    rfl
  unfold Requests
  rw [hissues]
  constructor
  · rintro ⟨seq, time, hmem⟩
    rcases List.mem_append.mp hmem with hnoted | hother
    · obtain ⟨b', hb', hsame⟩ := List.mem_map.mp hnoted
      rw [← buildResendRequest_inj hsame]
      exact Option.mem_toList.mp hb'
    · obtain ⟨out, hout, hsame⟩ := List.mem_map.mp hother
      have hzero := hheartbeats out hout
      rw [hsame] at hzero
      have hthree : (buildResendRequest cfg b seq time).value 35 = some (ascii "3") := rfl
      rw [hthree] at hzero
      exact absurd hzero (by decide +kernel)
  · intro hb
    refine ⟨e.seqOut, utc e.stamps, List.mem_append_left _ ?_⟩
    rw [hb]
    exact List.mem_singleton_self _

lemma foldl_largest {fs : List Bytes} (h0 : e.seqIn = 0) (hreset : ∀ f ∈ fs, scanTag f 35 ≠ ascii "4") :
    Largest (msgSeqNums fs) (fs.foldl (handleFrame cfg utc) e).seqIn := by
  induction fs using List.reverseRecOn with
  | nil =>
    rw [List.foldl_nil, h0]
    exact ⟨fun _ => rfl, by simp [msgSeqNums], by simp [msgSeqNums]⟩
  | append_singleton fs f ih =>
    have hprefix := ih (fun g hg => hreset g (List.mem_append_left _ hg))
    have hlast := hreset f (List.mem_append_right _ (List.mem_singleton_self f))
    have hseq := ((fs.foldl (handleFrame cfg utc) e).handleFrame_eq cfg utc f).seqIn
    rw [List.foldl_concat, hseq]
    show Largest _ (seqAfter _ f)
    unfold seqAfter
    rw [if_neg hlast]
    exact hprefix.frame f

/-- The numbers that are skipped lie in the range of a request exactly when none is skipped. -/
theorem gaps_requested_iff (cfg : Config) (utc : Nat → String) (e : FixExecutor) (fs : List Bytes)
    (h0 : e.seqIn = 0) (hreset : ∀ f ∈ fs, scanTag f 35 ≠ ascii "4") :
    (∀ pre f rest n, fs = pre ++ f :: rest → Skipped pre f n →
      ∃ b ≤ n, (pre.foldl (handleFrame cfg utc) e).Requests cfg utc f b) ↔
    ∀ pre f rest, fs = pre ++ f :: rest → InSequence pre f := by
  have hlargest : ∀ pre f rest, fs = pre ++ f :: rest →
      Largest (msgSeqNums pre) (pre.foldl (handleFrame cfg utc) e).seqIn := by
    intro pre f rest hfs
    apply foldl_largest h0
    intro g hg
    apply hreset g
    rw [hfs]
    exact List.mem_append_left _ hg
  constructor
  · intro hrequested pre f rest hfs
    rw [inSequence_iff (hlargest pre f rest hfs)]
    intro n hskipped
    obtain ⟨b, hle, hb⟩ := hrequested pre f rest n hfs hskipped
    rw [requests_iff, noteSeq_snd] at hb
    obtain ⟨-, -, m, hm, hlt⟩ := hskipped
    rw [hb.1, Option.some.injEq] at hm
    omega
  · intro hsequence pre f rest n hfs hskipped
    exact absurd hskipped ((inSequence_iff (hlargest pre f rest hfs) f).mp (hsequence pre f rest hfs) n)

/-- Two frames in sequence. -/
theorem in_sequence_requested :
    msgSeqNums [peerFrame 'A' 1, peerFrame '0' 2] = [1, 2] ∧
    ∀ pre f rest n, [peerFrame 'A' 1, peerFrame '0' 2] = pre ++ f :: rest → Skipped pre f n →
      ∃ b ≤ n, (pre.foldl (handleFrame {} (fun _ => "")) {}).Requests {} (fun _ => "") f b := by
  refine ⟨by decide +kernel, ?_⟩
  apply (gaps_requested_iff {} (fun _ => "") {} [peerFrame 'A' 1, peerFrame '0' 2] rfl (by decide +kernel)).mpr
  have hone : msgSeqNums [peerFrame 'A' 1] = [1] := by decide +kernel
  have htwo : msgSeqNum (peerFrame '0' 2) = some 2 := by decide +kernel
  intro pre f rest hfs
  match pre with
  | [] => exact .inl rfl
  | [g] =>
    simp only [List.cons_append, List.nil_append, List.cons.injEq] at hfs
    obtain ⟨rfl, rfl, -⟩ := hfs
    right
    intro m hm
    rw [htwo, Option.some.injEq] at hm
    exact ⟨1, by simp [hone], by omega⟩
  | _ :: _ :: _ => simp at hfs

/-- After number 1 comes number 4; the one request begins with 4. -/
theorem gap_not_requested :
    Skipped [peerFrame 'A' 1] (peerFrame '0' 4) 2 ∧ Skipped [peerFrame 'A' 1] (peerFrame '0' 4) 3 ∧
    (∀ f ∈ [peerFrame 'A' 1, peerFrame '0' 4], scanTag f 35 ≠ ascii "4") ∧
    ∀ b, ([peerFrame 'A' 1].foldl (handleFrame {} (fun _ => "")) {}).Requests {} (fun _ => "")
      (peerFrame '0' 4) b ↔ b = 4 := by
  have hone : msgSeqNums [peerFrame 'A' 1] = [1] := by decide +kernel
  have hfour : msgSeqNum (peerFrame '0' 4) = some 4 := by decide +kernel
  have hskipped : ∀ n, 1 < n → n < 4 → Skipped [peerFrame 'A' 1] (peerFrame '0' 4) n := by
    intro n hlow hhigh
    refine ⟨by simp [hone], ?_, 4, hfour, hhigh⟩
    intro k hk
    rw [hone, List.mem_singleton] at hk
    omega
  refine ⟨hskipped 2 (by omega) (by omega), hskipped 3 (by omega) (by omega), by decide +kernel, ?_⟩
  intro b
  have hseq : ([peerFrame 'A' 1].foldl (handleFrame {} (fun _ => "")) {}).seqIn = 1 := by decide +kernel
  rw [requests_iff, noteSeq_snd, hseq, hfour, Option.some.injEq]
  omega

end FixExecutor

end LatencyArb
