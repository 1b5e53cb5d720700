import LatencyArb.Library.Machine
import LatencyArb.Library.Numeral

/-!
# The mapped log (`src/telemetry.cpp`)

Lines are queued by the threads that log and copied by the writer into a region that is mapped once. Only the
first call of `grow_mmap` maps anything, and a line that does not fit is dropped.
-/

namespace LatencyArb

open Numeral

namespace Telemetry

inductive Level where
  | info | warn | error

def Level.text : Level → List UInt8
  | info => []
  | warn => bytesOf "WARN  "
  | error => bytesOf "ERROR "

/-- What `push` queues; `time` is what the clock shows. -/
def entry (level : Level) (time line : List UInt8) : List UInt8 :=
  bytesOf "[" ++ time ++ bytesOf "] " ++ (level.text ++ line)

/-- Where the writer thread is: not started, in front of its first `grow_mmap`, or in its loop. -/
inductive Writer where
  | idle | started | looping
  deriving DecidableEq

structure MapState where
  len : Nat
  used : Nat

/-- `file` is the content of the log file, to which the region is mapped. -/
structure LogState where
  mmap : Bool := true
  running : Bool := false
  writer : Writer := .idle
  queue : List (List UInt8) := []
  map : Option MapState := none
  file : List UInt8

inductive Action where
  | preallocate (mb : Int)
  | start
  | log (level : Level) (time line : List UInt8)
  | grow
  | write
  | stop
  | exit

/-- Copying to a position of the mapped file. -/
def overwrite (file : List UInt8) (position : Nat) (bytes : List UInt8) : List UInt8 :=
  file.take position ++ bytes ++ file.drop (position + bytes.length)

/-- The size a call asks for. -/
def mebibytes (mb : Int) : Nat := (if 0 < mb then mb else 1).toNat * 1024 * 1024

namespace LogState

/-- `grow_mmap`, where the system calls succeed. -/
def growMmap (t : LogState) (mb : Int) : LogState :=
  if t.mmap = false then t
  else if t.map.isSome then t
  else
    { t with
      map := some { len := mebibytes mb, used := 0 }
      file := (t.file ++ List.replicate (mebibytes mb) 0).take (mebibytes mb) }

def preallocateMmap (t : LogState) (mb : Int) : LogState :=
  if t.mmap = false then t else t.growMmap mb

/-- `write_line`. Without a region there is no log file either, as none is ever opened. -/
def writeLine (t : LogState) (line : List UInt8) : LogState :=
  match t.mmap, t.map with
  | true, some m =>
    if m.used + line.length + 1 ≤ m.len then
      { t with
        file := overwrite t.file m.used (line ++ [10])
        map := some { m with used := m.used + line.length + 1 } }
    else t
  | _, _ => t

def step (t : LogState) : Action → Option LogState
  | .preallocate mb => some (t.preallocateMmap mb)
  | .start =>
    if t.running then some t
    else if t.writer = .idle then some { t with running := true, writer := .started }
    else none
  | .log level time line => some { t with queue := t.queue ++ [entry level time line] }
  | .grow =>
    if t.writer = .started then
      some { (if t.mmap = false then t else t.growMmap 0) with writer := .looping }
    else none
  | .write =>
    match t.writer, t.queue with
    | .looping, line :: rest => some ({ t with queue := rest }.writeLine line)
    | _, _ => none
  | .stop => some { t with running := false }
  | .exit =>
    if t.writer = .looping ∧ t.running = false ∧ t.queue = [] then
      some { t with writer := .idle, map := none }
    else none

end LogState

/-- The logger that is configured to map its log, with what the file has from before. -/
def logger (old : List UInt8) : Machine LogState Action where
  init := { file := old }
  step := LogState.step

lemma logger_step (old : List UInt8) (t : LogState) (a : Action) : (logger old).step t a = t.step a := rfl

/-! ## Preallocation and logging -/

namespace Action

/-- What may happen before the first line. -/
def Prelude : Action → Prop
  | preallocate _ | start | grow => True
  | _ => False

/-- What may happen from then on. -/
def Logging : Action → Prop
  | start | log _ _ _ | grow | write => True
  | _ => False

end Action

/-- The sizes that `preallocate_mmap` is called with. -/
def asked (history : List Action) : List Int :=
  history.filterMap (fun a => match a with | .preallocate mb => some mb | _ => none)

/-- The sizes that `grow_mmap` is called with. -/
def grows (history : List Action) : List Int :=
  history.filterMap (fun a => match a with | .preallocate mb => some mb | .grow => some 0 | _ => none)

def lines (later : List Action) : List (List UInt8) :=
  later.filterMap (fun a => match a with | .log level time line => some (entry level time line) | _ => none)

/-- Lines as they stand in the log. -/
def logText (lines : List (List UInt8)) : List UInt8 := lines.flatMap (fun line => line ++ [10])

/-- Whatever is logged after the calls of `history`: when the queue is empty, the log starts with all the
lines, as long as they are no longer than the largest size asked for. -/
def Usable (old : List UInt8) (history : List Action) : Prop :=
  ∀ later t, (∀ a ∈ later, a.Logging) → (logger old).run (logger old).init (history ++ later) = some t →
    t.queue = [] → (∃ mb ∈ asked history, ((logText (lines later)).length : Int) ≤ mb * 2 ^ 20) →
    t.file.take (logText (lines later)).length = logText (lines later)

/-- No call asks for more than the first call of `grow_mmap` does. -/
def FirstIsLargest (history : List Action) : Prop :=
  ∀ first, (grows history).head? = some first → ∀ mb ∈ asked history, mb ≤ max first 1

lemma logText_append (l l' : List (List UInt8)) : logText (l ++ l') = logText l ++ logText l' :=
  List.flatMap_append

lemma logText_singleton (line : List UInt8) : logText [line] = line ++ [10] := List.flatMap_singleton _ _

lemma mebibytes_eq (mb : Int) : (mebibytes mb : Int) = max mb 1 * 2 ^ 20 := by
  unfold mebibytes
  split
  · push_cast
    omega
  · push_cast
    omega

lemma take_overwrite {file bytes : List UInt8} {position : Nat} (h : position ≤ file.length) :
    (overwrite file position bytes).take (position + bytes.length) = file.take position ++ bytes := by
  unfold overwrite
  rw [List.take_append_of_le_length]
  · rw [List.take_of_length_le]
    rw [List.length_append, List.length_take]
    omega
  · rw [List.length_append, List.length_take]
    omega

lemma length_overwrite {file bytes : List UInt8} {position : Nat} (h : position + bytes.length ≤ file.length) :
    (overwrite file position bytes).length = file.length := by
  unfold overwrite
  rw [List.length_append, List.length_append, List.length_take, List.length_drop]
  omega

/-! ## The region -/

namespace LogState

variable {t t' : LogState} {m : MapState} {mb : Int}

lemma growMmap_mapped (h : t.map = some m) : t.growMmap mb = t := by
  unfold growMmap
  rw [h]
  simp

lemma growMmap_unmapped (hmmap : t.mmap = true) (h : t.map = none) : t.growMmap mb =
    { t with
      map := some { len := mebibytes mb, used := 0 }
      file := (t.file ++ List.replicate (mebibytes mb) 0).take (mebibytes mb) } := by
  unfold growMmap
  rw [hmmap, h]
  simp

lemma step_start (h : t.step .start = some t') :
    t' = t ∨ t.writer = .idle ∧ t' = { t with running := true, writer := .started } := by
  by_cases hrunning : t.running = true
  · refine .inl ?_
    simpa [step, hrunning] using h.symm
  · by_cases hidle : t.writer = .idle
    · refine .inr ⟨hidle, ?_⟩
      simpa [step, hrunning, hidle] using h.symm
    · simp [step, hrunning, hidle] at h

lemma step_grow (hmmap : t.mmap = true) (h : t.step .grow = some t') :
    t.writer = .started ∧ t' = { t.growMmap 0 with writer := .looping } := by
  by_cases hstarted : t.writer = .started
  · refine ⟨hstarted, ?_⟩
    simpa [step, hstarted, hmmap] using h.symm
  · simp [step, hstarted] at h

lemma step_write (h : t.step .write = some t') :
    t.writer = .looping ∧ ∃ line rest, t.queue = line :: rest ∧ t' = { t with queue := rest }.writeLine line := by
  simp only [step] at h
  split at h
  · rename_i line rest hwriter hqueue
    exact ⟨hwriter, line, rest, hqueue, (Option.some.inj h).symm⟩
  · cases h

lemma writeLine_fits {line : List UInt8} (hmmap : t.mmap = true) (hmap : t.map = some m)
    (hfits : m.used + line.length + 1 ≤ m.len) : t.writeLine line =
      { t with
        file := overwrite t.file m.used (line ++ [10])
        map := some { m with used := m.used + line.length + 1 } } := by
  unfold writeLine
  split
  · rename_i m' hm'
    obtain rfl := Option.some.inj (hmap.symm.trans hm')
    exact if_pos hfits
  · rename_i hnot
    exact (hnot m hmmap hmap).elim

lemma writeLine_full {line : List UInt8} (hmap : t.map = some m) (hfull : m.len < m.used + line.length + 1) :
    t.writeLine line = t := by
  unfold writeLine
  split
  · rename_i m' hm'
    obtain rfl := Option.some.inj (hmap.symm.trans hm')
    exact if_neg (Nat.not_le.mpr hfull)
  · rfl

end LogState

lemma length_region (file : List UInt8) (len : Nat) :
    ((file ++ List.replicate len 0).take len).length = len := by
  rw [List.length_take, List.length_append, List.length_replicate]
  omega

/-- Before anything is logged. -/
structure Fresh (t : LogState) : Prop where
  mmap : t.mmap = true
  queue : t.queue = []
  idle : t.writer = .idle → t.running = false
  region : ∀ m, t.map = some m → m.used = 0 ∧ t.file.length = m.len
  unmapped : t.map = none → t.writer ≠ .looping

lemma Fresh.growMmap {t : LogState} (h : Fresh t) (mb : Int) : Fresh (t.growMmap mb) ∧
    (t.growMmap mb).map = t.map.or (some { len := mebibytes mb, used := 0 }) := by
  match hmap : t.map with
  | some m =>
    rw [LogState.growMmap_mapped hmap]
    exact ⟨h, hmap⟩
  | none =>
    rw [LogState.growMmap_unmapped h.mmap hmap]
    refine ⟨⟨h.mmap, h.queue, h.idle, ?_, fun hnone => by cases hnone⟩, rfl⟩
    intro m hm
    obtain rfl := Option.some.inj hm
    exact ⟨rfl, length_region t.file (mebibytes mb)⟩

/-- A step before the first line. -/
lemma Fresh.step {t t' : LogState} {a : Action} (h : Fresh t) (ha : a.Prelude) (hstep : t.step a = some t') :
    Fresh t' ∧ t'.map = t.map.or (((grows [a]).head?).map (fun mb => { len := mebibytes mb, used := 0 })) := by
  cases a with
  | preallocate mb =>
    obtain rfl : t.growMmap mb = t' := by
      simpa [LogState.step, LogState.preallocateMmap, h.mmap] using hstep
    exact h.growMmap mb
  | start =>
    obtain rfl | ⟨-, rfl⟩ := LogState.step_start hstep
    · exact ⟨h, Option.or_none.symm⟩
    · refine ⟨⟨h.mmap, h.queue, (fun hidle => by cases hidle), h.region, fun _ hloop => by cases hloop⟩, ?_⟩
      exact Option.or_none.symm
  | grow =>
    obtain ⟨-, rfl⟩ := LogState.step_grow h.mmap hstep
    obtain ⟨hgrown, hmap⟩ := h.growMmap 0
    refine ⟨⟨hgrown.mmap, hgrown.queue, (fun hidle => by cases hidle), hgrown.region, ?_⟩, hmap⟩
    intro hnone
    have hunmapped : (t.growMmap 0).map = none := hnone
    rw [hmap] at hunmapped
    cases hmapped : t.map <;> simp [hmapped] at hunmapped
  | log | write | stop | exit => cases ha

lemma asked_subset_grows {history : List Action} {mb : Int} (h : mb ∈ asked history) : mb ∈ grows history := by
  obtain ⟨a, hmem, ha⟩ := List.mem_filterMap.mp h
  apply List.mem_filterMap.mpr
  refine ⟨a, hmem, ?_⟩
  cases a with
  | preallocate mb' => exact ha
  | start | log | grow | write | stop | exit => cases ha

lemma grows_cons (a : Action) (history : List Action) :
    (grows (a :: history)).head? = ((grows [a]).head?).or (grows history).head? := by
  cases a <;> simp [grows]

/-- After the calls of `history` the region has the size that the first of them asks for. -/
lemma Fresh.run {t t' : LogState} {history : List Action} (old : List UInt8) (h : Fresh t)
    (hprelude : ∀ a ∈ history, a.Prelude) (hrun : (logger old).run t history = some t') :
    Fresh t' ∧ t'.map =
      t.map.or ((grows history).head?.map (fun mb => { len := mebibytes mb, used := 0 })) := by
  induction history generalizing t with
  | nil =>
    obtain rfl := Option.some.inj hrun
    exact ⟨h, Option.or_none.symm⟩
  | cons a history ih =>
    rw [Machine.run_cons] at hrun
    obtain ⟨u, hu, hrest⟩ := Option.bind_eq_some_iff.mp hrun
    obtain ⟨hfresh, hmap⟩ := h.step (hprelude a List.mem_cons_self) hu
    obtain ⟨hfresh', hmap'⟩ := ih hfresh (fun b hb => hprelude b (List.mem_cons_of_mem a hb)) hrest
    refine ⟨hfresh', ?_⟩
    rw [hmap', hmap, grows_cons a history, Option.or_assoc]
    cases (grows [a]).head? <;> rfl

lemma fresh_init (old : List UInt8) : Fresh (logger old).init :=
  ⟨rfl, rfl, fun _ => rfl, (fun _ hm => by cases hm), fun _ hloop => by cases hloop⟩

/-! ## The lines in the log -/

/-- The lines so far are in the file or in the queue; the region has `cap` bytes, or will have them. -/
structure Logged (cap : Nat) (all : List (List UInt8)) (t : LogState) : Prop where
  mmap : t.mmap = true
  region : ∀ m, t.map = some m → m.len = cap ∧ t.file.length = cap
  unmapped : t.map = none → cap = mebibytes 0 ∧ t.writer ≠ .looping
  written : ∃ done, all = done ++ t.queue ∧ t.map.elim 0 MapState.used = (logText done).length ∧
    t.file.take (logText done).length = logText done

lemma Logged.grow {cap : Nat} {all : List (List UInt8)} {t : LogState} (h : Logged cap all t) :
    Logged cap all { t.growMmap 0 with writer := .looping } := by
  match hmap : t.map with
  | some m =>
    rw [LogState.growMmap_mapped hmap]
    refine ⟨h.mmap, h.region, ?_, h.written⟩
    intro hnone
    rw [show t.map = none from hnone] at hmap
    cases hmap
  | none =>
    obtain ⟨hcap, -⟩ := h.unmapped hmap
    obtain ⟨done, hall, hused, -⟩ := h.written
    rw [LogState.growMmap_unmapped h.mmap hmap]
    rw [hmap] at hused
    refine ⟨h.mmap, ?_, (fun hnone => by cases hnone), done, hall, hused, ?_⟩
    · intro m hm
      obtain rfl := Option.some.inj hm
      exact ⟨hcap.symm, (length_region t.file (mebibytes 0)).trans hcap.symm⟩
    · -- nothing can have been written
      have hnil : logText done = [] := List.length_eq_zero_iff.mp hused.symm
      rw [hnil]
      rfl

/-- A line that fits is written behind the others. -/
lemma Logged.write {cap : Nat} {all rest : List (List UInt8)} {line : List UInt8} {t : LogState}
    (h : Logged cap all t) (hlooping : t.writer = .looping) (hqueue : t.queue = line :: rest)
    (hfits : (logText all).length ≤ cap) : Logged cap all ({ t with queue := rest }.writeLine line) := by
  obtain ⟨done, hall, hused, htake⟩ := h.written
  obtain ⟨m, hmap⟩ : ∃ m, t.map = some m :=
    Option.ne_none_iff_exists'.mp (fun hnone => (h.unmapped hnone).2 hlooping)
  obtain ⟨hlen, hfile⟩ := h.region m hmap
  have hm : m.used = (logText done).length := by
    rw [hmap] at hused
    exact hused
  have hdone : logText (done ++ [line]) = logText done ++ (line ++ [10]) := by
    rw [logText_append, logText_singleton]
  have hroom : m.used + (line ++ [10]).length ≤ cap := by
    rw [hall, hqueue, logText_append, ← List.singleton_append, logText_append, logText_singleton] at hfits
    simp only [List.length_append] at hfits ⊢
    omega
  have hline : (line ++ [10]).length = line.length + 1 := by simp
  have hwrite := @LogState.writeLine_fits { t with queue := rest } m line h.mmap hmap (by omega)
  rw [hwrite]
  refine ⟨h.mmap, ?_, (fun hnone => by cases hnone), done ++ [line], ?_, ?_, ?_⟩
  · intro m' hm'
    obtain rfl := Option.some.inj hm'
    have hinside : m.used + (line ++ [10]).length ≤ t.file.length := by omega
    exact ⟨hlen, (length_overwrite hinside).trans hfile⟩
  · rw [hall, hqueue, List.append_assoc, List.singleton_append]
  · show m.used + line.length + 1 = _
    rw [hdone, List.length_append]
    omega
  · show (overwrite t.file m.used (line ++ [10])).take _ = _
    rw [hdone, List.length_append, ← hm, take_overwrite (by omega), hm, htake]

lemma lines_cons (a : Action) (later : List Action) : lines (a :: later) = lines [a] ++ lines later := by
  cases a <;> simp [lines]

lemma Logged.step {cap : Nat} {all : List (List UInt8)} {t t' : LogState} {a : Action} (h : Logged cap all t)
    (ha : a.Logging) (hstep : t.step a = some t') (hfits : (logText (all ++ lines [a])).length ≤ cap) :
    Logged cap (all ++ lines [a]) t' := by
  cases a with
  | log level time line =>
    obtain rfl := Option.some.inj hstep
    obtain ⟨done, hall, hused, htake⟩ := h.written
    refine ⟨h.mmap, h.region, h.unmapped, done, ?_, hused, htake⟩
    rw [hall, List.append_assoc]
    rfl
  | start =>
    rw [show lines [Action.start] = [] from rfl, List.append_nil]
    obtain rfl | ⟨-, rfl⟩ := LogState.step_start hstep
    · exact h
    · refine ⟨h.mmap, h.region, ?_, h.written⟩
      intro hnone
      exact ⟨(h.unmapped hnone).1, fun hloop => by cases hloop⟩
  | grow =>
    rw [show lines [Action.grow] = [] from rfl, List.append_nil]
    obtain ⟨-, rfl⟩ := LogState.step_grow h.mmap hstep
    exact h.grow
  | write =>
    rw [show lines [Action.write] = [] from rfl, List.append_nil] at hfits ⊢
    obtain ⟨hlooping, line, rest, hqueue, rfl⟩ := LogState.step_write hstep
    exact h.write hlooping hqueue hfits
  | preallocate | stop | exit => cases ha

lemma Logged.run {cap : Nat} {all : List (List UInt8)} {t t' : LogState} {later : List Action}
    (old : List UInt8) (h : Logged cap all t) (hlogging : ∀ a ∈ later, a.Logging)
    (hrun : (logger old).run t later = some t') (hfits : (logText (all ++ lines later)).length ≤ cap) :
    Logged cap (all ++ lines later) t' := by
  induction later generalizing all t with
  | nil =>
    obtain rfl := Option.some.inj hrun
    rw [show lines [] = [] from rfl, List.append_nil]
    exact h
  | cons a later ih =>
    rw [Machine.run_cons] at hrun
    obtain ⟨u, hu, hrest⟩ := Option.bind_eq_some_iff.mp hrun
    rw [lines_cons, ← List.append_assoc] at hfits ⊢
    have hfirst : (logText (all ++ lines [a])).length ≤ cap := by
      rw [logText_append, List.length_append] at hfits
      omega
    have hstep := h.step (hlogging a List.mem_cons_self) hu hfirst
    exact ih hstep (fun b hb => hlogging b (List.mem_cons_of_mem a hb)) hrest hfits

/-! ## The space that is asked for -/

/-- Nothing has been logged yet; a region that is not mapped yet will be the writer's. -/
lemma Fresh.logged {t : LogState} (h : Fresh t) :
    Logged (t.map.elim (mebibytes 0) MapState.len) [] t := by
  refine ⟨h.mmap, ?_, ?_, [], by rw [h.queue]; rfl, ?_, rfl⟩
  · intro m hmap
    obtain ⟨-, hfile⟩ := h.region m hmap
    rw [hmap]
    exact ⟨rfl, hfile⟩
  · intro hnone
    rw [hnone]
    exact ⟨rfl, h.unmapped hnone⟩
  · cases hmap : t.map with
    | none => rfl
    | some m => exact (h.region m hmap).1

/-- The writer can be brought to its loop. -/
lemma Fresh.boot {t : LogState} {m : MapState} (old : List UInt8) (h : Fresh t) (hmap : t.map = some m) :
    ∃ boot t', (∀ a ∈ boot, a.Logging) ∧ lines boot = [] ∧ (logger old).run t boot = some t' ∧
      t'.writer = .looping ∧ t'.mmap = true ∧ t'.map = some m ∧ t'.file = t.file ∧ t'.queue = [] := by
  have hgrow : ∀ t : LogState, t.mmap = true → t.map = some m → t.writer = .started →
      t.step .grow = some { t with writer := .looping } := by
    intro t hmmap hmap hstarted
    simp [LogState.step, hstarted, hmmap, LogState.growMmap_mapped hmap]
  cases hwriter : t.writer with
  | looping => exact ⟨[], t, by simp, rfl, rfl, hwriter, h.mmap, hmap, rfl, h.queue⟩
  | started =>
    refine ⟨[.grow], { t with writer := .looping }, by simp [Action.Logging], rfl, ?_, rfl, h.mmap, hmap, rfl,
      h.queue⟩
    rw [Machine.run_cons, logger_step, hgrow t h.mmap hmap hwriter]
    rfl
  | idle =>
    have hstart : t.step .start = some { t with running := true, writer := .started } := by
      simp [LogState.step, h.idle hwriter, hwriter]
    refine ⟨[.start, .grow], { t with running := true, writer := .looping }, by simp [Action.Logging], rfl, ?_,
      rfl, h.mmap, hmap, rfl, h.queue⟩
    have hgrown := hgrow { t with running := true, writer := .started } h.mmap hmap rfl
    rw [Machine.run_cons, logger_step, hstart, Option.bind_some, Machine.run_cons, logger_step, hgrown]
    rfl

def someTime : List UInt8 := bytesOf "2025-01-01 00:00:00.000"

/-- What is logged to make a line that takes `length` bytes of the log. -/
def payload (length : Nat) : List UInt8 := List.replicate (length - 27) 97

lemma length_payload {length : Nat} (h : 27 ≤ length) :
    (logText [entry .info someTime (payload length)]).length = length := by
  have hopen : (bytesOf "[").length = 1 := by decide +kernel
  have hclose : (bytesOf "] ").length = 2 := by decide +kernel
  have htime : someTime.length = 23 := by decide +kernel
  rw [logText_singleton]
  simp only [entry, payload, Level.text, List.nil_append, List.length_append, List.length_replicate,
    List.length_singleton, hopen, hclose, htime]
  omega

/-- A line for which there is no room is taken from the queue and is nowhere. -/
lemma lost_run {u : LogState} {m : MapState} {time line : List UInt8} (old : List UInt8)
    (hlooping : u.writer = .looping) (hmap : u.map = some m) (hqueue : u.queue = [])
    (hfull : m.len < m.used + (entry .info time line).length + 1) :
    (logger old).run u [.log .info time line, .write] = some { u with queue := [] } := by
  have hlog : u.step (.log .info time line) = some { u with queue := [entry .info time line] } := by
    simp only [LogState.step]
    rw [hqueue, List.nil_append]
  have hwrite : LogState.step { u with queue := [entry .info time line] } .write = some { u with queue := [] } := by
    have hdropped := @LogState.writeLine_full { u with queue := [] } m _ hmap hfull
    simp only [LogState.step, hlooping]
    rw [← hlooping]
    exact congrArg some hdropped
  rw [Machine.run_cons, logger_step, hlog, Option.bind_some, Machine.run_cons, logger_step, hwrite]
  rfl

/-- A single line longer than the region is lost, even where more was asked for. -/
lemma not_usable {old : List UInt8} {history : List Action} {t : LogState} {m : MapState} {mb : Int}
    (hprelude : ∀ a ∈ history, a.Prelude)
    (hrun : (logger old).run (logger old).init history = some t) (hmap : t.map = some m)
    (hasked : mb ∈ asked history) (hmore : (m.len : Int) < mb * 2 ^ 20) : ¬Usable old history := by
  intro husable
  obtain ⟨hfresh, -⟩ := (fresh_init old).run old hprelude hrun
  obtain ⟨boot, u, hboot, hlines, hrunBoot, hlooping, hmmap, hregion, hfile, hqueue⟩ := hfresh.boot old hmap
  obtain ⟨length, hlength⟩ : ∃ length : Nat, (length : Int) = mb * 2 ^ 20 :=
    ⟨(mb * 2 ^ 20).toNat, Int.toNat_of_nonneg (by omega)⟩
  have hlong := @length_payload length (by omega)
  have hfull : m.len < m.used + (entry .info someTime (payload length)).length + 1 := by
    rw [logText_singleton, List.length_append, List.length_singleton] at hlong
    omega
  have hlost := lost_run old hlooping hregion hqueue hfull
  have hall : lines (boot ++ [.log .info someTime (payload length), .write]) =
      [entry .info someTime (payload length)] := by
    unfold lines at hlines ⊢
    rw [List.filterMap_append, hlines]
    rfl
  have hlogging : ∀ a ∈ boot ++ [.log .info someTime (payload length), .write], a.Logging := by
    intro a ha
    rcases List.mem_append.mp ha with ha | ha
    · exact hboot a ha
    · rcases List.mem_cons.mp ha with rfl | ha
      · trivial
      · obtain rfl := List.mem_singleton.mp ha
        trivial
  have htake := husable _ _ hlogging (Machine.run_trans _ hrun (Machine.run_trans _ hrunBoot hlost)) rfl
    ⟨mb, hasked, by rw [hall, hlong, hlength]⟩
  -- the file is no longer than the region
  have hshort := congrArg List.length htake
  rw [hall, hlong, List.length_take] at hshort
  obtain ⟨-, hregionLength⟩ := hfresh.region m hmap
  have hsame : u.file.length = m.len := by rw [hfile, hregionLength]
  have hmin : min length u.file.length = length := hshort
  omega

theorem usable_iff (old : List UInt8) (history : List Action) (t : LogState)
    (hprelude : ∀ a ∈ history, a.Prelude)
    (hrun : (logger old).run (logger old).init history = some t) :
    Usable old history ↔ FirstIsLargest history := by
  obtain ⟨hfresh, hmap⟩ := (fresh_init old).run old hprelude hrun
  rw [show (logger old).init.map = none from rfl, Option.none_or] at hmap
  constructor
  · intro husable first hfirst mb hasked
    by_contra hmore
    rw [hfirst, Option.map_some] at hmap
    refine not_usable hprelude hrun hmap hasked ?_ husable
    show (mebibytes first : Int) < _
    rw [mebibytes_eq]
    omega
  · intro hlargest later t' hlogging hrun' hqueue ⟨mb, hasked, hlength⟩
    rw [Machine.run_append, hrun, Option.bind_some] at hrun'
    obtain ⟨first, others, hgrows⟩ :=
      List.exists_cons_of_ne_nil (List.ne_nil_of_mem (asked_subset_grows hasked))
    have hfirst : (grows history).head? = some first := by rw [hgrows]; rfl
    have hfits : (logText ([] ++ lines later)).length ≤ t.map.elim (mebibytes 0) MapState.len := by
      have hle := hlargest first hfirst mb hasked
      have hsize := mebibytes_eq first
      rw [hmap, hfirst, List.nil_append]
      show _ ≤ mebibytes first
      omega
    obtain ⟨done, hall, -, htake⟩ := (hfresh.logged.run old hlogging hrun' hfits).written
    rw [hqueue, List.append_nil, List.nil_append] at hall
    rw [hall]
    exact htake

/-- The large region first. -/
theorem usable_large_first : Usable [] [.preallocate 10, .start, .grow, .preallocate 1] := by
  apply (usable_iff [] _ _ ?_ rfl).mpr
  · intro first hfirst mb hasked
    obtain rfl := Option.some.inj hfirst
    rcases List.mem_cons.mp hasked with rfl | hasked
    · decide
    · obtain rfl := List.mem_singleton.mp hasked
      decide
  · intro a ha
    fin_cases ha <;> trivial

/-- The calls of `main`: one mebibyte, then the writer and ten mebibytes. -/
theorem large_second_unusable : ¬Usable [] [.preallocate 1, .start, .grow, .preallocate 10] := by
  have hasked : (10 : Int) ∈ asked [.preallocate 1, .start, .grow, .preallocate 10] := by simp [asked]
  refine @not_usable [] _ _ { len := mebibytes 1, used := 0 } 10 ?_ rfl rfl hasked (by decide)
  intro a ha
  fin_cases ha <;> trivial

end Telemetry

end LatencyArb
