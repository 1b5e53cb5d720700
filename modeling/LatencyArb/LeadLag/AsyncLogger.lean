import LatencyArb.Library.AppendStreams
import LatencyArb.Library.Machine
import LatencyArb.Library.Mailbox

/-!
# The logger of the lead-lag trader (`AsyncLogger` of `lead_lag.cpp`)

Producers put entries into a queue; one writer thread takes them out and appends each to the file of its
kind. A step of the writer is told what day it is and whether a file that it wants to open can be opened.
-/

namespace LatencyArb

namespace LeadLag

/-! ## The files -/

inductive LogKind where
  | log | trade | tick
  deriving DecidableEq, Repr

structure LogEntry where
  kind : LogKind
  text : String
  deriving DecidableEq, Repr

/-- `log_YYYYMMDD.txt`, `trades_telemetry.csv` and `ticks.csv`. -/
inductive LogFile where
  | log (day : String)
  | trades
  | ticks
  deriving DecidableEq, Repr

namespace LogFile

def tradeHeader : String :=
  "timestamp,signal_direction,ref_price,change_pct,fxcm_latency_ms,fxcm_status,order_id"

def tickHeader : String := "timestamp,price"

def header : LogFile → Option String
  | log _ => none
  | trades => some tradeHeader
  | ticks => some tickHeader

def kind : LogFile → LogKind
  | log _ => .log
  | trades => .trade
  | ticks => .tick

end LogFile

/-- The streams of the logger and `cur_log_name_`. -/
structure LogFiles where
  streams : AppendStreams LogFile String
  curLogName : Option String := none

namespace LogFiles

/-- Closes the log of the day before and opens that of the day. -/
def rotate (s : LogFiles) (day : String) (opens : Bool) : LogFiles :=
  let closed := match s.curLogName with
    | some old => if s.streams.isOpen (.log old) then s.streams.close (.log old) else s.streams
    | none => s.streams
  { streams := if opens then closed.openFile (.log day) else closed, curLogName := some day }

def writeLogLine (s : LogFiles) (day : String) (opens : Bool) (line : String) : LogFiles :=
  let s := if s.curLogName = some day then s else s.rotate day opens
  if s.streams.isOpen (.log day) then { s with streams := s.streams.write (.log day) line } else s

/-- The header of a fresh file. -/
def writeHeader (streams : AppendStreams LogFile String) (f : LogFile) : AppendStreams LogFile String :=
  if streams.lines f = [] then f.header.elim streams (streams.write f) else streams

def writeCsv (s : LogFiles) (f : LogFile) (opens : Bool) (row : String) : LogFiles :=
  if s.streams.isOpen f then { s with streams := s.streams.write f row }
  else if opens then { s with streams := (writeHeader (s.streams.openFile f) f).write f row }
  else s

/-- Whether a line for this file makes `write_log_line` or `write_csv` open it. -/
def wants (s : LogFiles) : LogFile → Bool
  | .log day => decide (s.curLogName ≠ some day)
  | f => !s.streams.isOpen f

def writeEntry (s : LogFiles) (day : String) (opens : Bool) (e : LogEntry) : LogFiles :=
  match e.kind with
  | .log => s.writeLogLine day opens e.text
  | .trade => s.writeCsv .trades opens e.text
  | .tick => s.writeCsv .ticks opens e.text

def flushAll (s : LogFiles) : LogFiles := { s with streams := s.streams.flush }

end LogFiles

/-- The file of an entry that is written on this day. -/
def LogEntry.file (e : LogEntry) (day : String) : LogFile :=
  match e.kind with
  | .log => .log day
  | .trade => .trades
  | .tick => .ticks

/-! ## The queue and its writer -/

/-- Where `writer_loop` stands: at the wait, with an entry in hand, behind `write_entry`, behind the loop
with the mutex released, or in the drain, which holds it again. -/
inductive WriterPhase where
  | absent
  | waiting
  | holding
  | settling (kind : LogKind)
  | leaving
  | draining
  | exited
  deriving DecidableEq, Repr

/-- `placed` says where each entry has been written, if anywhere, and `failed` counts the files that had to
be opened and could not; the two only record the run. -/
structure AsyncLogger where
  mail : Mailbox LogEntry := {}
  running : Bool := false
  phase : WriterPhase := .absent
  files : LogFiles
  placed : List (LogEntry × Option LogFile) := []
  failed : Nat := 0

namespace AsyncLogger

inductive Action where
  | push (e : LogEntry)
  | start
  | stop
  | join
  | wake
  | write (day : String) (opens : Bool)
  | settle
  | relock
  | finish

/-- Whether the file of the entry is open when it has to be written. -/
def lands (s : LogFiles) (day : String) (opens : Bool) (e : LogEntry) : Bool :=
  (s.writeEntry day opens e).streams.isOpen (e.file day)

/-- `write_entry` on the entry in hand. -/
def put (s : AsyncLogger) (day : String) (opens : Bool) (e : LogEntry) : AsyncLogger :=
  { s with
    files := s.files.writeEntry day opens e
    placed := s.placed ++ [(e, if lands s.files day opens e then some (e.file day) else none)]
    failed := s.failed + (if s.files.wants (e.file day) && !opens then 1 else 0) }

/-- The mutex is held by the drain. -/
def locked (s : AsyncLogger) : Bool := decide (s.phase = .draining)

def step (s : AsyncLogger) : Action → Option AsyncLogger
  | .push e => if s.locked then none else some { s with mail := s.mail.push e }
  | .start =>
    if s.locked then none
    else if s.running then some s
    else if s.phase = .absent then some { s with running := true, phase := .waiting }
    else none
  | .stop => if s.locked then none else some { s with running := false }
  | .join => if s.running = false ∧ s.phase = .exited then some { s with phase := .absent } else none
  | .wake =>
    if s.phase = .waiting then
      if s.mail.queue = [] then
        if s.running then none else some { s with phase := .leaving }
      else some { s with mail := s.mail.take, phase := .holding }
    else none
  | .write day opens =>
    match s.phase with
    | .holding =>
      s.mail.batch.head?.map (fun e =>
        { s.put day opens e with mail := s.mail.handle, phase := .settling e.kind })
    | .draining =>
      s.mail.queue.head?.map (fun e => { s.put day opens e with mail := s.mail.take.handle })
    | _ => none
  | .settle =>
    match s.phase with
    | .settling kind =>
      some { s with
        phase := .waiting
        files := if kind = .trade ∨ s.mail.queue = [] then s.files.flushAll else s.files }
    | _ => none
  | .relock => if s.phase = .leaving then some { s with phase := .draining } else none
  | .finish =>
    if s.phase = .draining ∧ s.mail.queue = [] then
      some { s with phase := .exited, files := s.files.flushAll }
    else none

def machine (existing : LogFile → List String) : Machine AsyncLogger Action where
  init := { files := { streams := { lines := existing, flushed := existing } } }
  step := step

/-- What a step can do: a producer, `start` or `stop` has the mutex, or the writer goes on from where it
stands. -/
inductive Moves (s : AsyncLogger) : Action → AsyncLogger → Prop where
  | push (e : LogEntry) (free : s.locked = false) : Moves s (.push e) { s with mail := s.mail.push e }
  | running (free : s.locked = false) : Moves s .start s
  | start (free : s.locked = false) (absent : s.phase = .absent) :
      Moves s .start { s with running := true, phase := .waiting }
  | stop (free : s.locked = false) : Moves s .stop { s with running := false }
  | join (exited : s.phase = .exited) : Moves s .join { s with phase := .absent }
  | leave (waiting : s.phase = .waiting) (empty : s.mail.queue = []) : Moves s .wake { s with phase := .leaving }
  | take (waiting : s.phase = .waiting) (left : s.mail.queue ≠ []) :
      Moves s .wake { s with mail := s.mail.take, phase := .holding }
  | write (day : String) (opens : Bool) (e : LogEntry) (holding : s.phase = .holding)
      (front : s.mail.batch.head? = some e) :
      Moves s (.write day opens) { s.put day opens e with mail := s.mail.handle, phase := .settling e.kind }
  | drain (day : String) (opens : Bool) (e : LogEntry) (draining : s.phase = .draining)
      (front : s.mail.queue.head? = some e) :
      Moves s (.write day opens) { s.put day opens e with mail := s.mail.take.handle }
  | settle (kind : LogKind) (settling : s.phase = .settling kind) :
      Moves s .settle { s with
        phase := .waiting
        files := if kind = .trade ∨ s.mail.queue = [] then s.files.flushAll else s.files }
  | relock (leaving : s.phase = .leaving) : Moves s .relock { s with phase := .draining }
  | finish (draining : s.phase = .draining) (empty : s.mail.queue = []) :
      Moves s .finish { s with phase := .exited, files := s.files.flushAll }

lemma step_moves {s t : AsyncLogger} {a : Action} (hstep : s.step a = some t) : s.Moves a t := by
  cases a with
  | push e =>
    obtain ⟨hfree, ht⟩ := Option.ite_none_left_eq_some.mp hstep
    obtain rfl := Option.some.inj ht
    exact .push e (Bool.eq_false_iff.mpr hfree)
  | start =>
    obtain ⟨hfree, ht⟩ := Option.ite_none_left_eq_some.mp hstep
    by_cases hrunning : s.running = true
    · rw [if_pos hrunning] at ht
      obtain rfl := Option.some.inj ht
      exact .running (Bool.eq_false_iff.mpr hfree)
    · rw [if_neg hrunning] at ht
      obtain ⟨habsent, ht⟩ := Option.ite_none_right_eq_some.mp ht
      obtain rfl := Option.some.inj ht
      exact .start (Bool.eq_false_iff.mpr hfree) habsent
  | stop =>
    obtain ⟨hfree, ht⟩ := Option.ite_none_left_eq_some.mp hstep
    obtain rfl := Option.some.inj ht
    exact .stop (Bool.eq_false_iff.mpr hfree)
  | join =>
    obtain ⟨⟨-, hexited⟩, ht⟩ := Option.ite_none_right_eq_some.mp hstep
    obtain rfl := Option.some.inj ht
    exact .join hexited
  | wake =>
    obtain ⟨hwaiting, ht⟩ := Option.ite_none_right_eq_some.mp hstep
    by_cases hqueue : s.mail.queue = []
    · rw [if_pos hqueue] at ht
      obtain ⟨-, ht⟩ := Option.ite_none_left_eq_some.mp ht
      obtain rfl := Option.some.inj ht
      exact .leave hwaiting hqueue
    · rw [if_neg hqueue] at ht
      obtain rfl := Option.some.inj ht
      exact .take hwaiting hqueue
  | write day opens =>
    cases hphase : s.phase with
    | holding =>
      simp only [AsyncLogger.step, hphase] at hstep
      obtain ⟨e, he, rfl⟩ := Option.map_eq_some_iff.mp hstep
      exact .write day opens e hphase he
    | draining =>
      simp only [AsyncLogger.step, hphase] at hstep
      obtain ⟨e, he, rfl⟩ := Option.map_eq_some_iff.mp hstep
      exact .drain day opens e hphase he
    | absent | waiting | settling kind | leaving | exited =>
      simp only [AsyncLogger.step, hphase] at hstep
      cases hstep
  | settle =>
    cases hphase : s.phase with
    | settling kind =>
      simp only [AsyncLogger.step, hphase] at hstep
      obtain rfl := Option.some.inj hstep
      exact .settle kind hphase
    | absent | waiting | holding | leaving | draining | exited =>
      simp only [AsyncLogger.step, hphase] at hstep
      cases hstep
  | relock =>
    obtain ⟨hleaving, ht⟩ := Option.ite_none_right_eq_some.mp hstep
    obtain rfl := Option.some.inj ht
    exact .relock hleaving
  | finish =>
    obtain ⟨⟨hdraining, hqueue⟩, ht⟩ := Option.ite_none_right_eq_some.mp hstep
    obtain rfl := Option.some.inj ht
    exact .finish hdraining hqueue

end AsyncLogger

/-! ## What `write_entry` does to the files -/

namespace LogFiles

/-- Only the log of the current day is open. -/
structure Inv (s : LogFiles) : Prop where
  settled : s.streams.Settled
  current : ∀ day, s.streams.isOpen (.log day) = true → s.curLogName = some day

/-- The log of the current day could be opened. -/
def Healthy (s : LogFiles) : Prop := ∀ day, s.curLogName = some day → s.streams.isOpen (.log day) = true

/-- The text goes to the end of the file, behind a header where the file is fresh, or nowhere. -/
structure Wrote (s s' : LogFiles) (f : LogFile) (opens : Bool) (text : String) : Prop where
  inv : s'.Inv
  others : ∀ g, g ≠ f → s'.streams.lines g = s.streams.lines g
  landed : s'.streams.isOpen f = true → s'.streams.lines f = s.streams.lines f ++
    (if s.streams.isOpen f = true ∨ s.streams.lines f ≠ [] then [] else f.header.toList) ++ [text]
  missed : s'.streams.isOpen f = false → s'.streams.lines f = s.streams.lines f
  sheets : ∀ g, g.kind ≠ .log → g ≠ f → s'.streams.isOpen g = s.streams.isOpen g
  flushed : ∀ g, g.kind ≠ .log → s'.streams.flushed g = s.streams.flushed g
  healthy : (s.wants f = true → opens = true) → s.Healthy → s'.streams.isOpen f = true ∧ s'.Healthy

variable {s : LogFiles} {day : String} {opens : Bool} {f : LogFile}

lemma wants_sheet (hf : f.kind ≠ .log) : s.wants f = !s.streams.isOpen f := by
  cases f with
  | log day => exact absurd rfl hf
  | trades | ticks => rfl

lemma ne_log (hf : f.kind ≠ .log) (day : String) : f ≠ .log day := by
  rintro rfl
  exact hf rfl

/-- What closing the log of the day before leaves. -/
lemma rotate_spec (h : s.Inv) (day : String) (opens : Bool) :
    (s.rotate day opens).Inv ∧ (s.rotate day opens).streams.lines = s.streams.lines ∧
      (s.rotate day opens).streams.isOpen (.log day) = opens ∧
      ∀ g, g.kind ≠ .log → (s.rotate day opens).streams.isOpen g = s.streams.isOpen g ∧
        (s.rotate day opens).streams.flushed g = s.streams.flushed g := by
  obtain ⟨closed, hclosed⟩ : ∃ closed, closed = (match s.curLogName with
    | some old => if s.streams.isOpen (.log old) then s.streams.close (.log old) else s.streams
    | none => s.streams) := ⟨_, rfl⟩
  have hfacts : closed.Settled ∧ closed.lines = s.streams.lines ∧
      (∀ d, closed.isOpen (.log d) = false) ∧
      ∀ g, g.kind ≠ .log → closed.isOpen g = s.streams.isOpen g ∧ closed.flushed g = s.streams.flushed g := by
    have hshut : ∀ d, s.curLogName ≠ some d → s.streams.isOpen (.log d) = false := by
      intro d hd
      rw [Bool.eq_false_iff]
      exact fun hopen => hd (h.current d hopen)
    cases hcur : s.curLogName with
    | none =>
      rw [hclosed, hcur]
      exact ⟨h.settled, rfl, fun d => hshut d (by rw [hcur]; nofun), fun _ _ => ⟨rfl, rfl⟩⟩
    | some old =>
      rw [hcur] at hclosed
      dsimp only at hclosed
      have hother : ∀ d, d ≠ old → s.streams.isOpen (.log d) = false := by
        intro d hd
        apply hshut d
        rw [hcur]
        exact fun heq => hd (Option.some.inj heq).symm
      by_cases hopen : s.streams.isOpen (.log old) = true
      · rw [if_pos hopen] at hclosed
        rw [hclosed]
        refine ⟨h.settled.close (.log old), rfl, ?_, ?_⟩
        · intro d
          by_cases hd : d = old
          · rw [hd, AppendStreams.isOpen_close_self]
          · rw [AppendStreams.isOpen_close_of_ne _ (fun heq => hd (LogFile.log.inj heq))]
            exact hother d hd
        · intro g hg
          exact ⟨AppendStreams.isOpen_close_of_ne _ (ne_log hg old), Function.update_of_ne (ne_log hg old) ..⟩
      · rw [if_neg hopen] at hclosed
        rw [hclosed]
        refine ⟨h.settled, rfl, ?_, fun _ _ => ⟨rfl, rfl⟩⟩
        intro d
        by_cases hd : d = old
        · rw [hd]
          exact Bool.eq_false_iff.mpr hopen
        · exact hother d hd
  obtain ⟨hsettled, hlines, hshut, hsheets⟩ := hfacts
  have hrotate : s.rotate day opens =
      { streams := if opens then closed.openFile (.log day) else closed, curLogName := some day } := by
    rw [hclosed]
    rfl
  rw [hrotate]
  cases opens with
  | false =>
    refine ⟨⟨hsettled, ?_⟩, hlines, hshut day, hsheets⟩
    intro d hopen
    exact absurd hopen (Bool.eq_false_iff.mp (hshut d))
  | true =>
    refine ⟨⟨hsettled.openFile (.log day), ?_⟩, hlines, AppendStreams.isOpen_openFile_self _ _, ?_⟩
    · intro d hopen
      by_cases hd : d = day
      · rw [hd]
      · have hne : LogFile.log d ≠ .log day := fun heq => hd (LogFile.log.inj heq)
        have hshutd := (AppendStreams.isOpen_openFile_of_ne closed hne).symm.trans hopen
        exact absurd hshutd (Bool.eq_false_iff.mp (hshut d))
    · intro g hg
      exact ⟨(AppendStreams.isOpen_openFile_of_ne closed (ne_log hg day)).trans (hsheets g hg).1, (hsheets g hg).2⟩

/-- The log of the day, once its stream has been looked after. -/
lemma current_spec (h : s.Inv) (day : String) (opens : Bool) : ∃ s₁ : LogFiles,
    (∀ line, s.writeLogLine day opens line =
      if s₁.streams.isOpen (.log day) then { s₁ with streams := s₁.streams.write (.log day) line } else s₁) ∧
    s₁.Inv ∧ s₁.curLogName = some day ∧ s₁.streams.lines = s.streams.lines ∧
    ((s.wants (.log day) = true → opens = true) → s.Healthy → s₁.streams.isOpen (.log day) = true) ∧
    ∀ g, g.kind ≠ .log →
      s₁.streams.isOpen g = s.streams.isOpen g ∧ s₁.streams.flushed g = s.streams.flushed g := by
  by_cases hday : s.curLogName = some day
  · refine ⟨s, ?_, h, hday, rfl, fun _ hhealthy => hhealthy day hday, fun _ _ => ⟨rfl, rfl⟩⟩
    intro line
    unfold writeLogLine
    rw [if_pos hday]
  · obtain ⟨hinv, hlines, hopen, hsheets⟩ := rotate_spec h day opens
    refine ⟨s.rotate day opens, ?_, hinv, rfl, hlines, ?_, hsheets⟩
    rotate_left
    · exact fun hopens _ => hopen.trans (hopens (decide_eq_true hday))
    intro line
    unfold writeLogLine
    rw [if_neg hday]

lemma writeLogLine_wrote (h : s.Inv) (day : String) (opens : Bool) (line : String) :
    Wrote s (s.writeLogLine day opens line) (.log day) opens line := by
  obtain ⟨s₁, hwrite, hinv, hday, hlines, hopens, hsheets⟩ := current_spec h day opens
  rw [hwrite]
  by_cases hopen : s₁.streams.isOpen (.log day) = true
  · rw [if_pos hopen]
    constructor
    · exact ⟨hinv.settled.write hopen line, hinv.current⟩
    · intro g hg
      rw [← hlines]
      exact AppendStreams.lines_write_of_ne s₁.streams hg line
    · intro _
      show (s₁.streams.write (.log day) line).lines (.log day) = _
      rw [AppendStreams.lines_write_self, hlines]
      simp [LogFile.header]
    · intro hshut
      exact absurd hopen (Bool.eq_false_iff.mp hshut)
    · exact fun g hg _ => (hsheets g hg).1
    · exact fun g hg => (hsheets g hg).2
    · intro _ _
      refine ⟨hopen, ?_⟩
      intro d hd
      obtain rfl := Option.some.inj (hday.symm.trans hd)
      exact hopen
  · rw [if_neg hopen]
    constructor
    · exact hinv
    · exact fun g _ => congrFun hlines g
    · exact fun hopened => absurd hopened hopen
    · exact fun _ => congrFun hlines _
    · exact fun g hg _ => (hsheets g hg).1
    · exact fun g hg => (hsheets g hg).2
    · exact fun hready hhealthy => absurd (hopens hready hhealthy) hopen

lemma writeHeader_spec (streams : AppendStreams LogFile String) (f : LogFile) :
    (writeHeader streams f).lines f =
      streams.lines f ++ (if streams.lines f ≠ [] then [] else f.header.toList) ∧
    (∀ g, g ≠ f → (writeHeader streams f).lines g = streams.lines g) ∧
    (writeHeader streams f).isOpen = streams.isOpen ∧ (writeHeader streams f).flushed = streams.flushed := by
  unfold writeHeader
  by_cases hfresh : streams.lines f = []
  · rw [if_pos hfresh, if_neg (not_not.mpr hfresh)]
    cases f.header with
    | none => exact ⟨(List.append_nil _).symm, fun _ _ => rfl, rfl, rfl⟩
    | some header =>
      exact ⟨AppendStreams.lines_write_self streams f header,
        fun g hg => AppendStreams.lines_write_of_ne streams hg header, rfl, rfl⟩
  · rw [if_neg hfresh, if_pos hfresh]
    exact ⟨(List.append_nil _).symm, fun _ _ => rfl, rfl, rfl⟩

lemma writeCsv_wrote (h : s.Inv) (hf : f.kind ≠ .log) (opens : Bool) (row : String) :
    Wrote s (s.writeCsv f opens row) f opens row := by
  unfold writeCsv
  by_cases hopen : s.streams.isOpen f = true
  · rw [if_pos hopen]
    constructor
    · exact ⟨h.settled.write hopen row, h.current⟩
    · exact fun g hg => AppendStreams.lines_write_of_ne s.streams hg row
    · intro _
      show (s.streams.write f row).lines f = _
      rw [AppendStreams.lines_write_self, if_pos (.inl hopen), List.append_nil]
    · exact fun hshut => absurd hopen (Bool.eq_false_iff.mp hshut)
    · exact fun _ _ _ => rfl
    · exact fun _ _ => rfl
    · exact fun _ hhealthy => ⟨hopen, hhealthy⟩
  · rw [if_neg hopen]
    cases opens with
    | false =>
      have hwants : s.wants f = true := by
        rw [wants_sheet hf, Bool.eq_false_iff.mpr hopen, Bool.not_false]
      exact ⟨h, fun _ _ => rfl, fun hopened => absurd hopened hopen, fun _ => rfl, fun _ _ _ => rfl,
        fun _ _ => rfl, fun hopens => nomatch hopens hwants⟩
    | true =>
      obtain ⟨hself, hothers, hstreams, hflushed⟩ := writeHeader_spec (s.streams.openFile f) f
      have hopened : (writeHeader (s.streams.openFile f) f).isOpen f = true := by
        rw [hstreams]
        exact AppendStreams.isOpen_openFile_self s.streams f
      have hlogs : ∀ day, (writeHeader (s.streams.openFile f) f).isOpen (.log day) =
          s.streams.isOpen (.log day) := by
        intro day
        rw [hstreams]
        exact AppendStreams.isOpen_openFile_of_ne s.streams (ne_log hf day).symm
      rw [if_pos rfl]
      constructor
      · refine ⟨?_, fun day hday => h.current day ((hlogs day).symm.trans hday)⟩
        refine AppendStreams.Settled.write ?_ hopened row
        intro g hg
        have hgf : g ≠ f := by
          rintro rfl
          exact Bool.eq_false_iff.mp hg hopened
        rw [hothers g hgf, hflushed]
        exact h.settled.openFile f g (hstreams ▸ hg)
      · intro g hg
        exact (AppendStreams.lines_write_of_ne _ hg row).trans (hothers g hg)
      · intro _
        show ((writeHeader (s.streams.openFile f) f).write f row).lines f = _
        rw [AppendStreams.lines_write_self, hself]
        show s.streams.lines f ++ (if s.streams.lines f ≠ [] then [] else f.header.toList) ++ [row] = _
        simp only [hopen, Bool.false_eq_true, false_or]
      · exact fun hshut => absurd hopened (Bool.eq_false_iff.mp hshut)
      · intro g _ hg
        show (writeHeader (s.streams.openFile f) f).isOpen g = _
        rw [hstreams]
        exact AppendStreams.isOpen_openFile_of_ne s.streams hg
      · intro g _
        exact congrFun hflushed g
      · intro _ hhealthy
        exact ⟨hopened, fun day hday => (hlogs day).trans (hhealthy day hday)⟩

/-- `write_entry` writes to the file of the entry, and to no other. -/
lemma writeEntry_wrote (h : s.Inv) (day : String) (opens : Bool) (e : LogEntry) :
    Wrote s (s.writeEntry day opens e) (e.file day) opens e.text := by
  obtain ⟨kind, text⟩ := e
  cases kind with
  | log => exact writeLogLine_wrote h day opens text
  | trade => exact writeCsv_wrote h (by decide) opens text
  | tick => exact writeCsv_wrote h (by decide) opens text

end LogFiles

/-! ## What stands in the files -/

namespace AsyncLogger

abbrev Placed := List (LogEntry × Option LogFile)

/-- The texts written to a file. -/
def textsAt (f : LogFile) (placed : Placed) : List String :=
  placed.filterMap (fun p => if p.2 = some f then some p.1.text else none)

/-- The header stands above the first text of a file that was empty. -/
def heading (existing : LogFile → List String) (f : LogFile) (texts : List String) : List String :=
  if existing f = [] ∧ texts ≠ [] then f.header.toList else []

variable {existing : LogFile → List String} {files files' : LogFiles} {placed : Placed} {failed : Nat}
  {s t : AsyncLogger} {a : Action} {day : String} {opens : Bool}

structure Filed (existing : LogFile → List String) (files : LogFiles) (placed : Placed) (failed : Nat) : Prop where
  inv : files.Inv
  kinds : ∀ e f, (e, some f) ∈ placed → f.kind = e.kind
  content : ∀ f, files.streams.lines f =
    existing f ++ heading existing f (textsAt f placed) ++ textsAt f placed
  started : ∀ f, f.kind ≠ .log → files.streams.isOpen f = true → textsAt f placed ≠ []
  healthy : failed = 0 → files.Healthy ∧ ∀ p ∈ placed, p.2.isSome = true

lemma textsAt_concat (f : LogFile) (placed : Placed) (e : LogEntry) (place : Option LogFile) :
    textsAt f (placed ++ [(e, place)]) = textsAt f placed ++ (if place = some f then [e.text] else []) := by
  unfold textsAt
  rw [List.filterMap_append]
  split_ifs with hplace <;> simp [hplace]

lemma file_kind (e : LogEntry) (day : String) : (e.file day).kind = e.kind := by
  obtain ⟨kind, text⟩ := e
  cases kind <;> rfl

lemma header_log {f : LogFile} (hf : f.kind = .log) : f.header = none := by
  cases f with
  | log day => rfl
  | trades => cases hf
  | ticks => cases hf

/-- A header is put where the file was empty and nothing has been written to it. -/
lemma content_next (h : Filed existing files placed failed) (f : LogFile) (text : String) :
    files.streams.lines f ++
      (if files.streams.isOpen f = true ∨ files.streams.lines f ≠ [] then [] else f.header.toList) ++ [text] =
    existing f ++ heading existing f (textsAt f placed ++ [text]) ++ (textsAt f placed ++ [text]) := by
  have hcontent := h.content f
  by_cases htexts : textsAt f placed = []
  · have hshut : f.kind ≠ .log → files.streams.isOpen f = false :=
      fun hf => Bool.eq_false_iff.mpr (fun hopen => h.started f hf hopen htexts)
    have hnone : heading existing f [] = [] := if_neg (fun hrows => hrows.2 rfl)
    rw [htexts, hnone, List.append_nil, List.append_nil] at hcontent
    rw [htexts, List.nil_append, hcontent]
    by_cases hf : f.kind = .log
    · unfold heading
      rw [header_log hf, Option.toList_none, ite_self, ite_self]
    · unfold heading
      rw [hshut hf]
      by_cases hfresh : existing f = []
      · rw [if_neg (by simpa using hfresh), if_pos ⟨hfresh, List.cons_ne_nil _ _⟩]
      · rw [if_pos (.inr hfresh), if_neg (fun hboth => hfresh hboth.1)]
  · have hlines : files.streams.lines f ≠ [] := by
      rw [hcontent]
      exact fun hnil => htexts (List.append_eq_nil_iff.mp hnil).2
    have hsame : heading existing f (textsAt f placed ++ [text]) = heading existing f (textsAt f placed) := by
      unfold heading
      simp only [htexts, ne_eq, not_false_eq_true, and_true, List.append_eq_nil_iff, false_and]
    rw [if_pos (.inr hlines), hsame, hcontent, List.append_nil, List.append_assoc]

lemma Filed.put (h : Filed existing files placed failed) (day : String) (opens : Bool) (e : LogEntry) :
    Filed existing (files.writeEntry day opens e)
      (placed ++ [(e, if lands files day opens e then some (e.file day) else none)])
      (failed + (if files.wants (e.file day) && !opens then 1 else 0)) := by
  have hwrote := LogFiles.writeEntry_wrote h.inv day opens e
  have hready : failed + (if files.wants (e.file day) && !opens then 1 else 0) = 0 →
      failed = 0 ∧ (files.wants (e.file day) = true → opens = true) := by
    intro hfailed
    refine ⟨by omega, fun hwants => ?_⟩
    by_contra hshut
    simp [hwants, hshut] at hfailed
  by_cases hlands : lands files day opens e = true
  · rw [if_pos hlands]
    have hself : textsAt (e.file day) (placed ++ [(e, some (e.file day))]) =
        textsAt (e.file day) placed ++ [e.text] := by
      rw [textsAt_concat, if_pos rfl]
    have hother : ∀ g, g ≠ e.file day →
        textsAt g (placed ++ [(e, some (e.file day))]) = textsAt g placed := by
      intro g hg
      rw [textsAt_concat, if_neg (fun heq => hg (Option.some.inj heq).symm), List.append_nil]
    constructor
    · exact hwrote.inv
    · intro e' f hmem
      rcases List.mem_append.mp hmem with hold | hnew
      · exact h.kinds e' f hold
      · obtain ⟨rfl, hf⟩ := Prod.mk.inj (List.mem_singleton.mp hnew)
        rw [Option.some.inj hf]
        exact file_kind e' day
    · intro f
      by_cases hf : f = e.file day
      · rw [hf, hself, hwrote.landed hlands, content_next h]
      · rw [hwrote.others f hf, hother f hf]
        exact h.content f
    · intro f hkind hopen
      by_cases hf : f = e.file day
      · rw [hf, hself]
        simp
      · rw [hother f hf]
        exact h.started f hkind ((hwrote.sheets f hkind hf).symm.trans hopen)
    · intro hfailed
      obtain ⟨hnone, hopens⟩ := hready hfailed
      have hbefore := h.healthy hnone
      refine ⟨(hwrote.healthy hopens hbefore.1).2, ?_⟩
      rw [List.forall_mem_append, List.forall_mem_singleton]
      exact ⟨hbefore.2, rfl⟩
  · have hshut : (files.writeEntry day opens e).streams.isOpen (e.file day) = false :=
      Bool.eq_false_iff.mpr hlands
    rw [if_neg hlands]
    have htexts : ∀ f, textsAt f (placed ++ [(e, none)]) = textsAt f placed := by
      intro f
      rw [textsAt_concat, if_neg nofun, List.append_nil]
    constructor
    · exact hwrote.inv
    · intro e' f hmem
      rcases List.mem_append.mp hmem with hold | hnew
      · exact h.kinds e' f hold
      · cases (Prod.mk.inj (List.mem_singleton.mp hnew)).2
    · intro f
      rw [htexts]
      by_cases hf : f = e.file day
      · rw [hf, hwrote.missed hshut]
        exact h.content _
      · rw [hwrote.others f hf]
        exact h.content f
    · intro f hkind hopen
      rw [htexts]
      by_cases hf : f = e.file day
      · rw [hf, hshut] at hopen
        cases hopen
      · exact h.started f hkind ((hwrote.sheets f hkind hf).symm.trans hopen)
    · intro hfailed
      obtain ⟨hnone, hopens⟩ := hready hfailed
      exact absurd (hwrote.healthy hopens (h.healthy hnone).1).1 hlands

lemma Filed.flushAll (h : Filed existing files placed failed) : Filed existing files.flushAll placed failed where
  inv := by
    refine ⟨?_, h.inv.current⟩
    intro f hf
    exact congrFun h.inv.settled.flushed_flush f
  kinds := h.kinds
  content := h.content
  started := h.started
  healthy := h.healthy

/-! ## Every run of the logger -/

/-- All that has been written is flushed. -/
def Durable (files : LogFiles) : Prop := files.streams.flushed = files.streams.lines

structure Inv (existing : LogFile → List String) (s : AsyncLogger) : Prop where
  sound : s.mail.Sound
  hand : s.mail.batch.length = if s.phase = .holding then 1 else 0
  filed : Filed existing s.files s.placed s.failed
  placed : s.placed.map Prod.fst = s.mail.handled
  idle : s.phase = .waiting → s.mail.queue = [] → Durable s.files
  stopped : s.phase = .absent ∨ s.phase = .leaving ∨ s.phase = .exited → Durable s.files
  trades : s.phase ≠ .settling .trade → s.phase ≠ .draining →
    s.files.streams.flushed .trades = s.files.streams.lines .trades

lemma Inv.empty_handed (h : s.Inv existing) (hphase : s.phase ≠ .holding) : s.mail.batch = [] := by
  have hhand := h.hand
  rw [if_neg hphase] at hhand
  exact List.length_eq_zero_iff.mp hhand

lemma Durable.trades {files : LogFiles} (h : Durable files) :
    files.streams.flushed .trades = files.streams.lines .trades := congrFun h _

lemma Filed.durable (h : Filed existing files placed failed) : Durable files.flushAll :=
  h.inv.settled.flushed_flush

/-- A line that is no trade leaves the file of the trades alone. -/
lemma writeEntry_trades (h : files.Inv) (day : String) (opens : Bool) {e : LogEntry} (he : e.kind ≠ .trade) :
    (files.writeEntry day opens e).streams.lines .trades = files.streams.lines .trades ∧
      (files.writeEntry day opens e).streams.flushed .trades = files.streams.flushed .trades := by
  have hwrote := LogFiles.writeEntry_wrote h day opens e
  have hne : LogFile.trades ≠ e.file day := by
    intro heq
    have hkind := file_kind e day
    rw [← heq] at hkind
    exact he hkind.symm
  exact ⟨hwrote.others .trades hne, hwrote.flushed .trades (by decide)⟩

lemma Inv.push (h : s.Inv existing) (e : LogEntry) : ({ s with mail := s.mail.push e } : AsyncLogger).Inv existing where
  sound := h.sound.push e
  hand := h.hand
  filed := h.filed
  placed := h.placed
  idle _ hqueue := absurd hqueue (by simp [Mailbox.push])
  stopped := h.stopped
  trades := h.trades

/-- The writer goes from one place without an entry in hand to another; nothing is written. -/
lemma Inv.go (h : s.Inv existing) (hphase : s.phase ≠ .holding) {next : WriterPhase} (hnext : next ≠ .holding)
    (running : Bool) (hdurable : Durable s.files) :
    ({ s with running := running, phase := next } : AsyncLogger).Inv existing where
  sound := h.sound
  hand := by
    show s.mail.batch.length = if next = .holding then 1 else 0
    rw [h.empty_handed hphase, if_neg hnext]
    rfl
  filed := h.filed
  placed := h.placed
  idle _ _ := hdurable
  stopped _ := hdurable
  trades _ _ := hdurable.trades

lemma Inv.take (h : s.Inv existing) (hphase : s.phase = .waiting) (hqueue : s.mail.queue ≠ []) :
    ({ s with mail := s.mail.take, phase := .holding } : AsyncLogger).Inv existing where
  sound := h.sound.take (h.empty_handed (by rw [hphase]; decide))
  hand := by
    show (s.mail.queue.take 1).length = _
    have hpos := List.length_pos_iff.mpr hqueue
    rw [List.length_take, if_pos rfl]
    omega
  filed := h.filed
  placed := h.placed
  idle := nofun
  stopped := by rintro (hnext | hnext | hnext) <;> cases hnext
  trades _ _ := h.trades (by rw [hphase]; decide) (by rw [hphase]; decide)

lemma Inv.write (h : s.Inv existing) (hphase : s.phase = .holding) {e : LogEntry}
    (he : s.mail.batch.head? = some e) (day : String) (opens : Bool) :
    ({ s.put day opens e with mail := s.mail.handle, phase := .settling e.kind } : AsyncLogger).Inv existing := by
  have hhand := h.hand
  rw [if_pos hphase] at hhand
  obtain ⟨item, hbatch⟩ := List.length_eq_one_iff.mp hhand
  rw [hbatch, List.head?_cons, Option.some.injEq] at he
  rw [he] at hbatch
  constructor
  · exact h.sound.handle
  · show s.mail.batch.tail.length = _
    rw [hbatch, if_neg (by simp)]
    rfl
  · exact h.filed.put day opens e
  · show (s.placed ++ [_]).map Prod.fst = s.mail.handled ++ s.mail.batch.take 1
    rw [List.map_append, h.placed, hbatch]
    rfl
  · exact nofun
  · rintro (hnext | hnext | hnext) <;> cases hnext
  · intro hkind _
    have hne : e.kind ≠ .trade := fun heq => hkind (congrArg WriterPhase.settling heq)
    have hbefore := h.trades (by rw [hphase]; decide) (by rw [hphase]; decide)
    obtain ⟨hlines, hflushed⟩ := writeEntry_trades h.filed.inv day opens hne
    exact hflushed.trans (hbefore.trans hlines.symm)

lemma Inv.drainOne (h : s.Inv existing) (hphase : s.phase = .draining) {e : LogEntry}
    (he : s.mail.queue.head? = some e) (day : String) (opens : Bool) :
    ({ s.put day opens e with mail := s.mail.take.handle } : AsyncLogger).Inv existing := by
  have hbatch := h.empty_handed (by rw [hphase]; decide)
  obtain ⟨rest, hqueue⟩ := List.head?_eq_some_iff.mp he
  constructor
  · exact (h.sound.take hbatch).handle
  · show (s.mail.queue.take 1).tail.length = if s.phase = .holding then 1 else 0
    rw [hphase, hqueue]
    rfl
  · exact h.filed.put day opens e
  · show (s.placed ++ [_]).map Prod.fst = s.mail.handled ++ (s.mail.queue.take 1).take 1
    rw [List.map_append, h.placed, hqueue]
    rfl
  · intro hwaiting
    cases hphase.symm.trans hwaiting
  · rintro (hnext | hnext | hnext) <;> cases hphase.symm.trans hnext
  · exact fun _ hnext => absurd hphase hnext

lemma Inv.settle (h : s.Inv existing) {kind : LogKind} (hphase : s.phase = .settling kind) :
    ({ s with
      phase := .waiting
      files := if kind = .trade ∨ s.mail.queue = [] then s.files.flushAll else s.files } :
      AsyncLogger).Inv existing := by
  have hbatch := h.empty_handed (by rw [hphase]; nofun)
  have hfiled : Filed existing (if kind = .trade ∨ s.mail.queue = [] then s.files.flushAll else s.files)
      s.placed s.failed := by
    split
    · exact h.filed.flushAll
    · exact h.filed
  constructor
  · exact h.sound
  · show s.mail.batch.length = _
    rw [hbatch]
    rfl
  · exact hfiled
  · exact h.placed
  · intro _ hqueue
    show Durable (if kind = .trade ∨ s.mail.queue = [] then s.files.flushAll else s.files)
    rw [if_pos (.inr hqueue)]
    exact h.filed.durable
  · rintro (hnext | hnext | hnext) <;> cases hnext
  · intro _ _
    show (if kind = .trade ∨ s.mail.queue = [] then s.files.flushAll else s.files).streams.flushed .trades =
      (if kind = .trade ∨ s.mail.queue = [] then s.files.flushAll else s.files).streams.lines .trades
    by_cases hflush : kind = .trade ∨ s.mail.queue = []
    · rw [if_pos hflush]
      exact h.filed.durable.trades
    · rw [if_neg hflush]
      refine h.trades ?_ (by rw [hphase]; nofun)
      rw [hphase]
      exact fun heq => hflush (.inl (WriterPhase.settling.inj heq))

lemma Inv.relock (h : s.Inv existing) (hphase : s.phase = .leaving) :
    ({ s with phase := .draining } : AsyncLogger).Inv existing where
  sound := h.sound
  hand := by
    show s.mail.batch.length = _
    rw [h.empty_handed (by rw [hphase]; decide)]
    rfl
  filed := h.filed
  placed := h.placed
  idle := nofun
  stopped := by rintro (hnext | hnext | hnext) <;> cases hnext
  trades _ hnext := absurd rfl hnext

lemma Inv.finish (h : s.Inv existing) (hphase : s.phase = .draining) :
    ({ s with phase := .exited, files := s.files.flushAll } : AsyncLogger).Inv existing where
  sound := h.sound
  hand := by
    show s.mail.batch.length = _
    rw [h.empty_handed (by rw [hphase]; decide)]
    rfl
  filed := h.filed.flushAll
  placed := h.placed
  idle := nofun
  stopped _ := h.filed.durable
  trades _ _ := h.filed.durable.trades

lemma Inv.step (h : s.Inv existing) (hstep : s.step a = some t) : t.Inv existing := by
  cases step_moves hstep with
  | push e => exact h.push e
  | running => exact h
  | start _ habsent => exact h.go (by rw [habsent]; decide) (by decide) true (h.stopped (.inl habsent))
  | stop => exact ⟨h.sound, h.hand, h.filed, h.placed, h.idle, h.stopped, h.trades⟩
  | join hexited =>
    exact h.go (by rw [hexited]; decide) (by decide) s.running (h.stopped (.inr (.inr hexited)))
  | leave hwaiting hqueue =>
    exact h.go (by rw [hwaiting]; decide) (by decide) s.running (h.idle hwaiting hqueue)
  | take hwaiting hqueue => exact h.take hwaiting hqueue
  | write day opens e hholding he => exact h.write hholding he day opens
  | drain day opens e hdraining he => exact h.drainOne hdraining he day opens
  | settle kind hsettling => exact h.settle hsettling
  | relock hleaving => exact h.relock hleaving
  | finish hdraining => exact h.finish hdraining

lemma reachable_inv (hs : (machine existing).Reachable s) : s.Inv existing := by
  refine Machine.invariant _ (I := Inv existing) ?_ (fun _ _ _ _ h hstep => h.step hstep) hs
  constructor
  · exact Mailbox.sound_empty
  · rfl
  · constructor
    · exact ⟨fun _ _ => rfl, nofun⟩
    · intro e f hmem
      cases hmem
    · intro f
      show existing f = existing f ++ heading existing f [] ++ []
      rw [heading, if_neg (fun hrows => hrows.2 rfl), List.append_nil, List.append_nil]
    · exact nofun
    · exact fun _ => ⟨nofun, fun p hp => absurd hp List.not_mem_nil⟩
  · rfl
  · exact nofun
  · exact fun _ => rfl
  · exact fun _ _ => rfl

/-- Every entry is written once and in the order of the queue: the lines of a file are those it had, a header
where it was empty, and the texts of the entries of its kind. An entry has no place only if a file could not
be opened. -/
theorem log_files_exact (hs : (machine existing).Reachable s) :
    s.placed.map Prod.fst = s.mail.handled ∧ s.mail.handled <+: s.mail.pushed ∧
    (∀ f, s.files.streams.lines f =
      existing f ++ heading existing f (textsAt f s.placed) ++ textsAt f s.placed) ∧
    (∀ e f, (e, some f) ∈ s.placed → f.kind = e.kind) ∧
    (s.failed = 0 → ∀ p ∈ s.placed, p.2.isSome = true) := by
  have h := reachable_inv hs
  exact ⟨h.placed, h.sound.handled_prefix, h.filed.content, h.filed.kinds, fun hfailed => (h.filed.healthy hfailed).2⟩

/-! ## How long the writer needs -/

/-- What the writer does itself. -/
def own : Action → Bool
  | .wake | .write _ _ | .settle | .relock | .finish => true
  | _ => false

/-- The steps of the writer until it has written the first `n` entries. -/
def work (n : Nat) (s : AsyncLogger) : Nat :=
  if n ≤ s.mail.handled.length then 0
  else
    match s.phase with
    | .holding => 3 * (n - s.mail.handled.length) - 1
    | .settling _ => 3 * (n - s.mail.handled.length) + 1
    | .leaving => n - s.mail.handled.length + 1
    | .draining => n - s.mail.handled.length
    | _ => 3 * (n - s.mail.handled.length)

/-- The writer is there, or it has written the first `n` entries. -/
structure Serves (existing : LogFile → List String) (n : Nat) (s : AsyncLogger) : Prop where
  inv : s.Inv existing
  pushed : n ≤ s.mail.pushed.length
  active : s.mail.handled.length < n → s.phase ≠ .absent ∧ s.phase ≠ .exited

variable {n : Nat}

lemma work_le (n : Nat) (s : AsyncLogger) : s.work n ≤ 3 * (n - s.mail.handled.length) + 1 := by
  unfold work
  split_ifs
  · exact Nat.zero_le _
  · split <;> omega

lemma work_eq_zero_iff : s.work n = 0 ↔ n ≤ s.mail.handled.length := by
  unfold work
  split_ifs with hdone
  · exact iff_of_true rfl hdone
  · split <;> omega

lemma work_of_missing (hmissing : s.mail.handled.length < n) : s.work n =
    match s.phase with
    | .holding => 3 * (n - s.mail.handled.length) - 1
    | .settling _ => 3 * (n - s.mail.handled.length) + 1
    | .leaving => n - s.mail.handled.length + 1
    | .draining => n - s.mail.handled.length
    | _ => 3 * (n - s.mail.handled.length) :=
  if_neg (by omega)

lemma length_handle_take {m : Mailbox LogEntry} (hqueue : m.queue ≠ []) :
    m.take.handle.handled.length = m.handled.length + 1 := by
  obtain ⟨item, rest, hitems⟩ := List.exists_cons_of_ne_nil hqueue
  unfold Mailbox.take Mailbox.handle
  rw [hitems]
  simp

/-- What a step does to the work that is left. -/
lemma step_work (h : s.Serves existing n) (hstep : s.step a = some t) (hmissing : s.mail.handled.length < n) :
    t.work n ≤ s.work n - (if own a = true then 1 else 0) ∧
      (t.mail.handled.length < n → t.phase ≠ .absent ∧ t.phase ≠ .exited) := by
  obtain ⟨habsent, hexited⟩ := h.active hmissing
  have hlength := h.inv.sound.length_eq
  have hpushed := h.pushed
  have hleft : s.phase ≠ .holding → s.mail.queue ≠ [] := by
    intro hphase hnil
    rw [h.inv.empty_handed hphase, hnil, List.length_nil] at hlength
    omega
  cases step_moves hstep with
  | push | running | stop => exact ⟨le_rfl, fun _ => ⟨habsent, hexited⟩⟩
  | start _ hphase => exact absurd hphase habsent
  | join hphase => exact absurd hphase hexited
  | leave hwaiting hqueue => exact absurd hqueue (hleft (by rw [hwaiting]; decide))
  | take hwaiting =>
    refine ⟨?_, fun _ => ⟨nofun, nofun⟩⟩
    rw [work_of_missing hmissing, work_of_missing (by exact hmissing), hwaiting]
    exact le_rfl
  | write day opens e hholding he =>
    have hbatch : s.mail.batch ≠ [] := by
      rintro hnil
      rw [hnil] at he
      cases he
    have hhandled := (Mailbox.length_handle hbatch).1
    refine ⟨?_, fun _ => ⟨nofun, nofun⟩⟩
    rw [work_of_missing hmissing, hholding]
    unfold work
    dsimp only
    rw [hhandled]
    split_ifs <;> omega
  | drain day opens e hdraining he =>
    have hhandled := length_handle_take (hleft (by rw [hdraining]; decide))
    have hkept : (s.put day opens e).phase = .draining := hdraining
    refine ⟨?_, fun _ => ⟨by rw [hkept]; decide, by rw [hkept]; decide⟩⟩
    rw [work_of_missing hmissing, hdraining]
    unfold work
    dsimp only
    rw [hhandled, hkept]
    dsimp only
    split_ifs <;> omega
  | settle kind hsettling =>
    refine ⟨?_, fun _ => ⟨nofun, nofun⟩⟩
    rw [work_of_missing hmissing, work_of_missing (by exact hmissing), hsettling]
    exact le_rfl
  | relock hleaving =>
    refine ⟨?_, fun _ => ⟨nofun, nofun⟩⟩
    rw [work_of_missing hmissing, work_of_missing (by exact hmissing), hleaving]
    exact le_rfl
  | finish hdraining hqueue => exact absurd hqueue (hleft (by rw [hdraining]; decide))

lemma mail_grows (hstep : s.step a = some t) :
    s.mail.handled <+: t.mail.handled ∧ s.mail.pushed <+: t.mail.pushed := by
  cases step_moves hstep with
  | push e => exact ⟨List.prefix_rfl, List.prefix_append ..⟩
  | write | drain => exact ⟨List.prefix_append .., List.prefix_rfl⟩
  | _ => exact ⟨List.prefix_rfl, List.prefix_rfl⟩

/-- A step of the writer takes one unit off the work, and no step adds to it. -/
lemma serves_step (h : s.Serves existing n) (hstep : s.step a = some t) :
    t.Serves existing n ∧ t.work n ≤ s.work n - (if own a = true then 1 else 0) := by
  obtain ⟨hhandled, hpushed⟩ := mail_grows hstep
  have hpushedLe := h.pushed.trans hpushed.length_le
  by_cases hmissing : s.mail.handled.length < n
  · obtain ⟨hwork, hactive⟩ := step_work h hstep hmissing
    exact ⟨⟨h.inv.step hstep, hpushedLe, hactive⟩, hwork⟩
  · have hdone : n ≤ t.mail.handled.length := (not_lt.mp hmissing).trans hhandled.length_le
    rw [work_eq_zero_iff.mpr hdone]
    exact ⟨⟨h.inv.step hstep, hpushedLe, fun hlt => absurd hdone (not_le.mpr hlt)⟩, Nat.zero_le _⟩

/-- As long as an entry is left, a writer that is there can take a step. -/
lemma own_possible (h : s.Inv existing) (habsent : s.phase ≠ .absent) (hexited : s.phase ≠ .exited)
    (hleft : s.mail.handled ≠ s.mail.pushed) : ∃ a t, own a = true ∧ s.step a = some t := by
  have hqueue : s.phase ≠ .holding → s.mail.queue ≠ [] := by
    intro hphase hnil
    have hsound : s.mail.handled ++ s.mail.batch ++ s.mail.queue = s.mail.pushed := h.sound
    rw [h.empty_handed hphase, hnil, List.append_nil, List.append_nil] at hsound
    exact hleft hsound
  cases hphase : s.phase with
  | absent => exact absurd hphase habsent
  | waiting =>
    refine ⟨.wake, { s with mail := s.mail.take, phase := .holding }, rfl, ?_⟩
    rw [AsyncLogger.step, if_pos hphase, if_neg (hqueue (by rw [hphase]; decide))]
  | holding =>
    have hhand := h.hand
    rw [if_pos hphase] at hhand
    obtain ⟨e, hbatch⟩ := List.length_eq_one_iff.mp hhand
    refine ⟨.write "" true, { s.put "" true e with mail := s.mail.handle, phase := .settling e.kind }, rfl, ?_⟩
    simp only [AsyncLogger.step, hphase, hbatch, List.head?_cons, Option.map_some]
  | settling kind =>
    obtain ⟨files, hfiles⟩ : ∃ files, files =
      if kind = .trade ∨ s.mail.queue = [] then s.files.flushAll else s.files := ⟨_, rfl⟩
    refine ⟨.settle, { s with phase := .waiting, files := files }, rfl, ?_⟩
    simp only [AsyncLogger.step, hphase, hfiles]
  | leaving => exact ⟨.relock, { s with phase := .draining }, rfl, if_pos hphase⟩
  | draining =>
    obtain ⟨e, rest, hrest⟩ := List.exists_cons_of_ne_nil (hqueue (by rw [hphase]; decide))
    refine ⟨.write "" true, { s.put "" true e with mail := s.mail.take.handle }, rfl, ?_⟩
    simp only [AsyncLogger.step, hphase, hrest, List.head?_cons, Option.map_some]
  | exited => exact absurd hphase hexited

/-- A step of the drain writes the front entry and flushes no sheet, or it ends the drain with an empty
queue and everything flushed. -/
inductive Drains (s t : AsyncLogger) : Prop where
  | one (phase : t.phase = .draining) (pushed : t.mail.pushed = s.mail.pushed) (e : LogEntry)
      (front : s.mail.queue = e :: t.mail.queue)
      (unflushed : ∀ f : LogFile, f.kind ≠ .log → t.files.streams.flushed f = s.files.streams.flushed f)
  | done (phase : t.phase = .exited) (written : t.mail.handled = t.mail.pushed) (durable : Durable t.files)

lemma drains (h : s.Inv existing) (hphase : s.phase = .draining) (hstep : s.step a = some t) :
    s.Drains t := by
  have hlocked : s.locked = true := decide_eq_true hphase
  cases step_moves hstep with
  | push _ hfree | running hfree | start hfree | stop hfree => cases hlocked.symm.trans hfree
  | join hother | leave hother | take hother | write _ _ _ hother | settle _ hother | relock hother =>
    cases hphase.symm.trans hother
  | drain day opens e _ he =>
    obtain ⟨rest, hqueue⟩ := List.head?_eq_some_iff.mp he
    have htail : s.mail.take.handle.queue = rest := by
      show s.mail.queue.tail = rest
      rw [hqueue, List.tail_cons]
    refine .one hphase rfl e ?_ (LogFiles.writeEntry_wrote h.filed.inv day opens e).flushed
    rw [htail]
    exact hqueue
  | finish _ hqueue =>
    refine .done rfl ?_ h.filed.durable
    have hsound : s.mail.handled ++ s.mail.batch ++ s.mail.queue = s.mail.pushed := h.sound
    rw [h.empty_handed (by rw [hphase]; decide), hqueue, List.append_nil, List.append_nil] at hsound
    exact hsound

/-- Whenever the writer is about to wait for an empty queue, when it leaves its loop and when it has ended,
all that it has written is flushed, and in the loop a trade is flushed before the next entry is taken. The
drain, into which no producer gets, writes one entry at a step and flushes only at its end, when all that
was pushed is written: a trade that was pushed between the loop and the drain waits for that. As long as an
entry is left the writer can go on, and whatever the producers and `stop` do in between, what has been pushed
is written once the writer has taken three steps for each entry and one more. -/
theorem log_durable (hs : (machine existing).Reachable s) :
    (s.phase = .waiting ∧ s.mail.queue = [] ∨ s.phase = .leaving ∨ s.phase = .exited → Durable s.files) ∧
    (s.phase = .waiting ∨ s.phase = .holding →
      s.files.streams.flushed .trades = s.files.streams.lines .trades) ∧
    (s.phase = .draining → ∀ a t, s.step a = some t → s.Drains t) ∧
    (s.phase = .exited → s.mail.handled ++ s.mail.queue = s.mail.pushed) ∧
    (s.phase ≠ .absent → s.phase ≠ .exited → s.mail.handled ≠ s.mail.pushed →
      ∃ a t, own a = true ∧ s.step a = some t) ∧
    ∀ as t, s.phase ≠ .absent → s.phase ≠ .exited → (machine existing).run s as = some t →
      3 * (s.mail.pushed.length - s.mail.handled.length) + 1 ≤ as.countP own →
      s.mail.pushed <+: t.mail.handled := by
  have h := reachable_inv hs
  refine ⟨?_, ?_, fun hphase a t hstep => drains h hphase hstep, ?_, own_possible h, ?_⟩
  · rintro (⟨hphase, hqueue⟩ | hphase)
    · exact h.idle hphase hqueue
    · exact h.stopped (.inr hphase)
  · rintro (hphase | hphase)
    · exact h.trades (by rw [hphase]; nofun) (by rw [hphase]; nofun)
    · exact h.trades (by rw [hphase]; nofun) (by rw [hphase]; nofun)
  · intro hexited
    have hsound : s.mail.handled ++ s.mail.batch ++ s.mail.queue = s.mail.pushed := h.sound
    rw [h.empty_handed (by rw [hexited]; decide), List.append_nil] at hsound
    exact hsound
  · intro as t habsent hexited hrun hsteps
    have hserves : s.Serves existing s.mail.pushed.length := ⟨h, le_rfl, fun _ => ⟨habsent, hexited⟩⟩
    have hleft : t.work s.mail.pushed.length ≤ s.work s.mail.pushed.length - as.countP own :=
      (machine existing).run_work_le (fun _ _ _ h (_ : True) hstep => serves_step h hstep) hserves
        (fun _ _ => trivial) hrun
    have hbound := work_le s.mail.pushed.length s
    have hdone : s.mail.pushed.length ≤ t.mail.handled.length := work_eq_zero_iff.mp (by omega)
    have hend : s.mail.pushed <+: t.mail.pushed ∧ t.Inv existing := by
      refine (machine existing).run_keeps (I := fun u => s.mail.pushed <+: u.mail.pushed ∧ u.Inv existing) ?_
        ⟨List.prefix_rfl, h⟩ hrun
      intro u b v hu hstep
      exact ⟨hu.1.trans (mail_grows hstep).2, hu.2.step hstep⟩
    exact hend.2.sound.prefix_handled hend.1 hdone

/-- A day of the logger: a line and a trade, and `stop` while the trade is being written. -/
def tradingDay : List Action :=
  [.start, .push ⟨.log, "ORDER BUY"⟩, .push ⟨.trade, "1700000000000,buy"⟩, .wake, .write "20240101" true, .settle,
    .wake, .stop, .push ⟨.log, "bye"⟩, .write "20240101" true, .settle]

theorem log_files_exact_tradingDay :
    ∃ s, (machine (fun _ => [])).run (machine (fun _ => [])).init tradingDay = some s ∧
      s.files.streams.lines .trades = [LogFile.tradeHeader, "1700000000000,buy"] ∧
      s.files.streams.lines .trades = heading (fun _ => []) .trades (textsAt .trades s.placed) ++
        textsAt .trades s.placed := by
  have hrun : ((machine (fun _ => [])).run (machine (fun _ => [])).init tradingDay).map
      (fun s => s.files.streams.lines .trades) = some [LogFile.tradeHeader, "1700000000000,buy"] := by
    decide +kernel
  obtain ⟨s, hs, hlines⟩ := Option.map_eq_some_iff.mp hrun
  exact ⟨s, hs, hlines, (log_files_exact ⟨_, hs⟩).2.2.1 .trades⟩

/-- The last line of the day is written, and a trade and a line are pushed behind the loop. -/
def lateTrade : List Action :=
  [.wake, .write "20240102" true, .settle, .wake, .push ⟨.trade, "1704153600000,sell"⟩, .push ⟨.log, "late"⟩,
    .relock, .write "20240102" true]

/-- The late trade is not flushed while the drain writes the late line, but it is when the writer ends. -/
theorem log_durable_lateTrade :
    ∃ s u t, (machine (fun _ => [])).run (machine (fun _ => [])).init tradingDay = some s ∧
      (machine (fun _ => [])).run s lateTrade = some u ∧
      (machine (fun _ => [])).run u [.write "20240102" true, .finish] = some t ∧
      u.files.streams.lines .trades = u.files.streams.flushed .trades ++ ["1704153600000,sell"] ∧
      s.mail.pushed <+: u.mail.handled ∧ t.mail.handled = t.mail.pushed ∧ Durable t.files := by
  have hrun : (((machine (fun _ => [])).run (machine (fun _ => [])).init tradingDay).bind (fun s =>
      ((machine (fun _ => [])).run s lateTrade).bind (fun u =>
        ((machine (fun _ => [])).run u [.write "20240102" true, .finish]).map (fun t =>
          ((s.phase, s.mail.pushed.length, s.mail.handled.length),
            (u.files.streams.flushed .trades, u.files.streams.lines .trades), t.phase, t.mail.queue.length))))) =
      some ((.waiting, 3, 2),
        ([LogFile.tradeHeader, "1700000000000,buy"],
          [LogFile.tradeHeader, "1700000000000,buy", "1704153600000,sell"]), .exited, 0) := by
    decide +kernel
  obtain ⟨s, hs, hrest⟩ := Option.bind_eq_some_iff.mp hrun
  obtain ⟨u, hu, hrest⟩ := Option.bind_eq_some_iff.mp hrest
  obtain ⟨t, ht, hfacts⟩ := Option.map_eq_some_iff.mp hrest
  simp only [Prod.mk.injEq] at hfacts
  obtain ⟨⟨hwaiting, hpushed, hhandled⟩, ⟨hflushed, hlines⟩, hexited, hqueue⟩ := hfacts
  have hreach : (machine (fun _ => [])).Reachable s := ⟨_, hs⟩
  have hend : (machine (fun _ => [])).Reachable t := ⟨_, Machine.run_trans _ (Machine.run_trans _ hs hu) ht⟩
  obtain ⟨hdurable, -, -, hwritten, -⟩ := log_durable hend
  have hall := hwritten hexited
  rw [List.length_eq_zero_iff.mp hqueue, List.append_nil] at hall
  refine ⟨s, u, t, hs, hu, ht, by rw [hlines, hflushed]; rfl, ?_, hall, hdurable (.inr (.inr hexited))⟩
  refine (log_durable hreach).2.2.2.2.2 _ u (by rw [hwaiting]; decide) (by rw [hwaiting]; decide) hu ?_
  rw [hpushed, hhandled]
  decide

end AsyncLogger

end LeadLag

end LatencyArb
