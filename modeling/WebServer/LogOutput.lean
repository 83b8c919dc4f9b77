import WebServer.LogPages
import WebServer.LogRecord
import WebServer.Once

/-! `output`, to which the destructor of `Logger` hands each record. The first thread that logs makes the
`AsyncLogging` and starts it, and the others wait for that; then each appends its record. A record is never
longer than the buffer it was put together in, so none is refused for its length. Here the writes to the file
succeed; `LogFwrite` says what becomes of the records where they do not. -/

namespace WebServer

open Runs

/-- A `LOG` expression that goes through, and the record that its destructor hands to `output`. -/
structure LogRecord where
  fileName : Bytes
  line : IntValue .int
  time : TimeText
  operands : List Operand
  output : Bytes
  handed : Logger.record fileName line time operands = .ok output

namespace LogRecord

theorem output_length (r : LogRecord) : r.output.length < kSmallBuffer := Logger.record_length r.handed

/-- The line that is appended. Its length fits into an `int`. -/
def logLine (r : LogRecord) : LogLine := ⟨r.output, by
  have hlength := r.output_length
  have hsmall : kSmallBuffer = 4096 := rfl
  omega⟩

end LogRecord

namespace AsyncLogging

/-- After the constructor. -/
def constructed : AsyncLogging := { started with running := false }

/-- `start`, up to its return. -/
def start (s : AsyncLogging) : AsyncLogging := { s with running := true }

/-- A step of the logger as that of a plain system: a record that is appended, or a step of the writer. -/
def logStep : LogRecord ⊕ Unit → LogStep
  | .inl r => .append r.logLine
  | .inr _ => .writer

end AsyncLogging

namespace Logging

/-- `AsycnLogger`. -/
abbrev LoggerPtr := Option AsyncLogging

/-- `once_init`: the logger is made, and then started. -/
def onceInit : List (LoggerPtr → LoggerPtr) :=
  [fun _ => some .constructed, fun logger => logger.map AsyncLogging.start]

/-- `AsycnLogger->append(msg, len)`. -/
def append (logger : LoggerPtr) (r : LogRecord) : Option (LoggerPtr × Option LogRecord) :=
  (logger.bind fun log => log.step (.append r.logLine)).map fun log => (some log, none)

def writer (logger : LoggerPtr) (_ : Unit) : Option LoggerPtr :=
  (logger.bind fun log => log.step .writer).map some

def system : Once.System LoggerPtr LogRecord Unit := ⟨none, onceInit, append, writer⟩

/-- The threads that log. -/
abbrev Threads (ι : Type) := Once.State ι LoggerPtr LogRecord

variable {ι : Type} [DecidableEq ι] {s t : Threads ι}

/-- No round has more than 25 buffers to write. -/
def Few (s : Threads ι) : Once.Step ι LogRecord Unit → Prop
  | .background _ => ∀ log ∈ s.view system, log.pc = .trim → log.buffersToWrite.length ≤ 25
  | _ => True

instance (s : Threads ι) : ∀ a, Decidable (Few s a)
  | .background _ => inferInstanceAs (Decidable (∀ log ∈ s.view system, log.pc = .trim → _ ≤ _))
  | .call _ _ | .enter _ | .part _ | .act _ => inferInstanceAs (Decidable True)

/-- The records that are appended, in their order. -/
def recordsOf (steps : List (LogRecord ⊕ Unit)) : List LogRecord := steps.filterMap Sum.getLeft?

theorem plain_step {log : AsyncLogging} {u : LoggerPtr} {l : LogRecord ⊕ Unit}
    (hstep : system.plain (some log) l = some u) :
    ∃ log', u = some log' ∧ log.step (AsyncLogging.logStep l) = some log' := by
  cases l with
  | inl r =>
      obtain ⟨⟨u, next⟩, hact, rfl⟩ := Option.map_eq_some_iff.mp hstep
      obtain ⟨log', hlog', heq⟩ := Option.map_eq_some_iff.mp hact
      cases heq
      exact ⟨log', rfl, hlog'⟩
  | inr b =>
      obtain ⟨log', hlog', rfl⟩ := Option.map_eq_some_iff.mp hstep
      exact ⟨log', rfl, hlog'⟩

/-- The plain system is the logger. -/
theorem plain_run {ok : LoggerPtr → LogRecord ⊕ Unit → Prop} {ls : List (LogRecord ⊕ Unit)} {p u : LoggerPtr}
    (hrun : Run system.plain ok p ls u) : ∀ log, p = some log → ∃ log', u = some log' ∧
      Run AsyncLogging.step (fun s a => ∃ l, a = AsyncLogging.logStep l ∧ ok (some s) l) log
        (ls.map AsyncLogging.logStep) log' := by
  induction hrun with
  | nil p => exact fun log hlog => ⟨log, hlog, .nil log⟩
  | @cons p q u l ls hok hstep _ ih =>
      intro log hlog
      subst hlog
      obtain ⟨log', rfl, hlog'⟩ := plain_step hstep
      obtain ⟨log'', hu, hrest⟩ := ih log' rfl
      exact ⟨log'', hu, .cons ⟨l, rfl, hok⟩ hlog' hrest⟩

theorem lineOf_records (ls : List (LogRecord ⊕ Unit)) :
    (ls.map AsyncLogging.logStep).flatMap AsyncLogging.lineOf = (recordsOf ls).map LogRecord.output := by
  induction ls with
  | nil => rfl
  | cons l ls ih =>
      rw [List.map_cons, List.flatMap_cons, ih]
      cases l <;> rfl

theorem appended_records (ls : List (LogRecord ⊕ Unit)) :
    (ls.map AsyncLogging.logStep).flatMap LogStep.appended = (recordsOf ls).flatMap LogRecord.output := by
  induction ls with
  | nil => rfl
  | cons l ls ih =>
      rw [List.map_cons, List.flatMap_cons, ih]
      cases l <;> rfl

/-- The threads that log are seen as a run of the logger. -/
theorem run_logger {ok : Threads ι → Once.Step ι LogRecord Unit → Prop}
    (ok' : LoggerPtr → LogRecord ⊕ Unit → Prop)
    (hok : ∀ s a, ok s a → ∀ l ∈ s.labels a, ok' (s.view system) l) {as : List (Once.Step ι LogRecord Unit)}
    (hrun : Run (Once.State.step system) ok (Once.State.new system) as t) : ∃ log, t.view system = some log ∧
      Run AsyncLogging.step (fun s a => ∃ l, a = AsyncLogging.logStep l ∧ ok' (some s) l) .started
        ((emitted (Once.State.step system) Once.State.labels (Once.State.new system) as).map
          AsyncLogging.logStep) log :=
  plain_run ((Once.State.projects hok).run hrun Once.State.new_inv) .started rfl

omit [DecidableEq ι] in
/-- A thread that has passed `pthread_once` finds the logger. -/
theorem shared_of_behind (hs : s.Inv system) {log : AsyncLogging} (hview : s.view system = some log) {i : ι}
    {r : LogRecord} (hcall : s.calls i = .behind r) : s.shared = some log := by
  rw [← hview, Once.State.view_ready (Once.State.isReady_done (hs.behind i r hcall))]

/-- **One logger, and whole records.** Whatever threads log, in whatever order, the logger is made and started at
most once and before a record is appended, and its file, if the writes to it succeed, holds whole records in the
order in which they were appended, each at most once. -/
theorem run_records {as : List (Once.Step ι LogRecord Unit)}
    (hrun : Run (Once.State.step system) (fun _ _ => True) (Once.State.new system) as t) :
    ∃ (log : AsyncLogging) (kept : List Bytes), t.view system = some log ∧
      (∀ i r, t.calls i = .behind r → t.shared = some log) ∧
      emitted (Once.State.step system) (Once.State.parts system) (Once.State.new system) as <+: [0, 1] ∧
      log.output.written = kept.flatten ∧ kept.Sublist ((recordsOf (emitted (Once.State.step system)
        Once.State.labels (Once.State.new system) as)).map LogRecord.output) := by
  have ht : t.Inv system :=
    hrun.invariant (fun _ _ _ _ hstep hs => Once.State.step_inv hs hstep) Once.State.new_inv
  obtain ⟨log, hview, hlog⟩ := run_logger (fun _ _ => True) (fun _ _ _ _ _ => trivial) hrun
  obtain ⟨kept, hsub, hkept⟩ := AsyncLogging.run_lines (hlog.mono fun _ _ _ => trivial)
  refine ⟨log, kept, hview, fun i r => shared_of_behind ht hview, ?_, hkept, lineOf_records _ ▸ hsub⟩
  rw [Once.State.run_parts hrun]
  have hparts : t.partsRun system ≤ 2 := by
    unfold Once.State.partsRun
    split
    · exact Nat.zero_le 2
    · rename_i i n hn
      exact (ht.part i n hn).1
    · exact le_rfl
  interval_cases t.partsRun system <;> decide

/-- `LOG << "hello"`. -/
def hello : LogRecord where
  fileName := bytes "Main.cpp"
  line := Logger.someLine
  time := Logger.someTime
  operands := [.pointer (some (bytes "hello"))]
  output := bytes "2024-01-01 00:00:00Nhello--Main.cpp:40\n"
  handed := by decide +kernel

/-- Two threads log at the same time, and the one that comes second waits for the logger. -/
def twoLog : List (Once.Step Bool LogRecord Unit) :=
  [.call true hello, .call false hello, .enter false, .part false, .part false, .background (), .part false,
    .enter true, .act true]

theorem run_records_two :
    ∃ (t : Threads Bool) (log : AsyncLogging) (kept : List Bytes), t.view system = some log ∧
      t.control = .done ∧ (∀ i r, t.calls i = .behind r → t.shared = some log) ∧
      log.output.written = kept.flatten ∧ kept.Sublist [hello.output] := by
  have hexec : ∃ t : Threads Bool, exec (checked (Once.State.step system) fun _ _ => True)
      (Once.State.new system) twoLog = some t ∧ t.control = .done := ⟨_, rfl, rfl⟩
  obtain ⟨t, ht, hdone⟩ := hexec
  obtain ⟨log, kept, hview, hfound, -, hkept, hsub⟩ := run_records (run_of_exec_checked ht)
  exact ⟨t, log, kept, hview, hdone, hfound, hkept, hsub⟩

/-- **No record is lost** that is handed over, while the writes to the file succeed and no round has more than 25
buffers to write, however long the messages are. -/
theorem run_all {as : List (Once.Step ι LogRecord Unit)}
    (hrun : Run (Once.State.step system) Few (Once.State.new system) as t) :
    ∃ log, t.view system = some log ∧ log.view.content = (recordsOf (emitted (Once.State.step system)
      Once.State.labels (Once.State.new system) as)).flatMap LogRecord.output := by
  have hok (s : Threads ι) (a : Once.Step ι LogRecord Unit) (ha : Few s a) : ∀ l ∈ s.labels a,
      l = .inr () → ∀ log ∈ s.view system, log.pc = .trim → log.buffersToWrite.length ≤ 25 := by
    intro l hl hwriter
    subst hwriter
    cases a with
    | background b => exact ha
    | act i => cases hcall : s.calls i <;> simp [Once.State.labels, hcall] at hl
    | _ => cases hl
  obtain ⟨log, hview, hlog⟩ := run_logger (fun p l => l = .inr () →
    ∀ log ∈ p, log.pc = .trim → log.buffersToWrite.length ≤ 25) hok hrun
  have huntrimmed (s : AsyncLogging) (a : LogStep) : (∃ l, a = AsyncLogging.logStep l ∧ (l = .inr () →
      ∀ log ∈ some s, log.pc = .trim → log.buffersToWrite.length ≤ 25)) → Untrimmed s a := by
    rintro ⟨l, rfl, hfew⟩
    cases l with
    | inl r =>
        have hlength := r.output_length
        have hsmall : kSmallBuffer = 4096 := rfl
        show r.output.length < 4096000
        omega
    | inr b => exact hfew rfl s rfl
  refine ⟨log, hview, ?_⟩
  rw [AsyncLogging.run_content (hlog.mono huntrimmed), appended_records]

theorem run_all_two :
    ∃ (t : Threads Bool) (log : AsyncLogging), t.view system = some log ∧
      log.view.content = hello.output := by
  have hexec : ∃ t : Threads Bool, exec (checked (Once.State.step system) Few)
      (Once.State.new system) twoLog = some t := ⟨_, rfl⟩
  obtain ⟨t, ht⟩ := hexec
  obtain ⟨log, hview, hcontent⟩ := run_all (run_of_exec_checked ht)
  have hone : recordsOf (emitted (Once.State.step system) Once.State.labels (Once.State.new system) twoLog) =
      [hello] := rfl
  rw [hone, List.flatMap_singleton] at hcontent
  exact ⟨t, log, hview, hcontent⟩

end Logging

end WebServer
