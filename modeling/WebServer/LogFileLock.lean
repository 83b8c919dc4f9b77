import WebServer.Locks
import WebServer.LogBuffer
import WebServer.RunsTrace

/-! The threads that call `append` and `flush` of one `LogFile`. Both functions begin with the line
`MutexLockGuard(*m_mutex);`. It reads like a guard, but it declares a pointer, and so nobody ever takes
the lock. Had both lines named a guard, as those of `CountDownLatch` do, the calls would exclude each
other, up to the record at which `append` calls `flush` and so waits for itself. -/

namespace WebServer

open Runs Locks

/-- What the first line of a function that is to be locked says. -/
inductive GuardStatement where
  /-- `MutexLockGuard(*m_mutex);` declares a local `m_mutex` of type `MutexLockGuard *`. -/
  | pointer
  /-- `MutexLockGuard lock(*m_mutex);` has the lock up to the end of the block. -/
  | guard
  deriving DecidableEq

/-- Where a thread is in `LogFile::append` or `LogFile::flush`. A `flush` is nested if `append_unlock`
has called it. -/
inductive LogFilePc where
  | idle
  /-- At the first line of `append`. -/
  | append (logline : Bytes)
  /-- About to call `AppendFile::append`. -/
  | write (logline : Bytes)
  | writing (logline : Bytes)
  | count
  | test
  /-- At the end of the block of `append`. -/
  | appendEnd
  /-- At the first line of `flush`. -/
  | flush (nested : Bool)
  /-- About to call `AppendFile::flush`. -/
  | sync (nested : Bool)
  | syncing (nested : Bool)
  /-- At the end of the block of `flush`. -/
  | flushEnd (nested : Bool)
  deriving DecidableEq

namespace LogFilePc

/-- The thread is inside `AppendFile::append` or `AppendFile::flush`. -/
def executes : LogFilePc → Bool
  | writing _ | syncing _ => true
  | idle | append _ | write _ | count | test | appendEnd | flush _ | sync _ | flushEnd _ => false

/-- The thread's next step is a call of one of them. -/
def enters : LogFilePc → Bool
  | write _ | sync _ => true
  | idle | append _ | writing _ | count | test | appendEnd | flush _ | syncing _ | flushEnd _ => false

/-- The thread's next step is the first line of `append` or `flush`. -/
def begins : LogFilePc → Bool
  | append _ | flush _ => true
  | idle | write _ | writing _ | count | test | appendEnd | sync _ | syncing _ | flushEnd _ => false

/-- The thread is behind the first line of the function it was called in. -/
def holds : LogFilePc → Bool
  | write _ | writing _ | count | test | appendEnd | flush true | sync _ | syncing _ | flushEnd _ => true
  | idle | append _ | flush false => false

/-- The thread is behind the first line of a nested `flush`. -/
def nests : LogFilePc → Bool
  | sync nested | syncing nested | flushEnd nested => nested
  | idle | append _ | write _ | writing _ | count | test | appendEnd | flush _ => false

end LogFilePc

/-- A `LogFile`, its `m_mutex` and the threads that call it. -/
structure SharedLogFile where
  log : LogFile
  owner : Option Nat
  threads : Nat → LogFilePc

/-- What moves: a thread that begins a call, and a thread in a call. -/
inductive LogFileStep where
  | callAppend (j : Nat) (logline : Bytes)
  | callFlush (j : Nat)
  | thread (j : Nat)
  deriving DecidableEq

/-- The thread that moves. -/
def LogFileStep.mover : LogFileStep → Nat
  | callAppend j _ | callFlush j | thread j => j

namespace SharedLogFile

def new : SharedLogFile := ⟨LogFile.new, none, fun _ => .idle⟩

def setThread (s : SharedLogFile) (j : Nat) (pc : LogFilePc) : SharedLogFile :=
  { s with threads := Function.update s.threads j pc }

/-- The first line of a function. A guard takes the lock, once it is free. -/
def enter (form : GuardStatement) (s : SharedLogFile) (j : Nat) : Option SharedLogFile :=
  match form with
  | .pointer => some s
  | .guard => if s.owner = none then some { s with owner := some j } else none

/-- The end of the block, where a guard is destroyed. -/
def leave (form : GuardStatement) (s : SharedLogFile) : SharedLogFile :=
  match form with
  | .pointer => s
  | .guard => { s with owner := none }

/-- The next step of a thread in `append`, `append_unlock` or `flush`. What a call of the file writes is
there when it returns. -/
def threadStep (form : GuardStatement) (flushEveryN : Nat) (s : SharedLogFile) (j : Nat) :
    Option SharedLogFile :=
  match s.threads j with
  | .idle => none
  | .append logline => (s.enter form j).map (·.setThread j (.write logline))
  | .write logline => some (s.setThread j (.writing logline))
  | .writing logline =>
      some ({ s with log := { s.log with stream := s.log.stream ++ logline } }.setThread j .count)
  | .count => some ({ s with log := { s.log with count := s.log.count + 1 } }.setThread j .test)
  | .test =>
      if flushEveryN ≤ s.log.count then
        some ({ s with log := { s.log with count := 0 } }.setThread j (.flush true))
      else some (s.setThread j .appendEnd)
  | .appendEnd => some ((s.leave form).setThread j .idle)
  | .flush nested => (s.enter form j).map (·.setThread j (.sync nested))
  | .sync nested => some (s.setThread j (.syncing nested))
  | .syncing nested => some ({ s with log := s.log.flush }.setThread j (.flushEnd nested))
  | .flushEnd nested => some ((s.leave form).setThread j (if nested then .appendEnd else .idle))

def step (form : GuardStatement) (flushEveryN : Nat) (s : SharedLogFile) :
    LogFileStep → Option SharedLogFile
  | .callAppend j logline =>
      if s.threads j = .idle then some (s.setThread j (.append logline)) else none
  | .callFlush j => if s.threads j = .idle then some (s.setThread j (.flush false)) else none
  | .thread j => threadStep form flushEveryN s j

/-- One thread at a time is in the calls of the file, it has the lock there, and nobody asks for the
lock while he has it. -/
structure Serialised (form : GuardStatement) (s : SharedLogFile) : Prop where
  one : ∀ j k, (s.threads j).executes → (s.threads k).executes → j = k
  holder : ∀ j, (s.threads j).executes → s.owner = some j
  request : ∀ j, form = .guard → (s.threads j).begins → s.owner ≠ some j

/-- The step is not a call of `AppendFile::append` or `AppendFile::flush`. -/
def EntersNone (s : SharedLogFile) : LogFileStep → Prop
  | .callAppend _ _ => True
  | .callFlush _ => True
  | .thread j => (s.threads j).enters = false

instance (s : SharedLogFile) (a : LogFileStep) : Decidable (s.EntersNone a) :=
  match a with
  | .callAppend _ _ => inferInstanceAs (Decidable True)
  | .callFlush _ => inferInstanceAs (Decidable True)
  | .thread _ => inferInstanceAs (Decidable (_ = _))

/-- The step does not send `append` into `flush`: the record is not the `flushEveryN`-th. -/
def NestsNone (flushEveryN : Nat) (s : SharedLogFile) : LogFileStep → Prop
  | .callAppend _ _ => True
  | .callFlush _ => True
  | .thread j => s.threads j = .test → s.log.count < flushEveryN

variable {form : GuardStatement} {flushEveryN j : Nat} {s t : SharedLogFile} {a : LogFileStep}

@[simp] theorem setThread_self (s : SharedLogFile) (j : Nat) (pc : LogFilePc) :
    (s.setThread j pc).threads j = pc := Function.update_self ..

theorem setThread_ne (s : SharedLogFile) {j k : Nat} (hne : k ≠ j) (pc : LogFilePc) :
    (s.setThread j pc).threads k = s.threads k := Function.update_of_ne hne ..

theorem enter_guard_eq_some (h : s.enter .guard j = some t) :
    s.owner = none ∧ t = { s with owner := some j } := by
  simp only [enter] at h
  split_ifs at h with howner
  exact ⟨howner, (Option.some.inj h).symm⟩

theorem enter_threads (h : s.enter form j = some t) : t.threads = s.threads := by
  cases form with
  | pointer => rw [Option.some.inj h]
  | guard => rw [(enter_guard_eq_some h).2]

@[simp] theorem leave_threads (form : GuardStatement) (s : SharedLogFile) :
    (s.leave form).threads = s.threads := by
  cases form <;> rfl

/-- Whatever the form of the first line, a step in a call moves the thread. It takes it into a call of
the file from the place in front of one, and into a nested `flush` from a test that holds. -/
theorem threadStep_moves (hstep : threadStep form flushEveryN s j = some t) :
    ∃ pc, t.threads = Function.update s.threads j pc ∧ pc.executes = (s.threads j).enters ∧
      (pc = .flush true ↔ s.threads j = .test ∧ flushEveryN ≤ s.log.count) := by
  unfold threadStep at hstep
  split at hstep
  case h_1 => cases hstep
  case h_2 logline hpc =>
    obtain ⟨r, hr, rfl⟩ := Option.map_eq_some_iff.mp hstep
    exact ⟨.write logline, by rw [setThread, enter_threads hr], by rw [hpc]; rfl, by simp [hpc]⟩
  case h_8 nested hpc =>
    obtain ⟨r, hr, rfl⟩ := Option.map_eq_some_iff.mp hstep
    exact ⟨.sync nested, by rw [setThread, enter_threads hr], by rw [hpc]; rfl, by simp [hpc]⟩
  case h_6 hpc =>
    split_ifs at hstep with hcount
    all_goals
      cases hstep
      exact ⟨_, rfl, by rw [hpc]; rfl, by simp [hpc, hcount]⟩
  case h_7 hpc =>
    cases hstep
    exact ⟨.idle, by rw [setThread, leave_threads], by rw [hpc]; rfl, by simp [hpc]⟩
  case h_11 nested hpc =>
    cases hstep
    refine ⟨_, by rw [setThread, leave_threads], ?_⟩
    rw [hpc]
    cases nested <;> exact ⟨rfl, by simp⟩
  all_goals
    rename_i hpc
    cases hstep
    exact ⟨_, rfl, by rw [hpc]; rfl, by simp [hpc]⟩

theorem step_moves (hstep : step form flushEveryN s a = some t) :
    ∃ pc, t.threads = Function.update s.threads a.mover pc ∧ (pc.executes ↔ ¬ s.EntersNone a) ∧
      (pc = .flush true ↔ ¬ s.NestsNone flushEveryN a) := by
  cases a with
  | callAppend j logline | callFlush j =>
      simp only [step] at hstep
      split_ifs at hstep
      cases hstep
      exact ⟨_, rfl, by simp [LogFilePc.executes, EntersNone], by simp [NestsNone]⟩
  | thread j =>
      obtain ⟨pc, hthreads, hexec, hnests⟩ := threadStep_moves hstep
      exact ⟨pc, hthreads, by simp [hexec, EntersNone], by simp [hnests, NestsNone]⟩

/-- Where no thread is in a call of the file, a step that is not such a call brings none there. -/
theorem step_executes_iff (hstep : step form flushEveryN s a = some t)
    (hnone : ∀ j, (s.threads j).executes = false) :
    (∀ j, (t.threads j).executes = false) ↔ s.EntersNone a := by
  obtain ⟨pc, hthreads, hpc, -⟩ := step_moves hstep
  rw [hthreads, Function.forall_update_iff s.threads fun _ pc => pc.executes = false,
    and_iff_left fun k _ => hnone k, ← not_iff_not, ← hpc, Bool.not_eq_false]

theorem step_nests_iff (hstep : step form flushEveryN s a = some t)
    (hnone : ∀ j, s.threads j ≠ .flush true) :
    (∀ j, t.threads j ≠ .flush true) ↔ s.NestsNone flushEveryN a := by
  obtain ⟨pc, hthreads, -, hpc⟩ := step_moves hstep
  rw [hthreads, Function.forall_update_iff s.threads fun _ pc => pc ≠ .flush true,
    and_iff_left fun k _ => hnone k, ← not_iff_not, ← hpc, not_not]

/-- A line that declares a pointer leaves the lock alone. -/
theorem step_owner (hstep : step .pointer flushEveryN s a = some t) : t.owner = s.owner := by
  cases a with
  | callAppend j logline | callFlush j =>
      simp only [step] at hstep
      split_ifs at hstep
      cases hstep
      rfl
  | thread j =>
      simp only [step, threadStep, enter, leave, Option.map_some] at hstep
      split at hstep
      case h_1 => cases hstep
      case h_6 =>
        split_ifs at hstep
        all_goals
          cases hstep
          rfl
      all_goals
        cases hstep
        rfl

/-- As long as nobody has the lock, the calls are serialised just if nobody is in a call of the file. -/
theorem serialised_iff_of_free (howner : s.owner = none) :
    s.Serialised form ↔ ∀ j, (s.threads j).executes = false := by
  constructor
  · intro hs j
    by_contra hj
    have hholder := hs.holder j (by simpa using hj)
    rw [howner] at hholder
    cases hholder
  · intro hnone
    refine ⟨fun j k hj => ?_, fun j hj => ?_, fun j _ _ => by simp [howner]⟩
    all_goals
      rw [hnone j] at hj
      cases hj

theorem step_serialised_iff (hstep : step .pointer flushEveryN s a = some t) (howner : s.owner = none)
    (hs : s.Serialised .pointer) : t.Serialised .pointer ↔ s.EntersNone a := by
  rw [serialised_iff_of_free ((step_owner hstep).trans howner)]
  exact step_executes_iff hstep ((serialised_iff_of_free howner).mp hs)

theorem new_serialised (form : GuardStatement) : new.Serialised form :=
  (serialised_iff_of_free rfl).mpr fun _ => rfl

/-- **The lock of the log file.** The calls of a run are serialised just as long as nobody gets to a
call of `AppendFile`. -/
theorem run_serialised_iff {as : List LogFileStep}
    (hrun : Run (step .pointer flushEveryN) (fun _ _ => True) new as t) :
    (∀ bs u, bs <+: as → Run (step .pointer flushEveryN) (fun _ _ => True) new bs u →
      u.Serialised .pointer) ↔ Run (step .pointer flushEveryN) EntersNone new as t :=
  hrun.prefixes_iff (I := fun u => u.owner = none)
    (fun _ _ _ _ hstep howner => (step_owner hstep).trans howner)
    (fun _ _ _ _ hstep howner hs => step_serialised_iff hstep howner hs) rfl (new_serialised .pointer)

/-- Two threads have begun a call, and none of them has come to the file. -/
theorem run_serialised_begun :
    ∃ t : SharedLogFile, t.threads 0 = .write [1, 2] ∧ t.threads 1 = .sync false ∧
      t.Serialised .pointer := by
  have hexec : ∃ t : SharedLogFile, exec (checked (step .pointer 3) EntersNone) new
      [.callAppend 0 [1, 2], .callFlush 1, .thread 0, .thread 1] = some t ∧
        t.threads 0 = .write [1, 2] ∧ t.threads 1 = .sync false := ⟨_, rfl, rfl, rfl⟩
  obtain ⟨t, ht, hwrite, hsync⟩ := hexec
  have hrun := run_of_exec_checked ht
  have hall : Run (step .pointer 3) (fun _ _ => True) new _ t := hrun.mono fun _ _ _ => trivial
  exact ⟨t, hwrite, hsync, (run_serialised_iff hall).mpr hrun _ t (List.prefix_refl _) hall⟩

/-- Two threads append at once. -/
theorem run_appends_twice :
    ∃ (as : List LogFileStep) (t : SharedLogFile),
      Run (step .pointer 1024) (fun _ _ => True) new as t ∧ t.threads 0 = .writing [1, 2] ∧
        t.threads 1 = .writing [3] ∧ t.owner = none ∧ ¬ t.Serialised .pointer := by
  have hexec : ∃ t : SharedLogFile, exec (checked (step .pointer 1024) fun _ _ => True) new
      [.callAppend 0 [1, 2], .callAppend 1 [3], .thread 0, .thread 0, .thread 1, .thread 1] = some t ∧
        t.threads 0 = .writing [1, 2] ∧ t.threads 1 = .writing [3] ∧ t.owner = none :=
    ⟨_, rfl, rfl, rfl, rfl⟩
  obtain ⟨t, ht, hfirst, hsecond, howner⟩ := hexec
  refine ⟨_, t, run_of_exec_checked ht, hfirst, hsecond, howner, fun hs => ?_⟩
  have hsame := hs.one 0 1 (by rw [hfirst]; rfl) (by rw [hsecond]; rfl)
  cases hsame

/-! ### The lines as guards -/

/-- With guards, a thread behind the first line has the lock, and none is inside a nested `flush`. -/
structure Guarded (s : SharedLogFile) : Prop where
  owned : Owned s.owner fun j => (s.threads j).holds
  nests : ∀ j, (s.threads j).nests = false

namespace Guarded

theorem new : SharedLogFile.new.Guarded := ⟨.init fun _ => rfl, fun _ => rfl⟩

theorem nests_setThread (hs : s.Guarded) {pc : LogFilePc} (hpc : pc.nests = false) (k : Nat) :
    ((s.setThread j pc).threads k).nests = false := by
  by_cases hk : k = j
  · subst k
    rwa [setThread_self]
  · rw [setThread_ne s hk]
    exact hs.nests k

theorem advance (hs : s.Guarded) {pc : LogFilePc} (log : LogFile)
    (hholds : pc.holds = (s.threads j).holds) (hpc : pc.nests = false) :
    ({ s with log := log }.setThread j pc).Guarded where
  owned := hs.owned.keep (i := j) (by simpa using hholds) fun k hk => by rw [setThread_ne _ hk]
  nests := hs.nests_setThread hpc

theorem acquired (hs : s.Guarded) (howner : s.owner = none) {pc : LogFilePc} (hholds : pc.holds)
    (hpc : pc.nests = false) : ({ s with owner := some j }.setThread j pc).Guarded where
  owned := (howner ▸ hs.owned).acquire (by simpa using hholds) fun k hk => by rw [setThread_ne _ hk]
  nests := hs.nests_setThread hpc

theorem released (hs : s.Guarded) (hj : (s.threads j).holds) {pc : LogFilePc}
    (hholds : pc.holds = false) (hpc : pc.nests = false) :
    ((s.leave .guard).setThread j pc).Guarded where
  owned := hs.owned.release (i := j) hj (by simpa using hholds) fun k hk => by rw [setThread_ne _ hk]; rfl
  nests := hs.nests_setThread hpc

theorem threadStep (hs : s.Guarded)
    (hstep : SharedLogFile.threadStep .guard flushEveryN s j = some t) : t.Guarded := by
  unfold SharedLogFile.threadStep at hstep
  split at hstep
  case h_1 => cases hstep
  case h_2 logline hpc =>
    obtain ⟨r, hr, rfl⟩ := Option.map_eq_some_iff.mp hstep
    obtain ⟨howner, rfl⟩ := enter_guard_eq_some hr
    exact hs.acquired howner rfl rfl
  case h_3 logline hpc | h_4 logline hpc | h_5 hpc =>
    cases hstep
    exact hs.advance _ (by rw [hpc]; rfl) rfl
  case h_6 hpc =>
    split_ifs at hstep
    all_goals
      cases hstep
      exact hs.advance _ (by rw [hpc]; rfl) rfl
  case h_7 hpc =>
    cases hstep
    exact hs.released (by rw [hpc]; rfl) rfl rfl
  case h_8 nested hpc =>
    obtain ⟨r, hr, rfl⟩ := Option.map_eq_some_iff.mp hstep
    obtain ⟨howner, rfl⟩ := enter_guard_eq_some hr
    cases nested with
    | true =>
        -- It has the lock since the first line of `append`, and so the guard waits for ever.
        have hfree := (howner ▸ hs.owned.held).free j
        simp [hpc, LogFilePc.holds] at hfree
    | false => exact hs.acquired howner rfl rfl
  case h_9 nested hpc | h_10 nested hpc =>
    have hnests := hs.nests j
    rw [hpc] at hnests
    cases hstep
    exact hs.advance _ (by rw [hpc]; rfl) hnests
  case h_11 nested hpc =>
    have hnests : nested = false := by simpa [hpc, LogFilePc.nests] using hs.nests j
    subst hnests
    cases hstep
    exact hs.released (by rw [hpc]; rfl) rfl rfl

theorem step (hs : s.Guarded) (hstep : SharedLogFile.step .guard flushEveryN s a = some t) :
    t.Guarded := by
  cases a with
  | callAppend j logline | callFlush j =>
      simp only [SharedLogFile.step] at hstep
      split_ifs at hstep with hidle
      cases hstep
      exact hs.advance _ (by rw [hidle]; rfl) rfl
  | thread j => exact hs.threadStep hstep

/-- Among threads that are behind a guard just where they should be, the one that is sent into a nested
`flush` is all that can go wrong. -/
theorem serialised_iff (hs : s.Guarded) : s.Serialised .guard ↔ ∀ j, s.threads j ≠ .flush true := by
  have hholds : ∀ j, (s.threads j).executes → (s.threads j).holds := by
    intro j hj
    cases hpc : s.threads j <;> simp [hpc, LogFilePc.executes, LogFilePc.holds] at hj ⊢
  constructor
  · intro h j hpc
    exact h.request j rfl (by rw [hpc]; rfl) ((hs.owned j).mpr (by simp [hpc, LogFilePc.holds]))
  · intro h
    refine ⟨fun j k hj hk => hs.owned.held.unique (hholds j hj) (hholds k hk),
      fun j hj => hs.owned.held j (hholds j hj), fun j _ hbegins howner => ?_⟩
    have hj := (hs.owned j).mp howner
    cases hpc : s.threads j with
    | append logline => simp [hpc, LogFilePc.holds] at hj
    | flush nested =>
        cases nested with
        | true => exact h j hpc
        | false => simp [hpc, LogFilePc.holds] at hj
    | _ => simp [hpc, LogFilePc.begins] at hbegins

end Guarded

/-- **Guards alone are not enough.** With guards for both lines, the calls of a run are serialised just
as long as no thread appends the record behind which `append` calls `flush`. -/
theorem run_guards_iff {as : List LogFileStep}
    (hrun : Run (step .guard flushEveryN) (fun _ _ => True) new as t) :
    (∀ bs u, bs <+: as → Run (step .guard flushEveryN) (fun _ _ => True) new bs u →
      u.Serialised .guard) ↔ Run (step .guard flushEveryN) (NestsNone flushEveryN) new as t := by
  refine hrun.prefixes_iff (I := Guarded) (fun _ _ _ _ hstep hs => hs.step hstep) ?_ Guarded.new
    (new_serialised .guard)
  intro s a t _ hstep hs hserialised
  rw [(hs.step hstep).serialised_iff]
  exact step_nests_iff hstep (hs.serialised_iff.mp hserialised)

/-- A thread that is to take a guard in a nested `flush` never gets it. -/
theorem nested_stuck (hs : s.Guarded) (hpc : s.threads j = .flush true) :
    step .guard flushEveryN s (.thread j) = none := by
  have howner : s.owner = some j := (hs.owned j).mpr (by simp [hpc, LogFilePc.holds])
  simp [step, threadStep, hpc, enter, howner]

theorem run_stuck {as : List LogFileStep}
    (hrun : Run (step .guard flushEveryN) (fun _ _ => True) s as t) (hs : s.Guarded)
    (hpc : s.threads j = .flush true) : t.threads j = .flush true := by
  refine (hrun.invariant (I := fun u => u.Guarded ∧ u.threads j = .flush true) ?_ ⟨hs, hpc⟩).2
  rintro u a v - hstep ⟨hu, hj⟩
  refine ⟨hu.step hstep, ?_⟩
  obtain ⟨pc, hthreads, -⟩ := step_moves hstep
  have hne : j ≠ a.mover := by
    rintro rfl
    cases a with
    | callAppend j logline | callFlush j => simp [step, show u.threads j = .flush true from hj] at hstep
    | thread j => cases (nested_stuck hu hj).symm.trans hstep
  rw [hthreads, Function.update_of_ne hne, hj]

/-- A call of `append` that no other thread interrupts is the `append` of a `LogFile`. -/
theorem append_alone (logline : Bytes) (hidle : s.threads j = .idle) :
    ∃ as, Run (step .pointer LogFile.flushEveryN) (fun _ _ => True) s as
      { s with log := s.log.append logline } := by
  have hback : Function.update s.threads j .idle = s.threads := by rw [← hidle, Function.update_eq_self]
  by_cases hcount : LogFile.flushEveryN ≤ s.log.count + 1
  · refine ⟨.callAppend j logline :: List.replicate 10 (.thread j), run_of_exec_checked ?_⟩
    simp [List.replicate, exec, checked, step, threadStep, setThread, hidle, hback, enter, leave, hcount,
      LogFile.append]
  · refine ⟨.callAppend j logline :: List.replicate 6 (.thread j), run_of_exec_checked ?_⟩
    simp [List.replicate, exec, checked, step, threadStep, setThread, hidle, hback, enter, leave, hcount,
      LogFile.append]

theorem flush_alone (hidle : s.threads j = .idle) :
    ∃ as, Run (step .pointer flushEveryN) (fun _ _ => True) s as { s with log := s.log.flush } := by
  have hback : Function.update s.threads j .idle = s.threads := by rw [← hidle, Function.update_eq_self]
  refine ⟨.callFlush j :: List.replicate 4 (.thread j), run_of_exec_checked ?_⟩
  simp [List.replicate, exec, checked, step, threadStep, setThread, hidle, hback, enter, leave]

end SharedLogFile

end WebServer
