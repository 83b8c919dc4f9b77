import WebServer.Locks
import WebServer.ThreadPoolLock

/-! Calls of `ThreadPool` in which a `pthread` call fails: any number of threads that call
`threadpool_create`, `threadpool_add` and `threadpool_destroy` in any order, beside the workers. What a call
that fails leaves behind is decided by where it fails: before or after the pool was changed, with the lock
given up or not. -/

namespace WebServer

open Runs

def THREADPOOL_LOCK_FAILURE : Int := -2

def THREADPOOL_THREAD_FAILURE : Int := -5

/-- The call that a thread has returned from: its value, the workers it has created, and the pool before
and after its stretch under the lock. -/
inductive PoolReturn (τ : Type) where
  | create (value : Int) (made : Nat)
  | add (value : Int) (before after : ThreadPool τ)
  | destroy (value : Int) (before after : ThreadPool τ)
  deriving DecidableEq

/-- Where a thread is in its call. -/
inductive PoolCallPc (τ : Type) where
  | idle
  /-- In the loop of `threadpool_create`, with some of its threads created. -/
  | creating (threadCount made : Nat)
  | add (task : τ)
  | addLocked (task : τ)
  /-- About to signal that the task is in the queue. -/
  | addSignal (before : ThreadPool τ) (task : τ)
  | addUnlock (before : ThreadPool τ) (task : τ) (signalled : Bool)
  | destroy (option : ShutDownOption)
  | destroyLocked (option : ShutDownOption)
  | destroyBroadcast (before : ThreadPool τ) (option : ShutDownOption)
  | destroyUnlock (before : ThreadPool τ) (option : ShutDownOption)
  /-- In the loop over the threads, where a `pthread_join` has failed or none has. -/
  | join (before : ThreadPool τ) (option : ShutDownOption) (i : Nat) (failed : Bool)
  | free (before : ThreadPool τ) (option : ShutDownOption)
  | returned (ret : PoolReturn τ)
  deriving DecidableEq

def PoolCallPc.inCall {τ : Type} : PoolCallPc τ → Bool
  | idle | returned _ => false
  | creating _ _ | add _ | addLocked _ | addSignal _ _ | addUnlock _ _ _ | destroy _ | destroyLocked _
  | destroyBroadcast _ _ | destroyUnlock _ _ | join _ _ _ _ | free _ _ => true

/-- The thread has the lock, and goes on in its call. -/
def PoolCallPc.holds {τ : Type} : PoolCallPc τ → Bool
  | addLocked _ | addSignal _ _ | addUnlock _ _ _ | destroyLocked _ | destroyBroadcast _ _
  | destroyUnlock _ _ => true
  | idle | creating _ _ | add _ | destroy _ | join _ _ _ _ | free _ _ | returned _ => false

/-- The pool, its mutex, the vector `threads` as the numbers of the workers, the workers, and the threads
that call. -/
structure CalledPool (τ : Type) where
  pool : ThreadPool τ
  owner : Option PoolThread
  destroyed : Bool
  spawned : Nat
  threads : Nat → Nat
  workers : Nat → PoolWorkerPc τ
  callers : Nat → PoolCallPc τ

inductive CallStep (τ : Type) where
  | worker (i : Nat)
  | wake (i : Nat)
  /-- `pthread_cond_wait` fails, and the worker goes on with the lock. -/
  | waitFails (i : Nat)
  | callCreate (j : Nat) (threadCount queueSize : Int)
  | callAdd (j : Nat) (task : τ)
  | callDestroy (j : Nat) (option : ShutDownOption)
  /-- A thread goes on in its call, in which its next `pthread` call succeeds or not; those that lock and
  unlock the mutex do. -/
  | caller (j : Nat) (succeeds : Bool)
  deriving DecidableEq

namespace CalledPool

variable {τ : Type}

/-- The static members before the first call. -/
def initial : CalledPool τ where
  pool := ⟨[], 0, 0, 0, 0, 0, none, 0⟩
  owner := none
  destroyed := false
  spawned := 0
  threads := fun _ => 0
  workers := fun _ => .exited
  callers := fun _ => .idle

def setCaller (s : CalledPool τ) (j : Nat) (pc : PoolCallPc τ) : CalledPool τ :=
  { s with callers := Function.update s.callers j pc }

def acquire (s : CalledPool τ) (thread : PoolThread) : Option (CalledPool τ) :=
  if s.owner = none then some { s with owner := some thread } else none

def unlock (s : CalledPool τ) : CalledPool τ := { s with owner := none }

/-- The pool as its workers see it. -/
def locked (s : CalledPool τ) : LockedPool τ := ⟨s.pool, s.owner, s.workers, fun _ => .idle⟩

def withLocked (s : CalledPool τ) (l : LockedPool τ) : CalledPool τ :=
  { s with pool := l.pool, owner := l.owner, workers := l.workers }

/-- `threadpool_create` before its loop. -/
def reset (s : CalledPool τ) (threadCount queueSize : Int) : CalledPool τ :=
  { s with pool := { s.pool.threadpoolCreate threadCount queueSize with threadCount := 0, started := 0 } }

/-- `pthread_create` succeeds in the loop of `threadpool_create`. -/
def spawn (s : CalledPool τ) (i : Nat) : CalledPool τ :=
  { s with
    pool := { s.pool with threadCount := s.pool.threadCount + 1, started := s.pool.started + 1 }
    spawned := s.spawned + 1
    threads := Function.update s.threads i s.spawned
    workers := Function.update s.workers s.spawned .lock }

/-- The value of `threadpool_add` and what it did, once it has given the lock up. -/
def addReturn (before : ThreadPool τ) (task : τ) (signalled : Bool) : PoolReturn τ :=
  let r := before.threadpoolAdd task
  .add (if r.1 = 0 ∧ signalled = false then THREADPOOL_LOCK_FAILURE else r.1) before r.2

def destroyReturn (before : ThreadPool τ) (option : ShutDownOption) (value : Int) : PoolReturn τ :=
  .destroy value before (before.threadpoolDestroy option).2

/-- The next step of a thread in a call. Where `threadpool_destroy` finds the pool shut down, or its
broadcast fails, it returns with the lock; so it does behind `threadpool_free`, which takes the lock to
destroy it. -/
def callerStep (s : CalledPool τ) (j : Nat) (succeeds : Bool) : Option (CalledPool τ) :=
  match s.callers j with
  | .idle => none
  | .creating threadCount made =>
      if made < threadCount then
        if succeeds then some ((s.spawn made).setCaller j (.creating threadCount (made + 1)))
        else some (s.setCaller j (.returned (.create (-1) made)))
      else some (s.setCaller j (.returned (.create 0 made)))
  | .add task => (s.acquire (.client j)).map (·.setCaller j (.addLocked task))
  | .addLocked task =>
      -- the next index is taken modulo the size of the queue
      if s.pool.queueSize = 0 then none
      else
        let r := s.pool.threadpoolAdd task
        if r.1 = 0 then some ({ s with pool := r.2 }.setCaller j (.addSignal s.pool task))
        else some (s.setCaller j (.addUnlock s.pool task false))
  | .addSignal before task => some (s.setCaller j (.addUnlock before task succeeds))
  | .addUnlock before task signalled =>
      some (s.unlock.setCaller j (.returned (addReturn before task signalled)))
  | .destroy option => (s.acquire (.client j)).map (·.setCaller j (.destroyLocked option))
  | .destroyLocked option =>
      let r := s.pool.threadpoolDestroy option
      if r.1 ≠ 0 then some (s.setCaller j (.returned (destroyReturn s.pool option r.1)))
      else some ({ s with pool := r.2 }.setCaller j (.destroyBroadcast s.pool option))
  | .destroyBroadcast before option =>
      if succeeds then some (s.setCaller j (.destroyUnlock before option))
      else some (s.setCaller j (.returned (destroyReturn before option THREADPOOL_LOCK_FAILURE)))
  | .destroyUnlock before option => some (s.unlock.setCaller j (.join before option 0 false))
  | .join before option i failed =>
      if i < s.pool.threadCount then
        if succeeds then
          if (s.workers (s.threads i)).hasExited then some (s.setCaller j (.join before option (i + 1) failed))
          else none
        else some (s.setCaller j (.join before option (i + 1) true))
      else if failed then
        some (s.setCaller j (.returned (destroyReturn before option THREADPOOL_THREAD_FAILURE)))
      else some (s.setCaller j (.free before option))
  | .free before option =>
      if 0 < s.pool.started then some (s.setCaller j (.returned (destroyReturn before option 0)))
      else (s.acquire (.client j)).map fun s =>
        { s with destroyed := succeeds }.setCaller j (.returned (destroyReturn before option 0))
  | .returned _ => none

def act (s : CalledPool τ) : CallStep τ → Option (CalledPool τ)
  | .worker i => (s.locked.workerStep i).map s.withLocked
  | .wake i => (s.locked.step (.wake i)).map s.withLocked
  | .waitFails i =>
      match s.workers i with
      | .test => if s.pool.Waits then some s else none
      | _ => none
  | .callCreate j threadCount queueSize =>
      if (s.callers j).inCall then none
      else some ((s.reset threadCount queueSize).setCaller j
        (.creating (s.pool.threadpoolCreate threadCount queueSize).threadCount 0))
  | .callAdd j task => if (s.callers j).inCall then none else some (s.setCaller j (.add task))
  | .callDestroy j option => if (s.callers j).inCall then none else some (s.setCaller j (.destroy option))
  | .caller j succeeds => s.callerStep j succeeds

/-- There is no step after the mutex is destroyed. -/
def step (s : CalledPool τ) (a : CallStep τ) : Option (CalledPool τ) := if s.destroyed then none else s.act a

/-- The tasks of the pool and its flag are the same. -/
structure SameTasks (p q : ThreadPool τ) : Prop where
  head : q.head = p.head
  tail : q.tail = p.tail
  count : q.count = p.count
  queue : q.queue = p.queue
  shutdown : q.shutdown = p.shutdown

theorem SameTasks.refl (p : ThreadPool τ) : SameTasks p p := ⟨rfl, rfl, rfl, rfl, rfl⟩

end CalledPool

namespace PoolReturn

variable {τ : Type}

/-- The call has failed without a change meant to stay. -/
def Failed : PoolReturn τ → Prop
  | create value _ => value = -1
  | add value _ _ => value ≠ 0
  | destroy value _ _ => value = THREADPOOL_SHUTDOWN

/-- The call has created no worker, and left the tasks and the flag as they were. -/
def Unchanged : PoolReturn τ → Prop
  | create _ made => made = 0
  | add _ before after => CalledPool.SameTasks before after
  | destroy _ before after => CalledPool.SameTasks before after

end PoolReturn

namespace CalledPool

variable {τ : Type}

/-- Every thread that has come back from a call that failed is without the lock, and the pool is as it was. -/
def Clean (s : CalledPool τ) : Prop :=
  ∀ j ret, s.callers j = .returned ret → ret.Failed → s.owner ≠ some (.client j) ∧ ret.Unchanged

/-- Where the thread is in its call, no `pthread_create` fails after one of the same call has succeeded, nor
while the thread has the lock; no task is reported whose signal has failed; and the pool is not shut down
for a second time. -/
def EarlyAt (s : CalledPool τ) (j : Nat) (succeeds : Bool) : PoolCallPc τ → Prop
  | .creating threadCount made =>
      made < threadCount → succeeds = false → made = 0 ∧ s.owner ≠ some (.client j)
  | .addUnlock before task signalled => (before.threadpoolAdd task).1 = 0 → signalled = true
  | .destroyLocked _ => s.pool.shutdown = none
  | .idle | .add _ | .addLocked _ | .addSignal _ _ | .destroy _ | .destroyBroadcast _ _
  | .destroyUnlock _ _ | .join _ _ _ _ | .free _ _ | .returned _ => True

def FailsEarly (s : CalledPool τ) : CallStep τ → Prop
  | .caller j succeeds => s.EarlyAt j succeeds (s.callers j)
  | .worker _ | .wake _ | .waitFails _ | .callCreate _ _ _ | .callAdd _ _ | .callDestroy _ _ => True

instance (s : CalledPool τ) (j : Nat) (succeeds : Bool) (pc : PoolCallPc τ) :
    Decidable (s.EarlyAt j succeeds pc) :=
  match pc with
  | .creating _ _ => inferInstanceAs (Decidable (_ → _ → _ ∧ _))
  | .addUnlock _ _ _ => inferInstanceAs (Decidable (_ → _))
  | .destroyLocked _ => inferInstanceAs (Decidable (_ = _))
  | .idle | .add _ | .addLocked _ | .addSignal _ _ | .destroy _ | .destroyBroadcast _ _
  | .destroyUnlock _ _ | .join _ _ _ _ | .free _ _ | .returned _ => inferInstanceAs (Decidable True)

instance (s : CalledPool τ) (a : CallStep τ) : Decidable (s.FailsEarly a) :=
  match a with
  | .caller j succeeds => inferInstanceAs (Decidable (s.EarlyAt j succeeds (s.callers j)))
  | .worker _ | .wake _ | .waitFails _ | .callCreate _ _ _ | .callAdd _ _ | .callDestroy _ _ =>
      inferInstanceAs (Decidable True)

variable {s t : CalledPool τ} {j : Nat}

/-! ### One step -/

@[simp] theorem setCaller_self (s : CalledPool τ) (j : Nat) (pc : PoolCallPc τ) :
    (s.setCaller j pc).callers j = pc := Function.update_self ..

theorem setCaller_ne (s : CalledPool τ) {j k : Nat} (hne : k ≠ j) (pc : PoolCallPc τ) :
    (s.setCaller j pc).callers k = s.callers k := Function.update_of_ne hne ..

theorem acquire_map_eq_some {thread : PoolThread} {f : CalledPool τ → CalledPool τ}
    (h : (s.acquire thread).map f = some t) : s.owner = none ∧ t = f { s with owner := some thread } :=
  Locks.of_acquire h

/-- The thread stands where it needs the lock. -/
def holds (s : CalledPool τ) : PoolThread → Bool
  | .worker i => (s.workers i).holds
  | .client j => (s.callers j).holds

/-- The step is one of the thread, as far as the lock goes. -/
abbrev Moves (s t : CalledPool τ) (x : PoolThread) : Prop := Locks.Moves s.owner s.holds t.owner t.holds x

/-- Who stands where it needs the lock has it. -/
abbrev Locked (s : CalledPool τ) : Prop := Locks.Held s.owner s.holds

/-- A caller moves; the workers are where they were, or one more has begun. -/
theorem moves_setCaller {r : CalledPool τ} {pc : PoolCallPc τ} (hcallers : r.callers = s.callers)
    (hworkers : ∀ i, (r.workers i).holds → (s.workers i).holds)
    (hlock : (r.owner = s.owner ∧ (pc.holds → (s.callers j).holds)) ∨
      (s.owner = none ∧ r.owner = some (.client j)) ∨
      ((s.callers j).holds ∧ r.owner = none ∧ pc.holds = false)) :
    Moves s (r.setCaller j pc) (.client j) where
  others := by
    rintro (i | k) hne hholds
    · exact hworkers i hholds
    · have hk : k ≠ j := fun h => hne (by rw [h])
      rw [holds, setCaller_ne r hk, hcallers] at hholds
      exact hholds
  lock := by
    rw [holds, setCaller_self]
    exact hlock

theorem spawn_holds (s : CalledPool τ) (i k : Nat) (h : ((s.spawn i).workers k).holds) :
    (s.workers k).holds := by
  by_cases hk : k = s.spawned
  · subst k
    simp [spawn, PoolWorkerPc.holds] at h
  · have hsame : (s.spawn i).workers k = s.workers k := Function.update_of_ne hk ..
    rwa [hsame] at h

theorem callerStep_moves {succeeds : Bool} (hstep : s.callerStep j succeeds = some t) :
    Moves s t (.client j) := by
  unfold callerStep at hstep
  split at hstep
  case h_1 | h_13 => cases hstep
  case h_2 =>
    split_ifs at hstep
    all_goals cases hstep
    · exact moves_setCaller rfl (s.spawn_holds _) (Or.inl ⟨rfl, fun h => by cases h⟩)
    · exact moves_setCaller rfl (fun _ h => h) (Or.inl ⟨rfl, fun h => by cases h⟩)
    · exact moves_setCaller rfl (fun _ h => h) (Or.inl ⟨rfl, fun h => by cases h⟩)
  case h_3 | h_7 =>
    obtain ⟨hfree, rfl⟩ := acquire_map_eq_some hstep
    exact moves_setCaller rfl (fun _ h => h) (Or.inr (Or.inl ⟨hfree, rfl⟩))
  case h_4 task hpc =>
    simp only [] at hstep
    split_ifs at hstep
    all_goals
      cases hstep
      exact moves_setCaller rfl (fun _ h => h) (Or.inl ⟨rfl, fun _ => by rw [hpc]; rfl⟩)
  case h_5 hpc =>
    cases hstep
    exact moves_setCaller rfl (fun _ h => h) (Or.inl ⟨rfl, fun _ => by rw [hpc]; rfl⟩)
  case h_6 hpc | h_10 hpc =>
    cases hstep
    exact moves_setCaller rfl (fun _ h => h) (Or.inr (Or.inr ⟨by rw [hpc]; rfl, rfl, rfl⟩))
  case h_8 option hpc =>
    simp only [] at hstep
    split_ifs at hstep
    all_goals
      cases hstep
      exact moves_setCaller rfl (fun _ h => h) (Or.inl ⟨rfl, fun _ => by rw [hpc]; rfl⟩)
  case h_9 hpc =>
    split_ifs at hstep
    all_goals
      cases hstep
      exact moves_setCaller rfl (fun _ h => h) (Or.inl ⟨rfl, fun _ => by rw [hpc]; rfl⟩)
  case h_11 =>
    split_ifs at hstep
    all_goals
      cases hstep
      exact moves_setCaller rfl (fun _ h => h) (Or.inl ⟨rfl, fun h => by cases h⟩)
  case h_12 =>
    split_ifs at hstep
    · cases hstep
      exact moves_setCaller rfl (fun _ h => h) (Or.inl ⟨rfl, fun h => by cases h⟩)
    · obtain ⟨hfree, rfl⟩ := acquire_map_eq_some hstep
      exact moves_setCaller rfl (fun _ h => h) (Or.inr (Or.inl ⟨hfree, rfl⟩))

/-- A worker moves; the others are where they were. -/
theorem moves_setWorker {i : Nat} {pc : PoolWorkerPc τ} {m : LockedPool τ} (hworkers : m.workers = s.workers)
    (hlock : (m.owner = s.owner ∧ (pc.holds → (s.workers i).holds)) ∨
      (s.owner = none ∧ m.owner = some (.worker i)) ∨
      ((s.workers i).holds ∧ m.owner = none ∧ pc.holds = false)) :
    Moves s (s.withLocked (m.setWorker i pc)) (.worker i) where
  others := by
    rintro (k | j) hne hholds
    · have hk : k ≠ i := fun h => hne (by rw [h])
      have hsame : (m.setWorker i pc).workers k = s.workers k := by
        rw [LockedPool.setWorker_ne m hk, hworkers]
      rw [holds, ← hsame]
      exact hholds
    · exact hholds
  lock := by
    have hself : (m.setWorker i pc).workers i = pc := LockedPool.setWorker_self ..
    have hholds : (s.withLocked (m.setWorker i pc)).holds (.worker i) = pc.holds :=
      congrArg PoolWorkerPc.holds hself
    rw [hholds]
    exact hlock

/-- The workers take the lock for themselves and give it up. -/
theorem workerStep_moves {l : LockedPool τ} {i : Nat} (hstep : s.locked.workerStep i = some l) :
    Moves s (s.withLocked l) (.worker i) := by
  unfold LockedPool.workerStep at hstep
  split at hstep
  case h_1 | h_4 | h_6 =>
    obtain ⟨hfree, rfl⟩ := LockedPool.acquire_map_eq_some hstep
    exact moves_setWorker rfl (Or.inr (Or.inl ⟨hfree, rfl⟩))
  case h_2 hpc =>
    have hpc' : s.workers i = .test := hpc
    split_ifs at hstep
    · cases hstep
      exact moves_setWorker rfl (Or.inr (Or.inr ⟨by rw [hpc']; rfl, rfl, rfl⟩))
    · cases hstep
      exact moves_setWorker rfl (Or.inl ⟨rfl, fun _ => by rw [hpc']; rfl⟩)
  case h_3 | h_9 => cases hstep
  case h_5 hpc =>
    have hpc' : s.workers i = .leave := hpc
    split_ifs at hstep
    all_goals
      cases hstep
      exact moves_setWorker rfl (Or.inl ⟨rfl, fun _ => by rw [hpc']; rfl⟩)
  case h_7 =>
    cases hstep
    exact moves_setWorker rfl (Or.inl ⟨rfl, fun h => by cases h⟩)
  case h_8 hpc =>
    have hpc' : s.workers i = .quit := hpc
    cases hstep
    exact moves_setWorker rfl (Or.inr (Or.inr ⟨by rw [hpc']; rfl, rfl, rfl⟩))

theorem step_eq_some {a : CallStep τ} (hstep : s.step a = some t) : s.act a = some t := by
  unfold step at hstep
  split at hstep
  · cases hstep
  · exact hstep

theorem step_live (hdestroyed : s.destroyed = false) (a : CallStep τ) : s.step a = s.act a :=
  if_neg (by simp [hdestroyed])

theorem wake_moves {i : Nat} {l : LockedPool τ} (hstep : s.locked.step (.wake i) = some l) :
    Moves s (s.withLocked l) (.worker i) := by
  simp only [LockedPool.step] at hstep
  split_ifs at hstep
  cases hstep
  exact moves_setWorker rfl (Or.inl ⟨rfl, fun h => by cases h⟩)

/-- What a step can be: one of a worker, the begin of a call, or one of a thread in a call. -/
theorem act_cases {a : CallStep τ} (hstep : s.act a = some t) :
    (∃ i, Moves s t (.worker i) ∧ t.callers = s.callers ∧ s.FailsEarly a) ∨
    (∃ j r pc, t = setCaller r j pc ∧ Moves s t (.client j) ∧ r.callers = s.callers ∧ pc.inCall = true ∧
      s.FailsEarly a) ∨
    (∃ j succeeds, a = .caller j succeeds ∧ s.callerStep j succeeds = some t) := by
  have hbegins {r : CalledPool τ} {j : Nat} {pc : PoolCallPc τ} (hcallers : r.callers = s.callers)
      (hworkers : r.workers = s.workers) (howner : r.owner = s.owner) (hpc : pc.holds = false) :
      Moves s (r.setCaller j pc) (.client j) :=
    moves_setCaller hcallers (fun i h => by rwa [hworkers] at h)
      (Or.inl ⟨howner, fun h => by rw [hpc] at h; cases h⟩)
  cases a with
  | worker i =>
      obtain ⟨l, hl, rfl⟩ := Option.map_eq_some_iff.mp hstep
      exact Or.inl ⟨i, workerStep_moves hl, rfl, trivial⟩
  | wake i =>
      obtain ⟨l, hl, rfl⟩ := Option.map_eq_some_iff.mp hstep
      exact Or.inl ⟨i, wake_moves hl, rfl, trivial⟩
  | waitFails i =>
      simp only [act] at hstep
      split at hstep
      · split_ifs at hstep
        cases hstep
        exact Or.inl ⟨i, ⟨fun _ _ h => h, Or.inl ⟨rfl, fun h => h⟩⟩, rfl, trivial⟩
      · cases hstep
  | callCreate j threadCount queueSize =>
      simp only [act] at hstep
      split_ifs at hstep
      cases hstep
      exact Or.inr (Or.inl ⟨j, _, _, rfl, hbegins rfl rfl rfl rfl, rfl, rfl, trivial⟩)
  | callAdd j task =>
      simp only [act] at hstep
      split_ifs at hstep
      cases hstep
      exact Or.inr (Or.inl ⟨j, _, _, rfl, hbegins rfl rfl rfl rfl, rfl, rfl, trivial⟩)
  | callDestroy j option =>
      simp only [act] at hstep
      split_ifs at hstep
      cases hstep
      exact Or.inr (Or.inl ⟨j, _, _, rfl, hbegins rfl rfl rfl rfl, rfl, rfl, trivial⟩)
  | caller j succeeds => exact Or.inr (Or.inr ⟨j, succeeds, rfl, hstep⟩)

theorem act_locked {a : CallStep τ} (hstep : s.act a = some t) (hs : s.Locked) : t.Locked := by
  rcases act_cases hstep with ⟨i, hmoves, -⟩ | ⟨j, r, pc, -, hmoves, -⟩ | ⟨j, succeeds, -, hcaller⟩
  · exact hmoves.held hs
  · exact hmoves.held hs
  · exact (callerStep_moves hcaller).held hs

/-! ### Returns -/

/-- After a step of one thread it is the return of that thread that decides. -/
theorem clean_iff (hs : s.Clean) (hmoves : Moves s t (.client j))
    (hcallers : ∀ k, k ≠ j → t.callers k = s.callers k) :
    t.Clean ↔ ∀ ret, t.callers j = .returned ret → ret.Failed →
      t.owner ≠ some (.client j) ∧ ret.Unchanged := by
  constructor
  · exact fun h ret => h j ret
  · intro h k ret hret hfailed
    by_cases hk : k = j
    · subst k
      exact h ret hret hfailed
    · rw [hcallers k hk] at hret
      obtain ⟨hfree, hsame⟩ := hs k ret hret hfailed
      refine ⟨fun hown => hfree (hmoves.owner ?_ hown), hsame⟩
      intro heq
      cases heq
      exact hk rfl

/-- A thread that goes on in its call, or begins one, has returned from none. -/
theorem clean_setCaller {r : CalledPool τ} {pc : PoolCallPc τ} (hs : s.Clean)
    (hmoves : Moves s (r.setCaller j pc) (.client j)) (hcallers : r.callers = s.callers)
    (hpc : ∀ ret, pc ≠ .returned ret) : (r.setCaller j pc).Clean := by
  refine (clean_iff hs hmoves fun k hk => ?_).mpr fun ret hret => ?_
  · rw [setCaller_ne r hk, hcallers]
  · rw [setCaller_self] at hret
    exact absurd hret (hpc ret)

theorem clean_returned {r : CalledPool τ} {ret : PoolReturn τ} (hs : s.Clean)
    (hmoves : Moves s (r.setCaller j (.returned ret)) (.client j)) (hcallers : r.callers = s.callers) :
    (r.setCaller j (.returned ret)).Clean ↔
      (ret.Failed → r.owner ≠ some (.client j) ∧ ret.Unchanged) := by
  rw [clean_iff hs hmoves fun k hk => by rw [setCaller_ne r hk, hcallers]]
  constructor
  · intro h hfailed
    exact h ret (setCaller_self ..) hfailed
  · intro h ret' hret hfailed
    rw [setCaller_self] at hret
    cases hret
    exact h hfailed

theorem addReturn_unchanged_iff (before : ThreadPool τ) (task : τ) (signalled : Bool) :
    ((addReturn before task signalled).Failed → (addReturn before task signalled).Unchanged) ↔
      ((before.threadpoolAdd task).1 = 0 → signalled = true) := by
  unfold addReturn
  rcases ThreadPool.threadpoolAdd_cases before task with ⟨hrejected, hsame⟩ | ⟨-, hpushed⟩
  · refine iff_of_true (fun _ => ?_) fun h => absurd h hrejected
    rw [PoolReturn.Unchanged, hsame]
    exact .refl before
  · simp only [hpushed, PoolReturn.Failed, PoolReturn.Unchanged, true_and, forall_const]
    cases signalled with
    | true => simp
    | false =>
        refine iff_of_false (fun h => ?_) Bool.false_ne_true
        have hcount : before.count + 1 = before.count := (h (by decide)).count
        omega

/-- A value of `threadpool_destroy` other than that of a pool that was shut down already. -/
theorem destroyReturn_not_failed {value : Int} (hvalue : value ≠ THREADPOOL_SHUTDOWN)
    (before : ThreadPool τ) (option : ShutDownOption) : ¬ (destroyReturn before option value).Failed := hvalue

/-- A thread that goes on in its call: there is nothing to be asked of the step. -/
theorem goesOn_iff {succeeds : Bool} {r : CalledPool τ} {pc : PoolCallPc τ} (hs : s.Clean)
    (hmoves : Moves s (r.setCaller j pc) (.client j)) (hcallers : r.callers = s.callers)
    (hpc : ∀ ret, pc ≠ .returned ret) (hearly : s.EarlyAt j succeeds (s.callers j)) :
    (r.setCaller j pc).Clean ↔ s.FailsEarly (.caller j succeeds) :=
  iff_of_true (clean_setCaller hs hmoves hcallers hpc) hearly

/-- A thread that comes back from `threadpool_destroy`, and not with the value that stands for a pool that
was shut down already. -/
theorem destroyed_iff {succeeds : Bool} {r : CalledPool τ} {before : ThreadPool τ} {option : ShutDownOption}
    {value : Int} (hs : s.Clean)
    (hmoves : Moves s (r.setCaller j (.returned (destroyReturn before option value))) (.client j))
    (hcallers : r.callers = s.callers) (hvalue : value ≠ THREADPOOL_SHUTDOWN)
    (hearly : s.EarlyAt j succeeds (s.callers j)) :
    (r.setCaller j (.returned (destroyReturn before option value))).Clean ↔
      s.FailsEarly (.caller j succeeds) := by
  rw [clean_returned hs hmoves hcallers]
  exact iff_of_true (fun h => absurd h (destroyReturn_not_failed hvalue _ _)) hearly

/-- A thread goes on in its call: what it returns from is clean just if it fails early or not at all. -/
theorem callerStep_clean_iff {succeeds : Bool} (hs : s.Clean) (hlocked : s.Locked)
    (hstep : s.callerStep j succeeds = some t) : t.Clean ↔ s.FailsEarly (.caller j succeeds) := by
  have hmoves := callerStep_moves hstep
  have hearly : ∀ {pc : PoolCallPc τ}, s.callers j = pc → s.EarlyAt j succeeds pc →
      s.EarlyAt j succeeds (s.callers j) := fun hpc h => hpc ▸ h
  unfold callerStep at hstep
  split at hstep
  case h_1 | h_13 => cases hstep
  case h_2 threadCount made hpc =>
    split_ifs at hstep with hmore hsucceeds
    · cases hstep
      exact goesOn_iff hs hmoves rfl (by simp) (hearly hpc (by simp [EarlyAt, hsucceeds]))
    · cases hstep
      rw [clean_returned hs hmoves rfl, FailsEarly, hpc]
      simp [EarlyAt, PoolReturn.Failed, PoolReturn.Unchanged, hmore, hsucceeds, and_comm]
    · cases hstep
      rw [clean_returned hs hmoves rfl, FailsEarly, hpc]
      simp [EarlyAt, PoolReturn.Failed, hmore]
  case h_3 hpc | h_7 hpc =>
    obtain ⟨-, rfl⟩ := acquire_map_eq_some hstep
    exact goesOn_iff hs hmoves rfl (by simp) (hearly hpc trivial)
  case h_4 task hpc =>
    simp only [] at hstep
    split_ifs at hstep
    all_goals
      cases hstep
      exact goesOn_iff hs hmoves rfl (by simp) (hearly hpc trivial)
  case h_5 hpc | h_10 hpc =>
    cases hstep
    exact goesOn_iff hs hmoves rfl (by simp) (hearly hpc trivial)
  case h_6 before task signalled hpc =>
    cases hstep
    rw [clean_returned hs hmoves rfl, FailsEarly, hpc, EarlyAt, ← addReturn_unchanged_iff]
    exact forall_congr' fun _ => and_iff_right (by simp [unlock])
  case h_8 option hpc =>
    by_cases hshut : s.pool.shutdown = none
    · simp only [ThreadPool.threadpoolDestroy_open hshut, ne_eq, not_true_eq_false, if_false] at hstep
      cases hstep
      exact goesOn_iff hs hmoves rfl (by simp) (hearly hpc hshut)
    · -- the lock is kept
      simp only [ThreadPool.threadpoolDestroy_shut hshut] at hstep
      rw [if_pos (by decide)] at hstep
      cases hstep
      have hown : s.owner = some (.client j) := hlocked (.client j) (by rw [holds, hpc]; rfl)
      rw [clean_returned hs hmoves rfl, FailsEarly, hpc]
      exact iff_of_false (fun h => (h rfl).1 hown) hshut
  case h_9 before option hpc =>
    split_ifs at hstep
    · cases hstep
      exact goesOn_iff hs hmoves rfl (by simp) (hearly hpc trivial)
    · cases hstep
      exact destroyed_iff hs hmoves rfl (by decide) (hearly hpc trivial)
  case h_11 before option i failed hpc =>
    split_ifs at hstep
    all_goals cases hstep
    · exact goesOn_iff hs hmoves rfl (by simp) (hearly hpc trivial)
    · exact goesOn_iff hs hmoves rfl (by simp) (hearly hpc trivial)
    · exact destroyed_iff hs hmoves rfl (by decide) (hearly hpc trivial)
    · exact goesOn_iff hs hmoves rfl (by simp) (hearly hpc trivial)
  case h_12 before option hpc =>
    split_ifs at hstep
    · cases hstep
      exact destroyed_iff hs hmoves rfl (by decide) (hearly hpc trivial)
    · obtain ⟨-, rfl⟩ := acquire_map_eq_some hstep
      exact destroyed_iff hs hmoves rfl (by decide) (hearly hpc trivial)

/-- One step keeps the returns clean just if the call in it fails early. -/
theorem step_clean_iff {a : CallStep τ} (hstep : s.step a = some t) (hlocked : s.Locked) (hs : s.Clean) :
    t.Clean ↔ s.FailsEarly a := by
  rcases act_cases (step_eq_some hstep) with ⟨i, hmoves, hcallers, hearly⟩ |
    ⟨j, r, pc, rfl, hmoves, hcallers, hpc, hearly⟩ | ⟨j, succeeds, rfl, hcaller⟩
  · refine iff_of_true (fun j ret hret hfailed => ?_) hearly
    rw [hcallers] at hret
    obtain ⟨hfree, hsame⟩ := hs j ret hret hfailed
    exact ⟨fun hown => hfree (hmoves.owner (by simp) hown), hsame⟩
  · refine iff_of_true (clean_setCaller hs hmoves hcallers fun ret heq => ?_) hearly
    rw [heq] at hpc
    cases hpc
  · exact callerStep_clean_iff hs hlocked hcaller

/-- **Failed calls leave the pool as it was**, in every state of a run, just if every step of the run fails
early or not at all. -/
theorem run_clean_iff {as : List (CallStep τ)} (hrun : Run step (fun _ _ => True) initial as t) :
    (∀ bs u, bs <+: as → Run step (fun _ _ => True) initial bs u → u.Clean) ↔
      Run step FailsEarly initial as t := by
  apply hrun.prefixes_iff (I := Locked)
  · intro s a t _ hstep hs
    exact act_locked (step_eq_some hstep) hs
  · intro s a t _ hstep hs hclean
    exact step_clean_iff hstep hs hclean
  · rintro (i | j) hholds
    · cases hholds
    · cases hholds
  · intro j ret hret
    cases hret

/-- A call of `threadpool_create` that fails at its first thread, one that succeeds, a task, and one task
too many. -/
theorem run_clean_full :
    ∃ t : CalledPool Nat, (∃ before after, t.callers 0 = .returned (.add THREADPOOL_QUQUE_FULL before after)) ∧
      t.Clean := by
  have hexec : ∃ t : CalledPool Nat, exec (checked step FailsEarly) initial
      [.callCreate 0 1 1, .caller 0 false, .callCreate 0 1 1, .caller 0 true, .caller 0 true, .callAdd 0 7,
        .caller 0 true, .caller 0 true, .caller 0 true, .caller 0 true, .callAdd 0 8, .caller 0 true,
        .caller 0 true, .caller 0 true] = some t ∧
      ∃ before after, t.callers 0 = .returned (.add THREADPOOL_QUQUE_FULL before after) :=
    ⟨_, rfl, _, _, rfl⟩
  obtain ⟨t, ht, hfull⟩ := hexec
  have hrun := run_of_exec_checked ht
  have hall : Run step (fun _ _ => True) initial _ t := hrun.mono fun _ _ _ => trivial
  exact ⟨t, hfull, (run_clean_iff hall).mpr hrun _ t (List.prefix_refl _) hall⟩

/-- A pool that is shut down twice: the second call comes back with the lock. -/
theorem run_shutdown_twice :
    ∃ (as : List (CallStep Nat)) (t : CalledPool Nat), Run step (fun _ _ => True) initial as t ∧
      (∃ before after, t.callers 2 = .returned (.destroy THREADPOOL_SHUTDOWN before after)) ∧
      t.owner = some (.client 2) ∧ ¬ t.Clean := by
  have hexec : ∃ t : CalledPool Nat, exec (checked step fun _ _ => True) initial
      [.callCreate 0 1 1, .caller 0 true, .caller 0 true, .callDestroy 1 .graceful, .caller 1 true,
        .caller 1 true, .caller 1 true, .caller 1 true, .callDestroy 2 .graceful, .caller 2 true,
        .caller 2 true] = some t ∧
      (∃ before after, t.callers 2 = .returned (.destroy THREADPOOL_SHUTDOWN before after)) ∧
      t.owner = some (.client 2) := ⟨_, rfl, ⟨_, _, rfl⟩, rfl⟩
  obtain ⟨t, ht, ⟨before, after, hret⟩, howner⟩ := hexec
  exact ⟨_, t, run_of_exec_checked ht, ⟨before, after, hret⟩, howner,
    fun hclean => (hclean 2 _ hret rfl).1 howner⟩

/-- The loop of `threadpool_create`, where every `pthread_create` succeeds. -/
theorem run_creating (threadCount k made : Nat) (hmade : made + k = threadCount)
    (hdestroyed : s.destroyed = false) (hpc : s.callers j = .creating threadCount made) :
    ∃ t, Run step (fun _ _ => True) s (List.replicate k (.caller j true)) t ∧ t.destroyed = false ∧
      t.callers j = .creating threadCount threadCount ∧
      t.pool = { s.pool with threadCount := s.pool.threadCount + k, started := s.pool.started + k } := by
  induction k generalizing s made with
  | zero =>
      refine ⟨s, .nil s, hdestroyed, by rw [hpc, ← hmade, Nat.add_zero], ?_⟩
      simp
  | succ k ih =>
      have hstep : s.step (.caller j true) =
          some ((s.spawn made).setCaller j (.creating threadCount (made + 1))) := by
        rw [step_live hdestroyed, act, callerStep, hpc]
        simp only []
        rw [if_pos (by omega), if_pos trivial]
      obtain ⟨t, hrun, hlive, hlast, hpool⟩ := ih (s := (s.spawn made).setCaller j _) (made + 1) (by omega)
        hdestroyed (setCaller_self ..)
      refine ⟨t, .cons trivial hstep hrun, hlive, hlast, ?_⟩
      rw [hpool]
      simp [setCaller, spawn, Nat.add_assoc, Int.add_assoc, Nat.add_comm 1 k, Int.add_comm 1 k]

/-- **`threadpool_create` without a failure** is that of the pool. -/
theorem run_create (hdestroyed : s.destroyed = false) (hpc : (s.callers j).inCall = false)
    (threadCount queueSize : Int) :
    ∃ as t made, Run step (fun _ _ => True) s as t ∧ t.callers j = .returned (.create 0 made) ∧
      t.pool = s.pool.threadpoolCreate threadCount queueSize := by
  have hcall : s.step (.callCreate j threadCount queueSize) = some ((s.reset threadCount queueSize).setCaller j
      (.creating (s.pool.threadpoolCreate threadCount queueSize).threadCount 0)) := by
    rw [step_live hdestroyed, act, if_neg (by simp [hpc])]
  obtain ⟨t, hrun, hlive, hlast, hpool⟩ := run_creating (s := (s.reset threadCount queueSize).setCaller j _)
    (s.pool.threadpoolCreate threadCount queueSize).threadCount _ 0 (Nat.zero_add _) hdestroyed
    (setCaller_self ..)
  have hreturn : t.step (.caller j true) = some (t.setCaller j (.returned (.create 0
      (s.pool.threadpoolCreate threadCount queueSize).threadCount))) := by
    rw [step_live hlive, act, callerStep, hlast]
    exact if_neg (Nat.lt_irrefl _)
  refine ⟨_, _, _, .cons trivial hcall (hrun.append (.cons trivial hreturn (.nil _))), setCaller_self .., ?_⟩
  show t.pool = _
  rw [hpool]
  simp [setCaller, reset, ThreadPool.threadpoolCreate]

end CalledPool

end WebServer
