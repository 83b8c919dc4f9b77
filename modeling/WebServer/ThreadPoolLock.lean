import WebServer.Locks
import WebServer.ThreadPool

/-! The threads of `ThreadPool` and the lock they share: any number of workers, and any number of other
threads that call `threadpool_add` and `threadpool_destroy`. A worker that has taken a task asks for
the lock again, where the message behind it speaks of giving it up, and so it waits for itself. -/

namespace WebServer

open Runs

inductive PoolThread where
  | worker (i : Nat)
  | client (j : Nat)
  deriving DecidableEq

/-- Where a worker is in `threadpool_thread`. -/
inductive PoolWorkerPc (τ : Type) where
  /-- About to lock, at the head of the loop. -/
  | lock
  /-- At the condition of the inner loop. -/
  | test
  /-- Asleep in `pthread_cond_wait`. -/
  | wait
  /-- About to lock again, in `pthread_cond_wait`. -/
  | woken
  /-- Behind the inner loop. -/
  | leave
  /-- About to call `pthread_mutex_lock` with a task taken. -/
  | relock (task : Option τ)
  /-- About to call the task. -/
  | run (task : Option τ)
  /-- Behind the outer loop. -/
  | quit
  | exited
  deriving DecidableEq

namespace PoolWorkerPc

variable {τ : Type}

def hasExited : PoolWorkerPc τ → Bool
  | exited => true
  | lock | test | wait | woken | leave | relock _ | run _ | quit => false

def sleeps : PoolWorkerPc τ → Bool
  | wait => true
  | lock | test | woken | leave | relock _ | run _ | quit | exited => false

/-- The worker's next step is a call of `pthread_mutex_lock`, or the end of a wait that takes the lock. -/
def requests : PoolWorkerPc τ → Bool
  | lock | woken | relock _ => true
  | test | wait | leave | run _ | quit | exited => false

/-- The worker has a task that it took from the queue. -/
def carries : PoolWorkerPc τ → Bool
  | relock _ | run _ => true
  | lock | test | wait | woken | leave | quit | exited => false

/-- The worker has the lock. -/
def holds : PoolWorkerPc τ → Bool
  | test | leave | relock _ | quit => true
  | lock | wait | woken | run _ | exited => false

end PoolWorkerPc

/-- Where another thread is in `threadpool_add` or `threadpool_destroy`. -/
inductive PoolClientPc (τ : Type) where
  | idle
  | add (task : τ)
  | addLocked (task : τ)
  | addUnlock
  | destroy (option : ShutDownOption)
  | destroyLocked (option : ShutDownOption)
  | destroyUnlock
  | join (i : Nat)
  | free
  deriving DecidableEq

namespace PoolClientPc

variable {τ : Type}

def isIdle : PoolClientPc τ → Bool
  | idle => true
  | add _ | addLocked _ | addUnlock | destroy _ | destroyLocked _ | destroyUnlock | join _ | free => false

/-- The thread has the lock, and goes on in its call. -/
def holds : PoolClientPc τ → Bool
  | addLocked _ | addUnlock | destroyLocked _ | destroyUnlock => true
  | idle | add _ | destroy _ | join _ | free => false

end PoolClientPc

structure LockedPool (τ : Type) where
  pool : ThreadPool τ
  owner : Option PoolThread
  workers : Nat → PoolWorkerPc τ
  clients : Nat → PoolClientPc τ

/-- What moves: a worker, a waiting worker that a signal, a broadcast or nothing wakes up, a thread that
begins a call, and a thread in a call. -/
inductive LockStep (τ : Type) where
  | worker (i : Nat)
  | wake (i : Nat)
  | callAdd (j : Nat) (task : τ)
  | callDestroy (j : Nat) (option : ShutDownOption)
  | client (j : Nat)
  deriving DecidableEq

namespace LockedPool

variable {τ : Type}

/-- After a successful `threadpool_create`. -/
def created (p : ThreadPool τ) (threadCount queueSize : Int) : LockedPool τ where
  pool := p.threadpoolCreate threadCount queueSize
  owner := none
  workers := fun i =>
    if i < (p.threadpoolCreate threadCount queueSize).threadCount then .lock else .exited
  clients := fun _ => .idle

def setWorker (s : LockedPool τ) (i : Nat) (pc : PoolWorkerPc τ) : LockedPool τ :=
  { s with workers := Function.update s.workers i pc }

def setClient (s : LockedPool τ) (j : Nat) (pc : PoolClientPc τ) : LockedPool τ :=
  { s with clients := Function.update s.clients j pc }

/-- `pthread_mutex_lock` returns, where the lock is free. -/
def acquire (s : LockedPool τ) (thread : PoolThread) : Option (LockedPool τ) :=
  if s.owner = none then some { s with owner := some thread } else none

def unlock (s : LockedPool τ) : LockedPool τ := { s with owner := none }

/-- The next step of a worker. -/
def workerStep (s : LockedPool τ) (i : Nat) : Option (LockedPool τ) :=
  match s.workers i with
  | .lock => (s.acquire (.worker i)).map (·.setWorker i .test)
  | .test => if s.pool.Waits then some (s.unlock.setWorker i .wait) else some (s.setWorker i .leave)
  | .wait => none
  | .woken => (s.acquire (.worker i)).map (·.setWorker i .test)
  | .leave =>
      if s.pool.Leaves then
        some ({ s with pool := { s.pool with started := s.pool.started - 1 } }.setWorker i .quit)
      else some ({ s with pool := s.pool.takeTask.2 }.setWorker i (.relock s.pool.takeTask.1))
  | .relock task => (s.acquire (.worker i)).map (·.setWorker i (.run task))
  | .run _ => some (s.setWorker i .lock)
  | .quit => some (s.unlock.setWorker i .exited)
  | .exited => none

/-- The next step of another thread. `threadpool_destroy` of a pool that is shut down already returns
without giving the lock up, and `threadpool_free` keeps it. -/
def clientStep (s : LockedPool τ) (j : Nat) : Option (LockedPool τ) :=
  match s.clients j with
  | .idle => none
  | .add task => (s.acquire (.client j)).map (·.setClient j (.addLocked task))
  | .addLocked task => some ({ s with pool := (s.pool.threadpoolAdd task).2 }.setClient j .addUnlock)
  | .addUnlock => some (s.unlock.setClient j .idle)
  | .destroy option => (s.acquire (.client j)).map (·.setClient j (.destroyLocked option))
  | .destroyLocked option =>
      if (s.pool.threadpoolDestroy option).1 ≠ 0 then some (s.setClient j .idle)
      else some ({ s with pool := (s.pool.threadpoolDestroy option).2 }.setClient j .destroyUnlock)
  | .destroyUnlock => some (s.unlock.setClient j (.join 0))
  | .join i =>
      if i < s.pool.threadCount then
        if (s.workers i).hasExited then some (s.setClient j (.join (i + 1))) else none
      else some (s.setClient j .free)
  | .free =>
      if 0 < s.pool.started then some (s.setClient j .idle)
      else (s.acquire (.client j)).map (·.setClient j .idle)

def step (s : LockedPool τ) : LockStep τ → Option (LockedPool τ)
  | .worker i => s.workerStep i
  | .wake i => if (s.workers i).sleeps then some (s.setWorker i .woken) else none
  | .callAdd j task => if (s.clients j).isIdle then some (s.setClient j (.add task)) else none
  | .callDestroy j option =>
      if (s.clients j).isIdle then some (s.setClient j (.destroy option)) else none
  | .client j => s.clientStep j

/-- No worker asks for the lock while it has it, and each starts its task without it. -/
structure Disciplined (s : LockedPool τ) : Prop where
  request : ∀ i, (s.workers i).requests → s.owner ≠ some (.worker i)
  start : ∀ i task, s.workers i = .run task → s.owner ≠ some (.worker i)

/-- The step is not one of a worker that takes a task: a worker behind its wait leaves, since the pool
is shut down at once, or gracefully with no task left. -/
def TakesNone (s : LockedPool τ) : LockStep τ → Prop
  | .worker i => s.workers i = .leave → s.pool.Leaves
  | .wake _ => True
  | .callAdd _ _ => True
  | .callDestroy _ _ => True
  | .client _ => True

instance [DecidableEq τ] (s : LockedPool τ) (a : LockStep τ) : Decidable (s.TakesNone a) :=
  match a with
  | .worker _ => inferInstanceAs (Decidable (_ → _))
  | .wake _ => inferInstanceAs (Decidable True)
  | .callAdd _ _ => inferInstanceAs (Decidable True)
  | .callDestroy _ _ => inferInstanceAs (Decidable True)
  | .client _ => inferInstanceAs (Decidable True)

/-- The thread stands where it needs the lock. -/
def holds (s : LockedPool τ) : PoolThread → Bool
  | .worker i => (s.workers i).holds
  | .client j => (s.clients j).holds

structure Inv (s : LockedPool τ) : Prop where
  worker : ∀ i, s.owner = some (.worker i) ↔ (s.workers i).holds
  client : ∀ j, (s.clients j).holds → s.owner = some (.client j)
  leave : ∀ i, s.workers i = .leave → ¬ s.pool.Waits

variable {s t : LockedPool τ} {i j : Nat}

@[simp] theorem setWorker_self (s : LockedPool τ) (i : Nat) (pc : PoolWorkerPc τ) :
    (s.setWorker i pc).workers i = pc := Function.update_self ..

theorem setWorker_ne (s : LockedPool τ) {i k : Nat} (hne : k ≠ i) (pc : PoolWorkerPc τ) :
    (s.setWorker i pc).workers k = s.workers k := Function.update_of_ne hne ..

theorem setClient_self (s : LockedPool τ) (j : Nat) (pc : PoolClientPc τ) :
    (s.setClient j pc).clients j = pc := Function.update_self ..

theorem setClient_ne (s : LockedPool τ) {j k : Nat} (hne : k ≠ j) (pc : PoolClientPc τ) :
    (s.setClient j pc).clients k = s.clients k := Function.update_of_ne hne ..

theorem acquire_map_eq_some {thread : PoolThread} {f : LockedPool τ → LockedPool τ}
    (h : (s.acquire thread).map f = some t) : s.owner = none ∧ t = f { s with owner := some thread } :=
  Locks.of_acquire h

theorem created_inv (p : ThreadPool τ) (threadCount queueSize : Int) :
    (created p threadCount queueSize).Inv where
  worker := fun i => by
    simp only [created]
    split_ifs <;> simp [PoolWorkerPc.holds]
  client := fun j hj => by
    simp [created, PoolClientPc.holds] at hj
  leave := fun i hi => by
    simp only [created] at hi
    split_ifs at hi

namespace Inv

theorem held (hs : s.Inv) : Locks.Held s.owner s.holds
  | .worker i, hholds => (hs.worker i).mpr hholds
  | .client j, hholds => hs.client j hholds

/-- While nobody has the lock, no worker stands where it needs it. -/
theorem free (hs : s.Inv) (howner : s.owner = none) (i : Nat) : (s.workers i).holds = false :=
  (howner ▸ hs.held).free (.worker i)

/-- The lock is not recursive: a worker that has it waits for it for ever. -/
theorem not_again (hs : s.Inv) (hholds : (s.workers i).holds) {f : LockedPool τ → LockedPool τ} :
    (s.acquire (.worker i)).map f ≠ some t := by
  intro hstep
  obtain ⟨howner, -⟩ := acquire_map_eq_some hstep
  have hfree := hs.free howner i
  rw [hholds] at hfree
  cases hfree

/-- Two threads do not have the lock at once. -/
theorem unique (hs : s.Inv) {x y : PoolThread} (hx : s.holds x) (hne : y ≠ x) : s.holds y = false :=
  Bool.eq_false_iff.mpr fun hy => hne (hs.held.unique hy hx)

theorem worker_unique (hs : s.Inv) {k : Nat} (hi : (s.workers i).holds) (hne : k ≠ i) :
    (s.workers k).holds = false :=
  hs.unique (x := .worker i) (y := .worker k) hi fun h => hne (PoolThread.worker.inj h)

/-- No worker has the lock while another thread has it. -/
theorem not_holds (hs : s.Inv) (hj : (s.clients j).holds) (i : Nat) : (s.workers i).holds = false :=
  hs.unique (x := .client j) (y := .worker i) hj nofun

/-- A worker moves on without taking the lock or giving it up. It changes the pool only if it has the
lock, so that no other worker is behind its wait. -/
theorem advance (hs : s.Inv) {pc : PoolWorkerPc τ} {p : ThreadPool τ}
    (hholds : pc.holds = (s.workers i).holds) (hpool : p = s.pool ∨ (s.workers i).holds)
    (hleave : pc = .leave → ¬ p.Waits) : ({ s with pool := p }.setWorker i pc).Inv where
  worker := fun k => by
    by_cases hk : k = i
    · subst k
      rw [setWorker_self, hholds]
      exact hs.worker i
    · rw [setWorker_ne _ hk]
      exact hs.worker k
  client := hs.client
  leave := fun k hk => by
    by_cases hki : k = i
    · subst k
      rw [setWorker_self] at hk
      exact hleave hk
    · rw [setWorker_ne _ hki] at hk
      rcases hpool with rfl | hi
      · exact hs.leave k hk
      · have hfree := hs.worker_unique hi hki
        rw [show s.workers k = .leave from hk] at hfree
        cases hfree

theorem acquired (hs : s.Inv) (howner : s.owner = none) :
    ({ s with owner := some (.worker i) }.setWorker i .test).Inv where
  worker := fun k => by
    by_cases hk : k = i
    · subst k
      exact iff_of_true rfl (by rw [setWorker_self]; rfl)
    · rw [setWorker_ne _ hk]
      refine iff_of_false (fun h => hk ?_) ?_
      · cases h
        rfl
      · simp [hs.free howner k]
  client := fun k hk => by
    have := hs.client k hk
    rw [howner] at this
    cases this
  leave := fun k hk => by
    by_cases hki : k = i
    · subst k
      rw [setWorker_self] at hk
      cases hk
    · rw [setWorker_ne _ hki] at hk
      exact hs.leave k hk

theorem released (hs : s.Inv) (hi : (s.workers i).holds) {pc : PoolWorkerPc τ}
    (hpc : pc.holds = false) : (s.unlock.setWorker i pc).Inv where
  worker := fun k => by
    refine iff_of_false (fun h => by cases h) ?_
    by_cases hk : k = i
    · subst k
      simp [hpc]
    · rw [setWorker_ne _ hk]
      simp [unlock, hs.worker_unique hi hk]
  client := fun k hk => by
    have hk' : s.holds (.client k) := hk
    rw [hs.unique (x := .worker i) (y := .client k) hi nofun] at hk'
    cases hk'
  leave := fun k hk => by
    by_cases hki : k = i
    · subst k
      rw [setWorker_self] at hk
      subst hk
      cases hpc
    · rw [setWorker_ne _ hki] at hk
      exact hs.leave k hk

/-- Another thread moves on without taking the lock, and changes the pool only if it has it. -/
theorem client_advance (hs : s.Inv) {pc : PoolClientPc τ} {p : ThreadPool τ}
    (hholds : pc.holds → (s.clients j).holds) (hpool : p = s.pool ∨ (s.clients j).holds) :
    ({ s with pool := p }.setClient j pc).Inv where
  worker := hs.worker
  client := fun k hk => by
    by_cases hkj : k = j
    · subst k
      rw [setClient_self] at hk
      exact hs.client j (hholds hk)
    · rw [setClient_ne _ hkj] at hk
      exact hs.client k hk
  leave := fun i hi => by
    rcases hpool with rfl | hj
    · exact hs.leave i hi
    · have hfree := hs.not_holds hj i
      rw [show s.workers i = .leave from hi] at hfree
      cases hfree

theorem client_acquired (hs : s.Inv) (howner : s.owner = none) (pc : PoolClientPc τ) :
    ({ s with owner := some (.client j) }.setClient j pc).Inv where
  worker := fun i => by
    refine iff_of_false (fun h => by cases h) ?_
    simp [setClient, hs.free howner i]
  client := fun k hk => by
    by_cases hkj : k = j
    · subst k
      rfl
    · rw [setClient_ne _ hkj] at hk
      have hclient := hs.client k hk
      rw [howner] at hclient
      cases hclient
  leave := hs.leave

theorem client_released (hs : s.Inv) (hj : (s.clients j).holds) {pc : PoolClientPc τ}
    (hpc : pc.holds = false) : (s.unlock.setClient j pc).Inv where
  worker := fun i => by
    refine iff_of_false (fun h => by cases h) ?_
    simp [setClient, unlock, hs.not_holds hj i]
  client := fun k hk => by
    by_cases hkj : k = j
    · subst k
      rw [setClient_self, hpc] at hk
      cases hk
    · rw [setClient_ne _ hkj] at hk
      have hk' : s.holds (.client k) := hk
      rw [hs.unique (x := .client j) hj fun h => hkj (PoolThread.client.inj h)] at hk'
      cases hk'
  leave := hs.leave

theorem workerStep (hs : s.Inv) (hstep : s.workerStep i = some t) : t.Inv := by
  unfold LockedPool.workerStep at hstep
  split at hstep
  case h_1 hpc =>
    obtain ⟨howner, rfl⟩ := acquire_map_eq_some hstep
    exact hs.acquired howner
  case h_2 hpc =>
    split_ifs at hstep with hwaits
    · cases hstep
      exact hs.released (by rw [hpc]; rfl) rfl
    · cases hstep
      exact hs.advance (by rw [hpc]; rfl) (Or.inl rfl) fun _ => hwaits
  case h_3 => cases hstep
  case h_4 hpc =>
    obtain ⟨howner, rfl⟩ := acquire_map_eq_some hstep
    exact hs.acquired howner
  case h_5 hpc =>
    split_ifs at hstep with hleaves
    all_goals
      cases hstep
      exact hs.advance (by rw [hpc]; rfl) (Or.inr (by rw [hpc]; rfl)) fun h => by cases h
  case h_6 task hpc => exact absurd hstep (hs.not_again (by rw [hpc]; rfl))
  case h_7 task hpc =>
    cases hstep
    exact hs.advance (by rw [hpc]; rfl) (Or.inl rfl) fun h => by cases h
  case h_8 hpc =>
    cases hstep
    exact hs.released (by rw [hpc]; rfl) rfl
  case h_9 => cases hstep

theorem clientStep (hs : s.Inv) (hstep : s.clientStep j = some t) : t.Inv := by
  unfold LockedPool.clientStep at hstep
  split at hstep
  case h_1 => cases hstep
  case h_2 task hpc =>
    obtain ⟨howner, rfl⟩ := acquire_map_eq_some hstep
    exact hs.client_acquired howner _
  case h_3 task hpc =>
    cases hstep
    exact hs.client_advance (fun _ => by rw [hpc]; rfl) (Or.inr (by rw [hpc]; rfl))
  case h_4 hpc =>
    cases hstep
    exact hs.client_released (by rw [hpc]; rfl) rfl
  case h_5 option hpc =>
    obtain ⟨howner, rfl⟩ := acquire_map_eq_some hstep
    exact hs.client_acquired howner _
  case h_6 option hpc =>
    split_ifs at hstep with hshut
    · cases hstep
      exact hs.client_advance (fun h => by cases h) (Or.inl rfl)
    · cases hstep
      exact hs.client_advance (fun _ => by rw [hpc]; rfl) (Or.inr (by rw [hpc]; rfl))
  case h_7 hpc =>
    cases hstep
    exact hs.client_released (by rw [hpc]; rfl) rfl
  case h_8 i hpc =>
    split_ifs at hstep
    all_goals
      cases hstep
      exact hs.client_advance (fun h => by cases h) (Or.inl rfl)
  case h_9 hpc =>
    split_ifs at hstep
    · cases hstep
      exact hs.client_advance (fun h => by cases h) (Or.inl rfl)
    · obtain ⟨howner, rfl⟩ := acquire_map_eq_some hstep
      exact hs.client_acquired howner _

theorem step (hs : s.Inv) {a : LockStep τ} (hstep : s.step a = some t) : t.Inv := by
  cases a with
  | worker i => exact hs.workerStep hstep
  | wake i =>
      simp only [LockedPool.step] at hstep
      split_ifs at hstep with hsleeps
      cases hstep
      refine hs.advance ?_ (Or.inl rfl) fun h => by cases h
      cases hpc : s.workers i <;> rw [hpc] at hsleeps <;> first | rfl | cases hsleeps
  | callAdd j task =>
      simp only [LockedPool.step] at hstep
      split_ifs at hstep
      cases hstep
      exact hs.client_advance (fun h => by cases h) (Or.inl rfl)
  | callDestroy j option =>
      simp only [LockedPool.step] at hstep
      split_ifs at hstep
      cases hstep
      exact hs.client_advance (fun h => by cases h) (Or.inl rfl)
  | client j => exact hs.clientStep hstep

end Inv

/-! ### Tasks that are taken -/

/-- What a worker's step can do: take a task behind its wait, leave the loop there, or go on without a
task and without a change of the pool. -/
theorem workerStep_cases (hs : s.Inv) (hstep : s.workerStep i = some t) :
    (s.workers i = .leave ∧ ¬ s.pool.Leaves ∧
      t = { s with pool := s.pool.takeTask.2 }.setWorker i (.relock s.pool.takeTask.1)) ∨
    (s.workers i = .leave ∧ s.pool.Leaves ∧
      t = { s with pool := { s.pool with started := s.pool.started - 1 } }.setWorker i .quit) ∨
    (s.workers i ≠ .leave ∧ t.pool = s.pool ∧
      ∃ pc, pc.carries = false ∧ t.workers = Function.update s.workers i pc) := by
  unfold workerStep at hstep
  split at hstep
  case h_1 hpc | h_4 hpc =>
    obtain ⟨-, rfl⟩ := acquire_map_eq_some hstep
    exact Or.inr (Or.inr ⟨by simp [hpc], rfl, .test, rfl, rfl⟩)
  case h_2 hpc =>
    split_ifs at hstep
    · cases hstep
      exact Or.inr (Or.inr ⟨by simp [hpc], rfl, .wait, rfl, rfl⟩)
    · cases hstep
      exact Or.inr (Or.inr ⟨by simp [hpc], rfl, .leave, rfl, rfl⟩)
  case h_3 | h_9 => cases hstep
  case h_5 hpc =>
    split_ifs at hstep with hleaves
    · exact Or.inr (Or.inl ⟨hpc, hleaves, (Option.some.inj hstep).symm⟩)
    · exact Or.inl ⟨hpc, hleaves, (Option.some.inj hstep).symm⟩
  case h_6 task hpc => exact absurd hstep (hs.not_again (by rw [hpc]; rfl))
  case h_7 hpc =>
    cases hstep
    exact Or.inr (Or.inr ⟨by simp [hpc], rfl, .lock, rfl, rfl⟩)
  case h_8 hpc =>
    cases hstep
    exact Or.inr (Or.inr ⟨by simp [hpc], rfl, .exited, rfl, rfl⟩)

/-- What another thread's step can do: a stretch under the lock, or nothing to the pool. -/
theorem clientStep_cases (hstep : s.clientStep j = some t) :
    t.workers = s.workers ∧ (t.pool = s.pool ∨ ∃ b, s.pool.step b = some t.pool) := by
  unfold clientStep at hstep
  split at hstep
  case h_1 => cases hstep
  case h_2 | h_5 =>
    obtain ⟨-, rfl⟩ := acquire_map_eq_some hstep
    exact ⟨rfl, Or.inl rfl⟩
  case h_3 task _ =>
    cases hstep
    exact ⟨rfl, Or.inr ⟨.add task, rfl⟩⟩
  case h_4 | h_7 =>
    cases hstep
    exact ⟨rfl, Or.inl rfl⟩
  case h_6 option _ =>
    split_ifs at hstep
    · cases hstep
      exact ⟨rfl, Or.inl rfl⟩
    · cases hstep
      exact ⟨rfl, Or.inr ⟨.destroy option, rfl⟩⟩
  case h_8 =>
    split_ifs at hstep
    all_goals
      cases hstep
      exact ⟨rfl, Or.inl rfl⟩
  case h_9 =>
    split_ifs at hstep
    · cases hstep
      exact ⟨rfl, Or.inl rfl⟩
    · obtain ⟨-, rfl⟩ := acquire_map_eq_some hstep
      exact ⟨rfl, Or.inl rfl⟩

/-- A worker that has a task after a step had it before, or took it in the step. -/
theorem carries_of_step (hs : s.Inv) {a : LockStep τ} (hstep : s.step a = some t) {k : Nat}
    (hcarries : (t.workers k).carries) :
    t.workers k = s.workers k ∨ (¬ s.TakesNone a ∧ (t.workers k).requests) := by
  cases a with
  | worker i =>
      by_cases hk : k = i
      · subst k
        rcases workerStep_cases hs hstep with ⟨hpc, hleaves, rfl⟩ | ⟨-, -, rfl⟩ | ⟨-, -, pc, hpc, hworkers⟩
        · exact Or.inr ⟨fun h => hleaves (h hpc), by rw [setWorker_self]; rfl⟩
        · rw [setWorker_self] at hcarries
          cases hcarries
        · rw [hworkers, Function.update_self, hpc] at hcarries
          cases hcarries
      · apply Or.inl
        rcases workerStep_cases hs hstep with ⟨-, -, rfl⟩ | ⟨-, -, rfl⟩ | ⟨-, -, pc, -, hworkers⟩
        · exact setWorker_ne _ hk _
        · exact setWorker_ne _ hk _
        · rw [hworkers, Function.update_of_ne hk]
  | wake i =>
      simp only [step] at hstep
      split_ifs at hstep
      cases hstep
      by_cases hk : k = i
      · subst k
        rw [setWorker_self] at hcarries
        cases hcarries
      · exact Or.inl (setWorker_ne s hk _)
  | callAdd j task =>
      simp only [step] at hstep
      split_ifs at hstep
      cases hstep
      exact Or.inl rfl
  | callDestroy j option =>
      simp only [step] at hstep
      split_ifs at hstep
      cases hstep
      exact Or.inl rfl
  | client j => exact Or.inl (congrFun (clientStep_cases hstep).1 k)

/-- A worker that takes a task has it when it asks for the lock. -/
theorem relock_of_takes (hs : s.Inv) {a : LockStep τ} (hstep : s.step a = some t)
    (htakes : ¬ s.TakesNone a) : ∃ k, (t.workers k).holds ∧ (t.workers k).requests := by
  cases a with
  | worker i =>
      obtain ⟨hpc, hleaves⟩ := Classical.not_imp.mp htakes
      rcases workerStep_cases hs hstep with ⟨-, -, rfl⟩ | ⟨-, hquits, -⟩ | ⟨hne, -, -⟩
      · exact ⟨i, by rw [setWorker_self]; rfl, by rw [setWorker_self]; rfl⟩
      · exact absurd hquits hleaves
      · exact absurd hpc hne
  | wake _ | callAdd _ _ | callDestroy _ _ | client _ => exact absurd trivial htakes

/-- Asking for the lock with a task in hand is the only breach of the discipline. -/
theorem disciplined_iff (hs : s.Inv) :
    s.Disciplined ↔ ∀ i, ¬ ((s.workers i).holds ∧ (s.workers i).requests) := by
  constructor
  · intro hd i ⟨hholds, hrequests⟩
    exact hd.request i hrequests ((hs.worker i).mpr hholds)
  · intro h
    refine ⟨fun i hrequests howner => h i ⟨(hs.worker i).mp howner, hrequests⟩, ?_⟩
    intro i task hpc howner
    have hholds := (hs.worker i).mp howner
    rw [hpc] at hholds
    cases hholds

theorem step_disciplined_iff (hs : s.Inv) {a : LockStep τ} (hstep : s.step a = some t)
    (hd : s.Disciplined) : t.Disciplined ↔ s.TakesNone a := by
  rw [disciplined_iff (hs.step hstep)]
  constructor
  · intro h
    by_contra htakes
    obtain ⟨k, hk⟩ := relock_of_takes hs hstep htakes
    exact h k hk
  · intro hnone k hk
    have hcarries : (t.workers k).carries := by
      cases hpc : t.workers k <;> simp [hpc, PoolWorkerPc.holds, PoolWorkerPc.requests] at hk
      rfl
    rcases carries_of_step hs hstep hcarries with hsame | ⟨htakes, -⟩
    · rw [hsame] at hk
      exact (disciplined_iff hs).mp hd k hk
    · exact htakes hnone

theorem created_disciplined (p : ThreadPool τ) (threadCount queueSize : Int) :
    (created p threadCount queueSize).Disciplined :=
  (disciplined_iff (created_inv p threadCount queueSize)).mpr fun i h => by
    simp only [created] at h
    split_ifs at h
    · cases h.1
    · cases h.1

/-- **The lock of the pool.** In a run from a pool that was just created the workers keep to the
discipline just as long as no worker takes a task. -/
theorem run_disciplined_iff {p : ThreadPool τ} {threadCount queueSize : Int} {as : List (LockStep τ)}
    (hrun : Run step (fun _ _ => True) (created p threadCount queueSize) as t) :
    (∀ bs u, bs <+: as → Run step (fun _ _ => True) (created p threadCount queueSize) bs u →
      u.Disciplined) ↔ Run step TakesNone (created p threadCount queueSize) as t :=
  hrun.prefixes_iff (fun _ _ _ _ hstep hs => hs.step hstep)
    (fun _ _ _ _ hstep hs hd => step_disciplined_iff hs hstep hd)
    (created_inv p threadCount queueSize) (created_disciplined p threadCount queueSize)

/-- A pool without tasks that is shut down gracefully, until its only worker has exited. -/
theorem run_disciplined_shutdown :
    ∃ t : LockedPool Nat, t.workers 0 = .exited ∧ t.Disciplined := by
  have hexec : ∃ t : LockedPool Nat, exec (checked step TakesNone) (created ⟨[], 0, 0, 0, 0, 0, none, 0⟩ 1 2)
      [.worker 0, .worker 0, .callDestroy 0 .graceful, .client 0, .client 0, .client 0, .wake 0,
        .worker 0, .worker 0, .worker 0, .worker 0] = some t ∧ t.workers 0 = .exited := ⟨_, rfl, rfl⟩
  obtain ⟨t, ht, hexited⟩ := hexec
  have hrun := run_of_exec_checked ht
  have hall : Run step (fun _ _ => True) _ _ t := hrun.mono fun _ _ _ => trivial
  exact ⟨t, hexited, (run_disciplined_iff hall).mpr hrun _ t (List.prefix_refl _) hall⟩

/-- One task is added, and the worker that takes it asks for the lock it has. -/
theorem run_relock :
    ∃ (as : List (LockStep Nat)) (t : LockedPool Nat),
      Run step (fun _ _ => True) (created ⟨[], 0, 0, 0, 0, 0, none, 0⟩ 1 2) as t ∧
        t.workers 0 = .relock (some 7) ∧ t.owner = some (.worker 0) ∧ ¬ t.Disciplined := by
  have hexec : ∃ t : LockedPool Nat, exec (checked step fun _ _ => True)
      (created ⟨[], 0, 0, 0, 0, 0, none, 0⟩ 1 2)
      [.callAdd 0 7, .client 0, .client 0, .client 0, .worker 0, .worker 0, .worker 0] = some t ∧
        t.workers 0 = .relock (some 7) ∧ t.owner = some (.worker 0) := ⟨_, rfl, rfl, rfl⟩
  obtain ⟨t, ht, hpc, howner⟩ := hexec
  refine ⟨_, t, run_of_exec_checked ht, hpc, howner, fun hd => ?_⟩
  exact hd.request 0 (by rw [hpc]; rfl) howner

/-- A step is one stretch under the lock, or leaves the pool as it is. -/
theorem step_section (hs : s.Inv) {a : LockStep τ} (hstep : s.step a = some t) :
    t.pool = s.pool ∨ ∃ b, s.pool.step b = some t.pool := by
  cases a with
  | worker i =>
      rcases workerStep_cases hs hstep with ⟨hpc, hleaves, rfl⟩ | ⟨hpc, hleaves, rfl⟩ | ⟨-, hpool, -⟩
      · refine Or.inr ⟨.thread, ?_⟩
        rw [ThreadPool.step, ThreadPool.threadpoolThread, if_neg (hs.leave i hpc), if_neg hleaves]
        rfl
      · refine Or.inr ⟨.thread, ?_⟩
        rw [ThreadPool.step, ThreadPool.threadpoolThread, if_neg (hs.leave i hpc), if_pos hleaves]
        rfl
      · exact Or.inl hpool
  | wake _ | callAdd _ _ | callDestroy _ _ =>
      simp only [step] at hstep
      split_ifs at hstep
      cases hstep
      exact Or.inl rfl
  | client j => exact (clientStep_cases hstep).2

/-- **The threads refine the stretches.** Whatever the threads do, the pool goes through a run of whole
stretches under the lock. -/
theorem run_sections {p : ThreadPool τ} {threadCount queueSize : Int} {as : List (LockStep τ)}
    (hrun : Run step (fun _ _ => True) (created p threadCount queueSize) as t) :
    ∃ bs, Run ThreadPool.step (fun _ _ => True) (p.threadpoolCreate threadCount queueSize) bs t.pool := by
  have hboth : t.Inv ∧ ∃ bs, Run ThreadPool.step (fun _ _ => True)
      (p.threadpoolCreate threadCount queueSize) bs t.pool := by
    refine hrun.invariant (I := fun u => u.Inv ∧ ∃ bs, Run ThreadPool.step (fun _ _ => True)
      (p.threadpoolCreate threadCount queueSize) bs u.pool) ?_ ⟨created_inv .., [], .nil _⟩
    rintro s a u - hstep ⟨hs, bs, hbs⟩
    refine ⟨hs.step hstep, ?_⟩
    rcases step_section hs hstep with hsame | ⟨b, hb⟩
    · exact ⟨bs, by rwa [hsame]⟩
    · exact ⟨bs ++ [b], hbs.append (.cons trivial hb (.nil _))⟩
  exact hboth.2

theorem step_starts_none (hs : s.Inv) {a : LockStep τ} (hstep : s.step a = some t)
    (hnone : ∀ i task, s.workers i ≠ .run task) (i : Nat) (task : Option τ) :
    t.workers i ≠ .run task := by
  intro hpc
  rcases carries_of_step hs hstep (k := i) (by rw [hpc]; rfl) with hsame | ⟨-, hrequests⟩
  · exact hnone i task (hsame.symm.trans hpc)
  · rw [hpc] at hrequests
    cases hrequests

/-- No worker ever starts a task: the call before it does not return. -/
theorem run_starts_none {p : ThreadPool τ} {threadCount queueSize : Int} {as : List (LockStep τ)}
    (hrun : Run step (fun _ _ => True) (created p threadCount queueSize) as t) (i : Nat)
    (task : Option τ) : t.workers i ≠ .run task := by
  have hboth : t.Inv ∧ ∀ i task, t.workers i ≠ .run task := by
    refine hrun.invariant (I := fun u => u.Inv ∧ ∀ i task, u.workers i ≠ .run task)
      (fun s a u _ hstep hs => ⟨hs.1.step hstep, step_starts_none hs.1 hstep hs.2⟩)
      ⟨created_inv .., fun i task => ?_⟩
    simp only [created]
    split_ifs <;> exact fun h => by cases h
  exact hboth.2 i task

end LockedPool

end WebServer
