import WebServer.RunsTrace
import WebServer.RingBuffer

/-! `ThreadPool`: the ring of tasks, and the stretches of its functions between taking the lock and
giving it up, each as one step. Whatever threads they belong to, the tasks are taken in the order in
which they were accepted, and the ring is full just when its size of them has not been taken. -/

namespace WebServer

open Runs

def THREADPOOL_QUQUE_FULL : Int := -3

def THREADPOOL_SHUTDOWN : Int := -4

def MAX_THREADS : Int := 1024

def MAX_QUEUE : Int := 65535

inductive ShutDownOption where
  | immediate
  | graceful
  deriving DecidableEq

/-- The static members of `ThreadPool`, for tasks `τ`. A slot whose function is null is `none`, and
`m_shutdown` is `none` while it is zero. -/
structure ThreadPool (τ : Type) where
  queue : List (Option τ)
  threadCount : Nat
  queueSize : Nat
  head : Nat
  tail : Nat
  count : Int
  shutdown : Option ShutDownOption
  started : Int
  deriving DecidableEq

namespace ThreadPool

variable {τ : Type}

/-- `queue.resize(n)`. -/
def resize (queue : List (Option τ)) (n : Nat) : List (Option τ) :=
  queue.take n ++ List.replicate (n - queue.length) none

/-- The arguments of `threadpool_create` are out of range, and defaults stand for both. -/
def OutOfRange (threadCount queueSize : Int) : Prop :=
  threadCount ≤ 0 ∨ MAX_THREADS < threadCount ∨ queueSize ≤ 0 ∨ MAX_QUEUE < queueSize

instance (threadCount queueSize : Int) : Decidable (OutOfRange threadCount queueSize) :=
  inferInstanceAs (Decidable (_ ∨ _ ∨ _ ∨ _))

/-- `ThreadPool::threadpool_create`, where every `pthread_create` succeeds. -/
def threadpoolCreate (p : ThreadPool τ) (threadCount queueSize : Int) : ThreadPool τ :=
  let threadCount' := if OutOfRange threadCount queueSize then 4 else threadCount.toNat
  let queueSize' := if OutOfRange threadCount queueSize then 1024 else queueSize.toNat
  { queue := resize p.queue queueSize'
    threadCount := threadCount'
    queueSize := queueSize'
    head := 0
    tail := 0
    count := 0
    shutdown := none
    started := threadCount' }

/-- `ThreadPool::threadpool_add` under the lock. -/
def threadpoolAdd (p : ThreadPool τ) (task : τ) : Int × ThreadPool τ :=
  let next := (p.tail + 1) % p.queueSize
  if p.count = p.queueSize then (THREADPOOL_QUQUE_FULL, p)
  else if p.shutdown ≠ none then (THREADPOOL_SHUTDOWN, p)
  else (0, { p with queue := p.queue.set p.tail (some task), tail := next, count := p.count + 1 })

/-- `ThreadPool::threadpool_destroy` under the lock. -/
def threadpoolDestroy (p : ThreadPool τ) (option : ShutDownOption) : Int × ThreadPool τ :=
  if p.shutdown ≠ none then (THREADPOOL_SHUTDOWN, p) else (0, { p with shutdown := some option })

/-- A worker waits in `pthread_cond_wait`. -/
def Waits (p : ThreadPool τ) : Prop := p.count = 0 ∧ p.shutdown = none

instance (p : ThreadPool τ) : Decidable p.Waits := inferInstanceAs (Decidable (_ ∧ _))

/-- A worker that waits no longer leaves its loop. -/
def Leaves (p : ThreadPool τ) : Prop :=
  p.shutdown = some .immediate ∨ p.shutdown = some .graceful ∧ p.count = 0

instance (p : ThreadPool τ) : Decidable p.Leaves := inferInstanceAs (Decidable (_ ∨ _ ∧ _))

/-- A worker takes the first task out of the queue. -/
def takeTask (p : ThreadPool τ) : Option τ × ThreadPool τ :=
  (p.queue[p.head]?.join,
    { p with
      queue := p.queue.set p.head none
      head := (p.head + 1) % p.queueSize
      count := p.count - 1 })

end ThreadPool

/-- A stretch of code under the lock, and the thread's arguments. -/
inductive PoolStep (τ : Type) where
  | add (task : τ)
  /-- In `threadpool_thread`, from the end of the wait to the second `pthread_mutex_lock`, which stands
  where the lock should be given up, or to the end. -/
  | thread
  | destroy (option : ShutDownOption)
  deriving DecidableEq

namespace ThreadPool

variable {τ : Type} {p t : ThreadPool τ}

/-- `ThreadPool::threadpool_thread` under the lock. -/
def threadpoolThread (p : ThreadPool τ) : Option (ThreadPool τ) :=
  if p.Waits then none
  else if p.Leaves then some { p with started := p.started - 1 }
  else some p.takeTask.2

def step (p : ThreadPool τ) : PoolStep τ → Option (ThreadPool τ)
  | .add task => some (p.threadpoolAdd task).2
  | .thread => p.threadpoolThread
  | .destroy option => some (p.threadpoolDestroy option).2

/-- The task a step adds with a return value of zero. -/
def accepts (p : ThreadPool τ) : PoolStep τ → List (Option τ)
  | .add task => if (p.threadpoolAdd task).1 = 0 then [some task] else []
  | .thread => []
  | .destroy _ => []

/-- What a step takes out of the queue. -/
def takes (p : ThreadPool τ) : PoolStep τ → List (Option τ)
  | .add _ => []
  | .thread => if p.Leaves then [] else [p.takeTask.1]
  | .destroy _ => []

/-- The tasks that are accepted in the steps from `p` on, in their order. -/
def accepted (p : ThreadPool τ) (as : List (PoolStep τ)) : List (Option τ) := emitted step accepts p as

/-- The tasks that are taken in the steps from `p` on, in their order. -/
def taken (p : ThreadPool τ) (as : List (PoolStep τ)) : List (Option τ) := emitted step takes p as

/-- The tasks in the queue. -/
def held (p : ThreadPool τ) : List (Option τ) := Ring.contents p.queue p.head p.count.toNat

structure Inv (p : ThreadPool τ) : Prop where
  length : p.queue.length = p.queueSize
  head : p.head < p.queueSize
  nonneg : 0 ≤ p.count
  count : p.count ≤ p.queueSize
  tail : p.tail = (p.head + p.count.toNat) % p.queueSize

theorem length_resize (queue : List (Option τ)) (n : Nat) : (resize queue n).length = n := by
  rw [resize, List.length_append, List.length_take, List.length_replicate]
  omega

theorem threadpoolCreate_inv (p : ThreadPool τ) (threadCount queueSize : Int) :
    (p.threadpoolCreate threadCount queueSize).Inv := by
  have hsize : 0 < (p.threadpoolCreate threadCount queueSize).queueSize := by
    unfold threadpoolCreate
    simp only []
    split_ifs with hrange
    · decide
    · have hpos : ¬ queueSize ≤ 0 := fun h => hrange (Or.inr (Or.inr (Or.inl h)))
      omega
  exact {
    length := length_resize _ _
    head := hsize
    nonneg := le_rfl
    count := Int.natCast_nonneg _
    tail := (Nat.zero_mod _).symm }

theorem Inv.count_eq (hp : p.Inv) : (p.count.toNat : Int) = p.count := Int.toNat_of_nonneg hp.nonneg

theorem Inv.length_held (hp : p.Inv) : (p.held.length : Int) = p.count := by
  have hcount := hp.count
  have heq := hp.count_eq
  rw [held, Ring.length_contents (by rw [hp.length]; omega), heq]

/-- What `threadpool_add` can do: reject the task, or put it behind those in the queue. -/
theorem threadpoolAdd_cases (p : ThreadPool τ) (task : τ) :
    ((p.threadpoolAdd task).1 ≠ 0 ∧ (p.threadpoolAdd task).2 = p) ∨
      (p.count ≠ p.queueSize ∧ p.threadpoolAdd task = (0, { p with
        queue := p.queue.set p.tail (some task)
        tail := (p.tail + 1) % p.queueSize
        count := p.count + 1 })) := by
  unfold threadpoolAdd
  simp only []
  split_ifs with hfull hshut
  · exact Or.inl ⟨Int.negSucc_ne_zero 2, rfl⟩
  · exact Or.inl ⟨Int.negSucc_ne_zero 3, rfl⟩
  · exact Or.inr ⟨hfull, rfl⟩

theorem threadpoolDestroy_open (hshut : p.shutdown = none) (option : ShutDownOption) :
    p.threadpoolDestroy option = (0, { p with shutdown := some option }) := if_neg (not_not.mpr hshut)

theorem threadpoolDestroy_shut (hshut : p.shutdown ≠ none) (option : ShutDownOption) :
    p.threadpoolDestroy option = (THREADPOOL_SHUTDOWN, p) := if_pos hshut

theorem pushed_inv (hp : p.Inv) (hroom : p.count ≠ p.queueSize) (task : τ) :
    Inv { p with
      queue := p.queue.set p.tail (some task)
      tail := (p.tail + 1) % p.queueSize
      count := p.count + 1 } := by
  have hcount := hp.count
  have hnonneg := hp.nonneg
  refine { hp with length := ?_, nonneg := ?_, count := ?_, tail := ?_ }
  · exact (List.length_set ..).trans hp.length
  · show 0 ≤ p.count + 1
    omega
  · show p.count + 1 ≤ p.queueSize
    omega
  · show (p.tail + 1) % p.queueSize = (p.head + (p.count + 1).toNat) % p.queueSize
    rw [hp.tail, Nat.mod_add_mod, Int.toNat_add hnonneg (by decide), Nat.add_assoc]
    rfl

theorem takeTask_inv (hp : p.Inv) (hcount : p.count ≠ 0) : p.takeTask.2.Inv := by
  have hsize : 0 < p.queueSize := Nat.zero_lt_of_lt hp.head
  have hnonneg := hp.nonneg
  have hmax := hp.count
  refine { length := ?_, head := ?_, nonneg := ?_, count := ?_, tail := ?_ }
  · exact (List.length_set ..).trans hp.length
  · exact Nat.mod_lt _ hsize
  · show 0 ≤ p.count - 1
    omega
  · show p.count - 1 ≤ p.queueSize
    omega
  · show p.tail = ((p.head + 1) % p.queueSize + (p.count - 1).toNat) % p.queueSize
    have hone : p.head + 1 + (p.count - 1).toNat = p.head + p.count.toNat := by omega
    rw [hp.tail, Nat.mod_add_mod, hone]

/-- A worker that neither waits nor leaves finds a task. -/
theorem count_ne_zero (hwaits : ¬ p.Waits) (hleaves : ¬ p.Leaves) : p.count ≠ 0 := by
  intro hcount
  cases hshut : p.shutdown with
  | none => exact hwaits ⟨hcount, hshut⟩
  | some option =>
      cases option with
      | immediate => exact hleaves (Or.inl hshut)
      | graceful => exact hleaves (Or.inr ⟨hshut, hcount⟩)

theorem step_inv {a : PoolStep τ} (hp : p.Inv) (hstep : p.step a = some t) : t.Inv := by
  cases a with
  | add task =>
      cases hstep
      rcases threadpoolAdd_cases p task with ⟨-, hsame⟩ | ⟨hroom, hpushed⟩
      · rwa [hsame]
      · rw [hpushed]
        exact pushed_inv hp hroom task
  | thread =>
      simp only [step, threadpoolThread] at hstep
      split_ifs at hstep with hwaits hleaves
      · cases hstep
        exact { hp with }
      · cases hstep
        exact takeTask_inv hp (count_ne_zero hwaits hleaves)
  | destroy option =>
      cases hstep
      unfold threadpoolDestroy
      split_ifs
      · exact hp
      · exact { hp with }

/-! ### The order of the tasks -/

theorem pushed_held (hp : p.Inv) (hroom : p.count ≠ p.queueSize) (task : τ) :
    held { p with
      queue := p.queue.set p.tail (some task)
      tail := (p.tail + 1) % p.queueSize
      count := p.count + 1 } = p.held ++ [some task] := by
  have hcount := hp.count
  have hnonneg := hp.nonneg
  have hlen : p.count.toNat < p.queue.length := by
    rw [hp.length]
    omega
  have hpush := Ring.contents_push p.queue p.head hlen (some task)
  rw [hp.length, ← hp.tail] at hpush
  rw [held, held, Int.toNat_add hnonneg (by decide)]
  exact hpush

theorem takeTask_held (hp : p.Inv) (hcount : p.count ≠ 0) :
    p.held = p.takeTask.1 :: p.takeTask.2.held := by
  have hnonneg := hp.nonneg
  have hmax := hp.count
  have hhead : p.head < p.queue.length := by
    rw [hp.length]
    exact hp.head
  have hlen : (p.count - 1).toNat < p.queue.length := by
    rw [hp.length]
    omega
  have hpop := Ring.contents_pop hhead hlen none
  have hone : (p.count - 1).toNat + 1 = p.count.toNat := by omega
  rw [hp.length, hone] at hpop
  rw [held, hpop, takeTask, held, List.getElem?_eq_getElem hhead]
  rfl

/-- **The queue is conserved.** An accepted task goes behind the others, and the first one is taken. -/
theorem step_conserves {a : PoolStep τ} (hp : p.Inv) (hstep : p.step a = some t) :
    p.held ++ p.accepts a = p.takes a ++ t.held := by
  cases a with
  | add task =>
      cases hstep
      rcases threadpoolAdd_cases p task with ⟨hrejected, hsame⟩ | ⟨hroom, hpushed⟩
      · rw [hsame, accepts, if_neg hrejected, takes, List.append_nil, List.nil_append]
      · rw [accepts, hpushed, if_pos rfl, takes, List.nil_append]
        exact (pushed_held hp hroom task).symm
  | thread =>
      simp only [step, threadpoolThread] at hstep
      split_ifs at hstep with hwaits hleaves
      · cases hstep
        rw [accepts, takes, if_pos hleaves, List.append_nil, List.nil_append]
        rfl
      · cases hstep
        rw [accepts, takes, if_neg hleaves, List.append_nil]
        exact takeTask_held hp (count_ne_zero hwaits hleaves)
  | destroy option =>
      cases hstep
      unfold threadpoolDestroy
      split_ifs <;> exact List.append_nil _

/-- The ring is full just when it holds as many tasks as it has slots. -/
theorem threadpoolAdd_full (p : ThreadPool τ) (task : τ) :
    (p.threadpoolAdd task).1 = THREADPOOL_QUQUE_FULL ↔ p.count = p.queueSize := by
  unfold threadpoolAdd
  simp only []
  split_ifs with hfull hshut
  · simp [hfull]
  · simp [hfull, THREADPOOL_SHUTDOWN, THREADPOOL_QUQUE_FULL]
  · simp [hfull, THREADPOOL_QUQUE_FULL]

/-- **The pool is a bounded queue.** Its indices are those of a ring of `queue_size` slots, a task is
rejected as one too many just when `queue_size` accepted tasks have not been taken, and the tasks
taken are the first of those accepted. -/
theorem run_ring {threadCount queueSize : Int} {as : List (PoolStep τ)}
    (hrun : Run step (fun _ _ => True) (p.threadpoolCreate threadCount queueSize) as t) :
    0 ≤ t.count ∧ t.count ≤ t.queueSize ∧ (t.tail : Int) = (t.head + t.count) % t.queueSize ∧
      (∀ task, (t.threadpoolAdd task).1 = THREADPOOL_QUQUE_FULL ↔
        ((p.threadpoolCreate threadCount queueSize).accepted as).length =
          ((p.threadpoolCreate threadCount queueSize).taken as).length + t.queueSize) ∧
      (p.threadpoolCreate threadCount queueSize).taken as ++ t.held =
        (p.threadpoolCreate threadCount queueSize).accepted as ∧
      (p.threadpoolCreate threadCount queueSize).taken as <+:
        (p.threadpoolCreate threadCount queueSize).accepted as := by
  have hstart := threadpoolCreate_inv p threadCount queueSize
  have ht : t.Inv := hrun.invariant (fun _ _ _ _ hstep hs => step_inv hs hstep) hstart
  have hrun' := hrun.strengthen (fun _ _ _ _ hstep hs => step_inv hs hstep) hstart
  have hempty : (p.threadpoolCreate threadCount queueSize).held = [] := by
    simp [held, Ring.contents, threadpoolCreate]
  have hconserved : (p.threadpoolCreate threadCount queueSize).accepted as =
      (p.threadpoolCreate threadCount queueSize).taken as ++ t.held := by
    rw [taken, ← hrun'.conserved fun _ _ _ h hstep => step_conserves h.2 hstep, hempty]
    rfl
  refine ⟨ht.nonneg, ht.count, ?_, fun task => ?_, hconserved.symm, ⟨_, hconserved.symm⟩⟩
  · rw [ht.tail, Int.natCast_emod, Int.natCast_add, ht.count_eq]
  · rw [threadpoolAdd_full, hconserved, List.length_append, ← ht.length_held]
    omega

/-- A ring of two slots, filled, one task taken, and filled again over its end. -/
theorem run_ring_wraps :
    ∃ t : ThreadPool Nat, t.held = [some 2, some 3] ∧ t.tail = 1 ∧
      (t.threadpoolAdd 4).1 = THREADPOOL_QUQUE_FULL ∧ (t.tail : Int) = (t.head + t.count) % t.queueSize := by
  have hexec : ∃ t : ThreadPool Nat, exec (checked step fun _ _ => True)
      (threadpoolCreate ⟨[], 0, 0, 0, 0, 0, none, 0⟩ 1 2) [.add 1, .add 2, .thread, .add 3] = some t ∧
        t.held = [some 2, some 3] ∧ t.tail = 1 := ⟨_, rfl, by decide, rfl⟩
  obtain ⟨t, ht, hheld, htail⟩ := hexec
  obtain ⟨-, -, hindices, hfull, hconserved, -⟩ := run_ring (run_of_exec_checked ht)
  refine ⟨t, hheld, htail, (hfull 4).mpr ?_, hindices⟩
  cases ht
  decide

end ThreadPool

end WebServer
