import Mathlib.Data.Finset.Card
import WebServer.ThreadPoolLock

/-! What becomes of the pool. A worker that has taken a task waits for the lock it has, so the first task that
is taken is the last one, and nobody gets the lock behind it. `threadpool_destroy` comes to an end only where
no task was taken: with a graceful shutdown, where none was ever accepted. -/

namespace WebServer

open Runs

namespace PoolWorkerPc

variable {τ : Type}

/-- The worker has counted itself out. -/
def gone : PoolWorkerPc τ → Bool
  | quit | exited => true
  | lock | test | wait | woken | leave | relock _ | run _ => false

end PoolWorkerPc

namespace PoolClientPc

variable {τ : Type}

/-- The thread's next step is a call of `pthread_mutex_lock` at the head of its call. -/
def requests : PoolClientPc τ → Bool
  | add _ | destroy _ => true
  | idle | addLocked _ | addUnlock | destroyLocked _ | destroyUnlock | join _ | free => false

end PoolClientPc

namespace ThreadPool

variable {τ : Type} {p q : ThreadPool τ}

theorem threadpoolAdd_frame (p : ThreadPool τ) (task : τ) :
    (p.threadpoolAdd task).2.threadCount = p.threadCount ∧ (p.threadpoolAdd task).2.started = p.started ∧
      (p.threadpoolAdd task).2.shutdown = p.shutdown := by
  rcases threadpoolAdd_cases p task with ⟨-, hsame⟩ | ⟨-, hpushed⟩
  · rw [hsame]
    exact ⟨rfl, rfl, rfl⟩
  · rw [hpushed]
    exact ⟨rfl, rfl, rfl⟩

theorem threadpoolDestroy_frame (p : ThreadPool τ) (option : ShutDownOption) :
    (p.threadpoolDestroy option).2.threadCount = p.threadCount ∧
      (p.threadpoolDestroy option).2.started = p.started := by
  unfold threadpoolDestroy
  split_ifs <;> exact ⟨rfl, rfl⟩

theorem Leaves.shutdown (h : p.Leaves) : p.shutdown ≠ none := by
  rcases h with h | ⟨h, -⟩ <;> simp [h]

/-- Once the workers leave, they leave for good. -/
theorem step_leaves {b : PoolStep τ} (h : p.Leaves) (hstep : p.step b = some q) : q.Leaves := by
  cases b with
  | add task =>
      have hsame : (p.threadpoolAdd task).2 = p := by
        unfold threadpoolAdd
        simp only [if_pos h.shutdown]
        split_ifs <;> rfl
      cases hstep
      rwa [hsame]
  | thread =>
      simp only [step, threadpoolThread, if_pos h] at hstep
      split_ifs at hstep
      cases hstep
      exact h
  | destroy option =>
      cases hstep
      rwa [threadpoolDestroy_shut h.shutdown]

end ThreadPool

namespace LockedPool

variable {τ : Type} {s t : LockedPool τ} {i j : Nat} {task : Option τ}

/-- The tasks in the queue. -/
def queued (s : LockedPool τ) : List (Option τ) := s.pool.held

/-- The task that `threadpool_add` accepts. -/
def accepts (s : LockedPool τ) : LockStep τ → List (Option τ)
  | .client j =>
      match s.clients j with
      | .addLocked task => s.pool.accepts (.add task)
      | _ => []
  | _ => []

/-- The task that a worker takes out of the queue. -/
def takes (s : LockedPool τ) : LockStep τ → List (Option τ)
  | .worker i =>
      match s.workers i with
      | .leave => s.pool.takes .thread
      | _ => []
  | _ => []

theorem worker_takes {a : LockStep τ} (hnone : ∀ i, a = .worker i → s.workers i ≠ .leave) : s.takes a = [] := by
  cases a with
  | worker i =>
      have hpc := hnone i rfl
      cases h : s.workers i <;> simp only [takes, h] at hpc ⊢
      exact absurd rfl hpc
  | _ => rfl

theorem step_conserves {a : LockStep τ} (hs : s.Inv) (hpool : s.pool.Inv) (hstep : s.step a = some t) :
    s.queued ++ s.accepts a = s.takes a ++ t.queued := by
  unfold queued
  cases a with
  | worker i =>
      rcases workerStep_cases hs hstep with ⟨hpc, hleaves, rfl⟩ | ⟨hpc, hleaves, rfl⟩ | ⟨hpc, hsame, -⟩
      · have hthread : s.pool.step .thread = some s.pool.takeTask.2 := by
          rw [ThreadPool.step, ThreadPool.threadpoolThread, if_neg (hs.leave i hpc), if_neg hleaves]
        have hlaw := ThreadPool.step_conserves hpool hthread
        rw [takes, hpc]
        exact hlaw
      · rw [takes, hpc]
        show s.pool.held ++ [] = s.pool.takes .thread ++ s.pool.held
        rw [ThreadPool.takes, if_pos hleaves, List.append_nil, List.nil_append]
      · rw [worker_takes fun k hk => LockStep.worker.inj hk ▸ hpc, hsame]
        exact List.append_nil _
  | client j =>
      simp only [step, clientStep] at hstep
      split at hstep
      case h_3 task hpc =>
        have hlaw := ThreadPool.step_conserves (a := .add task) hpool rfl
        cases hstep
        rw [accepts, hpc]
        exact hlaw
      all_goals
        rename_i hpc
        have hnone : s.accepts (.client j) = [] := by rw [accepts, hpc]
        rw [hnone, List.append_nil]
      case h_1 => cases hstep
      case h_2 | h_5 =>
        obtain ⟨-, rfl⟩ := acquire_map_eq_some hstep
        rfl
      case h_4 | h_7 =>
        cases hstep
        rfl
      case h_6 option =>
        split_ifs at hstep
        · cases hstep
          rfl
        · cases hstep
          exact (List.append_nil _).symm.trans (ThreadPool.step_conserves (a := .destroy option) hpool rfl)
      case h_8 =>
        split_ifs at hstep <;> cases hstep <;> rfl
      case h_9 =>
        split_ifs at hstep
        · cases hstep
          rfl
        · obtain ⟨-, rfl⟩ := acquire_map_eq_some hstep
          rfl
  | _ =>
      simp only [step] at hstep
      split_ifs at hstep
      cases hstep
      exact List.append_nil _

theorem step_pool_inv {a : LockStep τ} (hs : s.Inv) (hpool : s.pool.Inv) (hstep : s.step a = some t) :
    t.pool.Inv := by
  rcases step_section hs hstep with hsame | ⟨b, hb⟩
  · rwa [hsame]
  · exact ThreadPool.step_inv hpool hb

/-- The worker `i` has taken the task, and asks for the lock that it has. -/
structure Frozen (i : Nat) (task : Option τ) (s : LockedPool τ) : Prop where
  inv : s.Inv
  stuck : s.workers i = .relock task

theorem Frozen.holds (h : Frozen i task s) : (s.workers i).holds := by
  rw [h.stuck]
  rfl

theorem Frozen.owner (h : Frozen i task s) : s.owner = some (.worker i) := (h.inv.worker i).mpr h.holds

/-- No other thread gets the lock, or has it. -/
theorem Frozen.not_acquire (h : Frozen i task s) {thread : PoolThread} {f : LockedPool τ → LockedPool τ} :
    (s.acquire thread).map f ≠ some t := fun hstep => by
  have howner := (acquire_map_eq_some hstep).1
  rw [h.owner] at howner
  cases howner

theorem Frozen.not_client (h : Frozen i task s) (j : Nat) : (s.clients j).holds = false :=
  Bool.eq_false_iff.mpr fun hj => by
    have hother := h.inv.client j hj
    rw [h.owner] at hother
    cases hother

theorem Frozen.workerStep (h : Frozen i task s) {k : Nat} (hstep : s.workerStep k = some t) :
    Frozen i task t ∧ t.pool = s.pool ∧ t.clients = s.clients := by
  have hinv : t.Inv := h.inv.workerStep hstep
  have hk : k ≠ i := by
    rintro rfl
    rw [LockedPool.workerStep, h.stuck] at hstep
    exact h.not_acquire hstep
  have hfree := h.inv.worker_unique h.holds hk
  unfold LockedPool.workerStep at hstep
  split at hstep
  all_goals rename_i hpc
  case h_1 | h_4 | h_6 => exact absurd hstep h.not_acquire
  case h_2 | h_5 | h_8 =>
    rw [hpc] at hfree
    cases hfree
  case h_3 | h_9 => cases hstep
  case h_7 =>
    cases hstep
    exact ⟨⟨hinv, (setWorker_ne s hk.symm _).trans h.stuck⟩, rfl, rfl⟩

theorem Frozen.clientStep (h : Frozen i task s) {j : Nat} (hstep : s.clientStep j = some t) :
    Frozen i task t ∧ t.pool = s.pool ∧ (s.clients j).requests = false ∧
      ∃ pc, t.clients = Function.update s.clients j pc := by
  have hinv : t.Inv := h.inv.clientStep hstep
  have hfree := h.not_client j
  unfold LockedPool.clientStep at hstep
  split at hstep
  all_goals rename_i hpc
  case h_1 => cases hstep
  case h_2 | h_5 => exact absurd hstep h.not_acquire
  case h_3 | h_4 | h_6 | h_7 =>
    rw [hpc] at hfree
    cases hfree
  case h_8 =>
    split_ifs at hstep <;> cases hstep <;> exact ⟨⟨hinv, h.stuck⟩, rfl, by rw [hpc]; rfl, _, rfl⟩
  case h_9 =>
    split_ifs at hstep
    · cases hstep
      exact ⟨⟨hinv, h.stuck⟩, rfl, by rw [hpc]; rfl, _, rfl⟩
    · exact absurd hstep h.not_acquire

/-- What a step leaves alone: the worker, the pool, and the threads that ask for the lock. -/
theorem Frozen.step (h : Frozen i task s) {a : LockStep τ} (hstep : s.step a = some t) :
    Frozen i task t ∧ t.pool = s.pool ∧ ∀ j, (s.clients j).requests → t.clients j = s.clients j := by
  cases a with
  | worker k =>
      obtain ⟨hfrozen, hpool, hclients⟩ := h.workerStep hstep
      exact ⟨hfrozen, hpool, fun j _ => congrFun hclients j⟩
  | wake k =>
      have hinv : t.Inv := h.inv.step hstep
      simp only [LockedPool.step] at hstep
      split_ifs at hstep with hsleeps
      cases hstep
      have hk : k ≠ i := by
        rintro rfl
        rw [h.stuck] at hsleeps
        cases hsleeps
      exact ⟨⟨hinv, (setWorker_ne s hk.symm _).trans h.stuck⟩, rfl, fun _ _ => rfl⟩
  | callAdd j new =>
      have hinv : t.Inv := h.inv.step hstep
      simp only [LockedPool.step] at hstep
      split_ifs at hstep with hidle
      cases hstep
      refine ⟨⟨hinv, h.stuck⟩, rfl, fun l hl => setClient_ne s ?_ _⟩
      rintro rfl
      cases hpc : s.clients l <;> simp [hpc, PoolClientPc.isIdle, PoolClientPc.requests] at hidle hl
  | callDestroy j option =>
      have hinv : t.Inv := h.inv.step hstep
      simp only [LockedPool.step] at hstep
      split_ifs at hstep with hidle
      cases hstep
      refine ⟨⟨hinv, h.stuck⟩, rfl, fun l hl => setClient_ne s ?_ _⟩
      rintro rfl
      cases hpc : s.clients l <;> simp [hpc, PoolClientPc.isIdle, PoolClientPc.requests] at hidle hl
  | client j =>
      obtain ⟨hfrozen, hpool, hquiet, pc, hclients⟩ := h.clientStep hstep
      refine ⟨hfrozen, hpool, fun l hl => ?_⟩
      have hne : l ≠ j := by
        rintro rfl
        rw [hquiet] at hl
        cases hl
      rw [hclients, Function.update_of_ne hne]

/-- **The pool freezes.** When a worker has taken a task, the pool never changes again, the worker keeps the
lock and the task, and a thread in a call that asks for the lock stays there. -/
theorem run_frozen {p : ThreadPool τ} {threadCount queueSize : Int} {as bs : List (LockStep τ)}
    (hbefore : Run step (fun _ _ => True) (created p threadCount queueSize) as s)
    (htaken : s.workers i = .relock task) (hafter : Run step (fun _ _ => True) s bs t) :
    t.workers i = .relock task ∧ t.owner = some (.worker i) ∧ t.pool = s.pool ∧
      ∀ j, (s.clients j).requests → t.clients j = s.clients j := by
  have hs : s.Inv := hbefore.invariant (fun _ _ _ _ hstep hs => hs.step hstep) (created_inv _ _ _)
  have hend : Frozen i task t ∧ t.pool = s.pool ∧ ∀ j, (s.clients j).requests → t.clients j = s.clients j := by
    refine hafter.invariant (I := fun u => Frozen i task u ∧ u.pool = s.pool ∧
      ∀ j, (s.clients j).requests → u.clients j = s.clients j) (fun u a v _ hstep h => ?_)
      ⟨⟨hs, htaken⟩, rfl, fun _ _ => rfl⟩
    obtain ⟨hfrozen, hpool, hclients⟩ := h.1.step hstep
    refine ⟨hfrozen, hpool.trans h.2.1, fun j hj => ?_⟩
    have hstay := h.2.2 j hj
    rw [hclients j (hstay ▸ hj), hstay]
  exact ⟨hend.1.stuck, hend.1.owner, hend.2⟩

theorem takes_none {a : LockStep τ} (h : s.TakesNone a) : s.takes a = [] := by
  cases a with
  | worker i =>
      cases hpc : s.workers i <;> simp only [takes, hpc]
      exact if_pos (h hpc)
  | _ => rfl

/-- A worker behind its wait would have the lock. -/
theorem Frozen.takesNone (h : Frozen i task s) (a : LockStep τ) : s.TakesNone a := by
  cases a with
  | worker k =>
      intro hpc
      have hk : k ≠ i := by
        rintro rfl
        rw [h.stuck] at hpc
        cases hpc
      have hfree := h.inv.worker_unique h.holds hk
      rw [hpc] at hfree
      cases hfree
  | _ => trivial

/-- The worker takes the one task; the other thread, which asks for the lock, stays where it is. -/
theorem run_frozen_add :
    ∃ s t : LockedPool Nat, s.workers 0 = .relock (some 7) ∧ s.clients 1 = .add 8 ∧ t.clients 1 = .add 8 ∧
      t.clients 2 = .add 9 ∧ t.pool = s.pool := by
  have hexec : ∃ s : LockedPool Nat, exec (checked step fun _ _ => True)
      (created ⟨[], 0, 0, 0, 0, 0, none, 0⟩ 1 2) [.callAdd 0 7, .client 0, .client 0, .client 0, .callAdd 1 8,
        .worker 0, .worker 0, .worker 0] = some s ∧ s.workers 0 = .relock (some 7) ∧ s.clients 1 = .add 8 ∧
      ∃ t, exec (checked step fun _ _ => True) s [.callAdd 2 9] = some t ∧ t.clients 2 = .add 9 :=
    ⟨_, rfl, rfl, rfl, _, rfl, rfl⟩
  obtain ⟨s, hs, htaken, hadd, t, ht, hlater⟩ := hexec
  obtain ⟨-, -, hpool, hclients⟩ := run_frozen (run_of_exec_checked hs) htaken (run_of_exec_checked ht)
  exact ⟨s, t, htaken, hadd, (hclients 1 (by rw [hadd]; rfl)).trans hadd, hlater, hpool⟩

/-- No task was taken, or one was and its worker is stuck with it. -/
def TakenOnce (s : LockedPool τ) (log : List (Option τ)) : Prop :=
  (log = [] ∧ ∀ i, (s.workers i).carries = false) ∨ ∃ i task, log = [task] ∧ s.workers i = .relock task

theorem step_takenOnce {a : LockStep τ} {log : List (Option τ)} (hs : s.Inv) (hstep : s.step a = some t)
    (h : s.TakenOnce log) : t.TakenOnce (log ++ s.takes a) := by
  rcases h with ⟨rfl, hnone⟩ | ⟨i, task, rfl, hstuck⟩
  · rw [List.nil_append]
    by_cases htakes : s.TakesNone a
    · refine Or.inl ⟨takes_none htakes, fun k => Bool.eq_false_iff.mpr fun hcarries => ?_⟩
      rcases carries_of_step hs hstep hcarries with hsame | ⟨hnot, -⟩
      · rw [hsame, hnone k] at hcarries
        cases hcarries
      · exact hnot htakes
    · cases a with
      | worker i =>
          obtain ⟨hpc, hleaves⟩ := Classical.not_imp.mp htakes
          rcases workerStep_cases hs hstep with ⟨-, -, rfl⟩ | ⟨-, hquits, -⟩ | ⟨hne, -, -⟩
          · refine Or.inr ⟨i, s.pool.takeTask.1, ?_, setWorker_self _ _ _⟩
            rw [takes, hpc]
            exact if_neg hleaves
          · exact absurd hquits hleaves
          · exact absurd hpc hne
      | _ => exact absurd trivial htakes
  · have hfrozen : Frozen i task s := ⟨hs, hstuck⟩
    refine Or.inr ⟨i, task, ?_, (hfrozen.step hstep).1.stuck⟩
    rw [takes_none (hfrozen.takesNone a), List.append_nil]

/-- **At most one task is taken.** What was accepted is what was taken and what is in the queue; and nothing was
taken, or it was one task, with which its worker waits for the lock that it has. -/
theorem run_takes_one {p : ThreadPool τ} {threadCount queueSize : Int} {as : List (LockStep τ)}
    (hrun : Run step (fun _ _ => True) (created p threadCount queueSize) as t) :
    emitted step accepts (created p threadCount queueSize) as =
        emitted step takes (created p threadCount queueSize) as ++ t.queued ∧
      t.TakenOnce (emitted step takes (created p threadCount queueSize) as) := by
  have hstart : (created p threadCount queueSize).Inv ∧ (created p threadCount queueSize).pool.Inv :=
    ⟨created_inv _ _ _, p.threadpoolCreate_inv threadCount queueSize⟩
  have hboth := hrun.strengthen (I := fun u => u.Inv ∧ u.pool.Inv)
    (fun u a v _ hstep h => ⟨h.1.step hstep, step_pool_inv h.1 h.2 hstep⟩) hstart
  have hlaw : queued (created p threadCount queueSize) ++
      emitted step accepts (created p threadCount queueSize) as =
        emitted step takes (created p threadCount queueSize) as ++ t.queued :=
    hboth.conserved fun u a v hok hstep => step_conserves hok.2.1 hok.2.2 hstep
  have hempty : queued (created p threadCount queueSize) = [] := by
    have hcount : (created p threadCount queueSize).pool.count = 0 := rfl
    rw [queued, ThreadPool.held, hcount]
    rfl
  refine ⟨?_, ?_⟩
  · rwa [hempty, List.nil_append] at hlaw
  · have hend : t.TakenOnce ([] ++ emitted step takes (created p threadCount queueSize) as) := by
      refine hboth.emitted_invariant (I := fun u log => u.TakenOnce log)
        (fun u a v log hok hstep h => step_takenOnce hok.2.1 hstep h) (Or.inl ⟨rfl, fun i => ?_⟩)
      simp only [created]
      split_ifs <;> rfl
    exact hend

/-- A task is added and taken, and a second one is added in vain. -/
theorem run_takes_one_frozen :
    ∃ (as : List (LockStep Nat)) (t : LockedPool Nat),
      emitted step accepts (created ⟨[], 0, 0, 0, 0, 0, none, 0⟩ 1 2) as = [some 7, some 8] ∧
        t.queued = [some 8] ∧
        t.TakenOnce (emitted step takes (created ⟨[], 0, 0, 0, 0, 0, none, 0⟩ 1 2) as) := by
  have hexec : ∃ t : LockedPool Nat, exec (checked step fun _ _ => True)
      (created ⟨[], 0, 0, 0, 0, 0, none, 0⟩ 1 2) [.callAdd 0 7, .client 0, .client 0, .client 0, .callAdd 0 8,
        .client 0, .client 0, .client 0, .worker 0, .worker 0, .worker 0] = some t ∧
        t.queued = [some 8] := ⟨_, rfl, by decide⟩
  obtain ⟨t, ht, hqueued⟩ := hexec
  exact ⟨_, t, rfl, hqueued, (run_takes_one (run_of_exec_checked ht)).2⟩

/-! ### The end of the pool -/

/-- The workers that have not counted themselves out. -/
def staying (workers : Nat → PoolWorkerPc τ) (n : Nat) : Finset Nat :=
  (Finset.range n).filter fun k => (workers k).gone = false

theorem staying_same {workers : Nat → PoolWorkerPc τ} {i : Nat} {pc : PoolWorkerPc τ}
    (hpc : pc.gone = (workers i).gone) (n : Nat) :
    staying (Function.update workers i pc) n = staying workers n := by
  apply Finset.filter_congr
  intro k _
  by_cases hk : k = i
  · subst hk
    rw [Function.update_self, hpc]
  · rw [Function.update_of_ne hk]

theorem staying_quit {workers : Nat → PoolWorkerPc τ} {i n : Nat} (hi : i < n) (hold : (workers i).gone = false) :
    (staying (Function.update workers i .quit) n).card + 1 = (staying workers n).card := by
  have hmem : i ∈ staying workers n := Finset.mem_filter.mpr ⟨Finset.mem_range.mpr hi, hold⟩
  have herase : staying (Function.update workers i .quit) n = (staying workers n).erase i := by
    ext k
    simp only [staying, Finset.mem_erase, Finset.mem_filter]
    by_cases hk : k = i
    · subst hk
      simp [PoolWorkerPc.gone]
    · simp [hk]
  rw [herase, Finset.card_erase_add_one hmem]

/-- What `pthread_join` has waited for. -/
def Waited (workers : Nat → PoolWorkerPc τ) (n : Nat) : PoolClientPc τ → Prop
  | .join i => ∀ k < i, workers k = .exited
  | .free => ∀ k < n, workers k = .exited
  | _ => True

/-- `started` counts the workers that stay; one that has left found the pool shut down, and with a graceful
shutdown the queue empty. -/
structure Ledger (n : Nat) (s : LockedPool τ) : Prop where
  locked : s.Inv
  threads : s.pool.threadCount = n
  outside : ∀ k, n ≤ k → s.workers k = .exited
  started : s.pool.started = (staying s.workers n).card
  departed : ∀ k < n, (s.workers k).gone → s.pool.Leaves
  waited : ∀ j, Waited s.workers n (s.clients j)

/-- What a worker's step does to the ledger's side of the state. -/
theorem workerStep_ledger (hstep : s.workerStep i = some t) :
    t.clients = s.clients ∧ s.workers i ≠ .exited ∧
      ((s.workers i = .leave ∧ s.pool.Leaves ∧ t.workers = Function.update s.workers i .quit ∧
        t.pool = { s.pool with started := s.pool.started - 1 }) ∨
      (t.pool.threadCount = s.pool.threadCount ∧ t.pool.started = s.pool.started ∧
        (s.pool.Leaves → t.pool = s.pool) ∧
        ∃ pc, t.workers = Function.update s.workers i pc ∧ pc.gone = (s.workers i).gone)) := by
  unfold workerStep at hstep
  split at hstep
  all_goals rename_i hpc
  case h_1 | h_4 | h_6 =>
    obtain ⟨-, rfl⟩ := acquire_map_eq_some hstep
    exact ⟨rfl, by simp [hpc], Or.inr ⟨rfl, rfl, fun _ => rfl, _, rfl, by rw [hpc]; rfl⟩⟩
  case h_2 =>
    split_ifs at hstep <;> cases hstep <;>
      exact ⟨rfl, by simp [hpc], Or.inr ⟨rfl, rfl, fun _ => rfl, _, rfl, by rw [hpc]; rfl⟩⟩
  case h_3 | h_9 => cases hstep
  case h_5 =>
    split_ifs at hstep with hleaves
    · cases hstep
      exact ⟨rfl, by simp [hpc], Or.inl ⟨hpc, hleaves, rfl, rfl⟩⟩
    · cases hstep
      exact ⟨rfl, by simp [hpc], Or.inr ⟨rfl, rfl, fun h => absurd h hleaves, _, rfl, by rw [hpc]; rfl⟩⟩
  case h_7 | h_8 =>
    cases hstep
    exact ⟨rfl, by simp [hpc], Or.inr ⟨rfl, rfl, fun _ => rfl, _, rfl, by rw [hpc]; rfl⟩⟩

/-- Waiting goes on with the workers that have exited, since these stay where they are. -/
theorem Waited.mono {workers workers' : Nat → PoolWorkerPc τ} {n : Nat} {pc : PoolClientPc τ}
    (h : Waited workers n pc) (hkept : ∀ k, workers k = .exited → workers' k = .exited) :
    Waited workers' n pc := by
  cases pc with
  | join i => exact fun k hk => hkept k (h k hk)
  | free => exact fun k hk => hkept k (h k hk)
  | _ => trivial

theorem Ledger.workerStep {n : Nat} (h : Ledger n s) (hstep : s.workerStep i = some t) : Ledger n t := by
  have hinv : t.Inv := h.locked.workerStep hstep
  obtain ⟨hclients, hlive, hstepped⟩ := workerStep_ledger hstep
  have hi : i < n := Nat.lt_of_not_le fun hle => hlive (h.outside i hle)
  have hkept (pc : PoolWorkerPc τ) (k : Nat) (hk : s.workers k = .exited) :
      Function.update s.workers i pc k = .exited := by
    have hne : k ≠ i := by
      rintro rfl
      exact hlive hk
    rw [Function.update_of_ne hne, hk]
  rcases hstepped with ⟨hpc, hleaves, hworkers, hpool⟩ | ⟨hthreads, hstarted, hsame, pc, hworkers, hgone⟩
  · have hcard : (staying (Function.update s.workers i .quit) _).card + 1 = (staying s.workers _).card :=
      staying_quit hi (by rw [hpc]; rfl)
    refine ⟨hinv, hpool ▸ h.threads, fun k hk => ?_, ?_, fun k _ _ => ?_, fun j => ?_⟩
    · rw [hworkers, hkept .quit k (h.outside k hk)]
    · rw [hpool, hworkers]
      show s.pool.started - 1 = _
      rw [h.started, ← hcard]
      omega
    · rw [hpool]
      exact hleaves
    · rw [hclients, hworkers]
      exact (h.waited j).mono (hkept .quit)
  · refine ⟨hinv, hthreads.trans h.threads, fun k hk => ?_, ?_, fun k hk hleft => ?_, fun j => ?_⟩
    · rw [hworkers, hkept pc k (h.outside k hk)]
    · rw [hstarted, hworkers, staying_same hgone, h.started]
    · have hbefore : (s.workers k).gone := by
        rw [hworkers] at hleft
        by_cases hki : k = i
        · subst hki
          rwa [Function.update_self, hgone] at hleft
        · rwa [Function.update_of_ne hki] at hleft
      have hleaves := h.departed k hk hbefore
      rw [hsame hleaves]
      exact hleaves
    · rw [hclients, hworkers]
      exact (h.waited j).mono (hkept pc)

/-- What another thread's step does to the ledger's side of the state. -/
theorem clientStep_ledger (hstep : s.clientStep j = some t) :
    t.workers = s.workers ∧ t.pool.threadCount = s.pool.threadCount ∧ t.pool.started = s.pool.started ∧
      ∃ pc, t.clients = Function.update s.clients j pc ∧
        (Waited s.workers s.pool.threadCount (s.clients j) → Waited s.workers s.pool.threadCount pc) := by
  unfold clientStep at hstep
  split at hstep
  all_goals rename_i hpc
  case h_1 => cases hstep
  case h_2 | h_5 =>
    obtain ⟨-, rfl⟩ := acquire_map_eq_some hstep
    exact ⟨rfl, rfl, rfl, _, rfl, fun _ => trivial⟩
  case h_3 task =>
    cases hstep
    obtain ⟨hthreads, hstarted, -⟩ := s.pool.threadpoolAdd_frame task
    exact ⟨rfl, hthreads, hstarted, _, rfl, fun _ => trivial⟩
  case h_4 =>
    cases hstep
    exact ⟨rfl, rfl, rfl, _, rfl, fun _ => trivial⟩
  case h_6 option =>
    obtain ⟨hthreads, hstarted⟩ := s.pool.threadpoolDestroy_frame option
    split_ifs at hstep
    · cases hstep
      exact ⟨rfl, rfl, rfl, _, rfl, fun _ => trivial⟩
    · cases hstep
      exact ⟨rfl, hthreads, hstarted, _, rfl, fun _ => trivial⟩
  case h_7 =>
    cases hstep
    exact ⟨rfl, rfl, rfl, .join 0, rfl, fun _ k hk => absurd hk (Nat.not_lt_zero k)⟩
  case h_8 i =>
    split_ifs at hstep with hlt hexited
    · cases hstep
      refine ⟨rfl, rfl, rfl, .join (i + 1), rfl, fun hwaited k hk => ?_⟩
      rw [hpc] at hwaited
      rcases Nat.lt_succ_iff_lt_or_eq.mp hk with hbefore | rfl
      · exact hwaited k hbefore
      · cases hworker : s.workers k <;> simp [hworker, PoolWorkerPc.hasExited] at hexited ⊢
    · cases hstep
      refine ⟨rfl, rfl, rfl, .free, rfl, fun hwaited k hk => ?_⟩
      rw [hpc] at hwaited
      exact hwaited k (by omega)
  case h_9 =>
    split_ifs at hstep
    · cases hstep
      exact ⟨rfl, rfl, rfl, _, rfl, fun _ => trivial⟩
    · obtain ⟨-, rfl⟩ := acquire_map_eq_some hstep
      exact ⟨rfl, rfl, rfl, _, rfl, fun _ => trivial⟩

theorem waited_update {workers : Nat → PoolWorkerPc τ} {clients : Nat → PoolClientPc τ} {n j : Nat}
    {pc : PoolClientPc τ} (h : ∀ l, Waited workers n (clients l))
    (hpc : Waited workers n (clients j) → Waited workers n pc) (l : Nat) :
    Waited workers n (Function.update clients j pc l) := by
  by_cases hl : l = j
  · subst hl
    rw [Function.update_self]
    exact hpc (h l)
  · rw [Function.update_of_ne hl]
    exact h l

theorem Ledger.step {n : Nat} (h : Ledger n s) {a : LockStep τ} (hstep : s.step a = some t) : Ledger n t := by
  have hinv : t.Inv := h.locked.step hstep
  cases a with
  | worker i => exact h.workerStep hstep
  | wake i =>
      simp only [LockedPool.step] at hstep
      split_ifs at hstep with hsleeps
      cases hstep
      have hgone : (s.workers i).gone = false := by
        cases hpc : s.workers i <;> simp [hpc, PoolWorkerPc.sleeps, PoolWorkerPc.gone] at hsleeps ⊢
      have hkept (k : Nat) (hk : s.workers k = .exited) : (s.setWorker i .woken).workers k = .exited := by
        have hne : k ≠ i := by
          rintro rfl
          rw [hk] at hgone
          cases hgone
        rw [setWorker_ne s hne, hk]
      refine ⟨hinv, h.threads, fun k hk => hkept k (h.outside k hk), ?_, fun k hk hleft => ?_,
        fun j => (h.waited j).mono hkept⟩
      · have hstays : PoolWorkerPc.gone (PoolWorkerPc.woken : PoolWorkerPc τ) = (s.workers i).gone := hgone.symm
        have hsame : staying (Function.update s.workers i .woken) n = staying s.workers n := staying_same hstays n
        exact h.started.trans (congrArg (fun f : Finset Nat => (f.card : Int)) hsame.symm)
      · refine h.departed k hk ?_
        by_cases hki : k = i
        · subst hki
          rw [setWorker_self] at hleft
          cases hleft
        · rwa [setWorker_ne s hki] at hleft
  | callAdd j task =>
      simp only [LockedPool.step] at hstep
      split_ifs at hstep
      cases hstep
      exact ⟨hinv, h.threads, h.outside, h.started, h.departed, waited_update h.waited fun _ => trivial⟩
  | callDestroy j option =>
      simp only [LockedPool.step] at hstep
      split_ifs at hstep
      cases hstep
      exact ⟨hinv, h.threads, h.outside, h.started, h.departed, waited_update h.waited fun _ => trivial⟩
  | client j =>
      obtain ⟨hworkers, hthreads, hstarted, pc, hclients, hwaited⟩ := clientStep_ledger hstep
      rw [h.threads] at hwaited
      refine ⟨hinv, hthreads.trans h.threads, fun k hk => ?_, ?_, fun k hk hleft => ?_, fun l => ?_⟩
      · rw [hworkers, h.outside k hk]
      · rw [hstarted, hworkers, h.started]
      · have hleaves := h.departed k hk (hworkers ▸ hleft)
        rcases (clientStep_cases hstep).2 with hsame | ⟨b, hb⟩
        · rwa [hsame]
        · exact ThreadPool.step_leaves hleaves hb
      · rw [hworkers, hclients]
        exact waited_update h.waited hwaited l

theorem created_ledger (p : ThreadPool τ) (threadCount queueSize : Int) :
    Ledger (p.threadpoolCreate threadCount queueSize).threadCount (created p threadCount queueSize) := by
  have hall (k : Nat) : ((created p threadCount queueSize).workers k).gone = true →
      ¬ k < (p.threadpoolCreate threadCount queueSize).threadCount := by
    intro hgone hk
    have hlock : (created p threadCount queueSize).workers k = .lock := if_pos hk
    rw [hlock] at hgone
    cases hgone
  refine ⟨created_inv _ _ _, rfl, fun k hk => if_neg (Nat.not_lt.mpr hk), ?_,
    fun k hk hgone => absurd hk (hall k hgone), fun j => trivial⟩
  have hstay : staying (created p threadCount queueSize).workers
      (p.threadpoolCreate threadCount queueSize).threadCount =
        Finset.range (p.threadpoolCreate threadCount queueSize).threadCount :=
    Finset.filter_true_of_mem fun k hk =>
      Bool.eq_false_iff.mpr fun hgone => hall k hgone (Finset.mem_range.mp hk)
  rw [hstay, Finset.card_range]
  rfl

theorem threads_pos (p : ThreadPool τ) (threadCount queueSize : Int) :
    0 < (p.threadpoolCreate threadCount queueSize).threadCount := by
  unfold ThreadPool.threadpoolCreate
  dsimp only
  split_ifs with hrange
  · decide
  · have hpos : ¬ threadCount ≤ 0 := fun h => hrange (Or.inl h)
    omega

/-- **When a pool is freed.** A call of `threadpool_destroy` that comes to `threadpool_free` finds that all
workers have left and `started` is zero; no task was ever taken, and if the shutdown was a graceful one, none
was ever accepted. -/
theorem run_destroyed {p : ThreadPool τ} {threadCount queueSize : Int} {as : List (LockStep τ)}
    (hrun : Run step (fun _ _ => True) (created p threadCount queueSize) as t) (hfree : t.clients j = .free) :
    (∀ i, t.workers i = .exited) ∧ t.pool.started = 0 ∧
      emitted step takes (created p threadCount queueSize) as = [] ∧
        (t.pool.shutdown = some .graceful → emitted step accepts (created p threadCount queueSize) as = []) := by
  have hledger : Ledger (p.threadpoolCreate threadCount queueSize).threadCount t :=
    hrun.invariant (fun _ _ _ _ hstep h => h.step hstep) (created_ledger p threadCount queueSize)
  obtain ⟨haccepted, htaken⟩ := run_takes_one hrun
  have hexited (i : Nat) : t.workers i = .exited := by
    have hwaited := hledger.waited j
    rw [hfree] at hwaited
    by_cases hi : i < (p.threadpoolCreate threadCount queueSize).threadCount
    · exact hwaited i hi
    · exact hledger.outside i (Nat.not_lt.mp hi)
  have hnone : emitted step takes (created p threadCount queueSize) as = [] := by
    rcases htaken with ⟨hnil, -⟩ | ⟨i, task, -, hstuck⟩
    · exact hnil
    · rw [hexited i] at hstuck
      cases hstuck
  refine ⟨hexited, ?_, hnone, fun hgraceful => ?_⟩
  · have hempty : staying t.workers (p.threadpoolCreate threadCount queueSize).threadCount = ∅ :=
      Finset.filter_false_of_mem fun k _ => by simp [hexited k, PoolWorkerPc.gone]
    rw [hledger.started, hempty]
    rfl
  · have hpos := threads_pos p threadCount queueSize
    have hleaves := hledger.departed 0 hpos (by rw [hexited 0]; rfl)
    have hcount : t.pool.count = 0 := by
      rcases hleaves with himmediate | ⟨-, hcount⟩
      · rw [hgraceful] at himmediate
        cases himmediate
      · exact hcount
    rw [haccepted, hnone, queued, ThreadPool.held, hcount]
    rfl

/-- A pool of one worker that is shut down gracefully, up to the return of `pthread_join`. -/
theorem run_destroyed_one :
    ∃ t : LockedPool Nat, t.clients 0 = .free ∧ t.pool.shutdown = some .graceful ∧ t.pool.started = 0 ∧
      ∀ i, t.workers i = .exited := by
  have hexec : ∃ t : LockedPool Nat, exec (checked step fun _ _ => True)
      (created ⟨[], 0, 0, 0, 0, 0, none, 0⟩ 1 2) [.worker 0, .worker 0, .callDestroy 0 .graceful, .client 0,
        .client 0, .client 0, .wake 0, .worker 0, .worker 0, .worker 0, .worker 0, .client 0, .client 0] =
          some t ∧ t.clients 0 = .free ∧ t.pool.shutdown = some .graceful := ⟨_, rfl, rfl, rfl⟩
  obtain ⟨t, ht, hfree, hgraceful⟩ := hexec
  obtain ⟨hexited, hstarted, -⟩ := run_destroyed (run_of_exec_checked ht) hfree
  exact ⟨t, hfree, hgraceful, hstarted, hexited⟩

end LockedPool

end WebServer
