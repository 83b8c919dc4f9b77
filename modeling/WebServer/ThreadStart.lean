import WebServer.Locks
import WebServer.Runs

/-! `Thread::start`, the thread it makes, and the latch between them. The creator waits until the new
thread has stored its id. It takes a result of `pthread_create` other than `-1` for success, while the
errors of `pthread_create` are positive, and so it waits for a thread that does not exist. -/

namespace WebServer

open Runs Locks

/-- What the kernel answers: the result of `pthread_create`, which is an error number or 0, and the id
of the thread, should there be one. -/
structure Creation where
  rt : Nat
  tid : Nat
  tid_pos : 0 < tid

/-- Where the creator is in `Thread::start`. -/
inductive StartPc where
  | begin
  | create
  /-- Behind `pthread_create`, at the test of its result. -/
  | check
  /-- About to lock, in `CountDownLatch::wait`. -/
  | lock
  /-- At the condition of the loop. -/
  | test
  /-- Asleep in `pthread_cond_wait`. -/
  | wait
  /-- About to lock again, in `pthread_cond_wait`. -/
  | woken
  | unlock
  | assertTid
  | aborted
  | returned
  deriving DecidableEq

namespace StartPc

/-- There has been no call of `pthread_create` yet. -/
def early : StartPc → Bool
  | begin | create => true
  | check | lock | test | wait | woken | unlock | assertTid | aborted | returned => false

/-- The creator waits on the latch. -/
def waits : StartPc → Bool
  | lock | test | wait | woken => true
  | begin | create | check | unlock | assertTid | aborted | returned => false

/-- The creator is behind the loop of `CountDownLatch::wait`. -/
def passed : StartPc → Bool
  | unlock | assertTid | aborted | returned => true
  | begin | create | check | lock | test | wait | woken => false

def holds : StartPc → Bool
  | test | unlock => true
  | begin | create | check | lock | wait | woken | assertTid | aborted | returned => false

/-- How far it is to the return of `start`. -/
def left : StartPc → Nat
  | begin => 9
  | create => 8
  | check => 7
  | lock | woken => 6
  | test => 5
  | wait | unlock => 4
  | assertTid => 3
  | aborted | returned => 0

end StartPc

/-- Where the new thread is in `ThreadData::runInThread`. -/
inductive RunPc where
  /-- There is no such thread. -/
  | absent
  /-- About to store its id. -/
  | store
  /-- About to lock, in `CountDownLatch::countDown`. -/
  | lock
  | count
  /-- At the condition of `notifyAll`. -/
  | notify
  | unlock
  /-- Behind `countDown`. -/
  | run
  deriving DecidableEq

namespace RunPc

/-- The thread will count the latch down. -/
def counts : RunPc → Bool
  | store | lock | count => true
  | absent | notify | unlock | run => false

/-- The thread has counted the latch down. -/
def counted : RunPc → Bool
  | notify | unlock | run => true
  | absent | store | lock | count => false

/-- The thread has stored its id. -/
def stored : RunPc → Bool
  | lock | count | notify | unlock | run => true
  | absent | store => false

def holds : RunPc → Bool
  | count | notify | unlock => true
  | absent | store | lock | run => false

/-- How far it is to the end of `countDown`. -/
def left : RunPc → Nat
  | absent => 6
  | store => 5
  | lock => 4
  | count => 3
  | notify => 2
  | unlock => 1
  | run => 0

end RunPc

/-- Who takes the lock of the latch. -/
inductive LatchThread where
  | creator
  | created
  deriving DecidableEq

/-- A `Thread` with its latch, its creator and the thread it stands for. -/
structure ThreadStart where
  started : Bool
  tid : Nat
  count : Int
  owner : Option LatchThread
  creator : StartPc
  created : RunPc
  deriving DecidableEq

/-- What moves: the creator, the new thread, and the creator that nothing wakes up. -/
inductive StartStep where
  | creator
  | created
  | wake
  deriving DecidableEq

namespace ThreadStart

/-- After the constructor of `Thread`, at the head of `start`. -/
def new : ThreadStart := ⟨false, 0, 1, none, .begin, .absent⟩

/-- `pthread_mutex_lock` returns, where the lock is free. -/
def acquire (s : ThreadStart) (thread : LatchThread) : Option ThreadStart :=
  if s.owner = none then some { s with owner := some thread } else none

/-- The next step of `Thread::start`. -/
def creatorStep (o : Creation) (s : ThreadStart) : Option ThreadStart :=
  match s.creator with
  | .begin => some { s with started := true, creator := .create }
  | .create => some { s with creator := .check, created := if o.rt = 0 then .store else .absent }
  | .check =>
      if (o.rt : Int) = -1 then some { s with started := false, creator := .returned }
      else some { s with creator := .lock }
  | .lock => (s.acquire .creator).map ({ · with creator := .test })
  | .test =>
      if 0 < s.count then some { s with owner := none, creator := .wait }
      else some { s with creator := .unlock }
  | .wait => none
  | .woken => (s.acquire .creator).map ({ · with creator := .test })
  | .unlock => some { s with owner := none, creator := .assertTid }
  | .assertTid => some { s with creator := if 0 < s.tid then .returned else .aborted }
  | .aborted => none
  | .returned => none

/-- The next step of `ThreadData::runInThread`, up to the function of the thread. -/
def createdStep (o : Creation) (s : ThreadStart) : Option ThreadStart :=
  match s.created with
  | .absent => none
  | .store => some { s with tid := o.tid, created := .lock }
  | .lock => (s.acquire .created).map ({ · with created := .count })
  | .count => some { s with count := s.count - 1, created := .notify }
  | .notify =>
      some { s with
        creator := if s.count = 0 ∧ s.creator = .wait then .woken else s.creator
        created := .unlock }
  | .unlock => some { s with owner := none, created := .run }
  | .run => none

def step (o : Creation) (s : ThreadStart) : StartStep → Option ThreadStart
  | .creator => s.creatorStep o
  | .created => s.createdStep o
  | .wake => if s.creator = .wait then some { s with creator := .woken } else none

/-- `start` returns after the new thread has stored its id, or says that there is none. While it waits
on the latch there is a thread that will count it down, or the count is down; while it sleeps there is
a thread that will wake it up. -/
structure Handshake (o : Creation) (s : ThreadStart) : Prop where
  stored : o.rt = 0 → s.creator = .returned → s.tid = o.tid
  failed : o.rt ≠ 0 → s.creator = .returned → s.started = false
  waits : s.creator.waits → s.created.counts ∨ s.count ≤ 0
  sleeps : s.creator = .wait → s.created.counts ∨ s.created = .notify

/-- Where a thread has the lock of the latch. -/
def holds (s : ThreadStart) : LatchThread → Bool
  | .creator => s.creator.holds
  | .created => s.created.holds

/-- What holds of a start whose thread there is. -/
structure Inv (o : Creation) (s : ThreadStart) : Prop where
  owned : Owned s.owner s.holds
  tid : s.tid = if s.created.stored then o.tid else 0
  count : s.count = if s.created.counted then 0 else 1
  absent : s.created = .absent ↔ s.creator.early
  passed : s.creator.passed → s.created.counted
  sleeps : s.creator = .wait → s.created.counts ∨ s.created = .notify
  asserts : s.creator ≠ .aborted

variable {o : Creation} {s t : ThreadStart} {a : StartStep}

theorem acquire_map_eq_some {thread : LatchThread} {f : ThreadStart → ThreadStart}
    (h : (s.acquire thread).map f = some t) : s.owner = none ∧ t = f { s with owner := some thread } :=
  Locks.of_acquire h

/-- The threads other than the one that moves stand where they stood. -/
theorem holds_creator (h : t.created = s.created) :
    ∀ thread, thread ≠ .creator → t.holds thread = s.holds thread
  | .creator, hne => absurd rfl hne
  | .created, _ => by rw [holds, holds, h]

theorem holds_created (h : t.creator.holds = s.creator.holds) :
    ∀ thread, thread ≠ .created → t.holds thread = s.holds thread
  | .created, hne => absurd rfl hne
  | .creator, _ => h

/-! ### A thread that is made -/

theorem new_inv (o : Creation) : new.Inv o where
  owned := .init fun
    | .creator => rfl
    | .created => rfl
  tid := rfl
  count := rfl
  absent := iff_of_true rfl rfl
  passed := nofun
  sleeps := nofun
  asserts := nofun

namespace Inv

/-- A thread that has counted the latch down has stored its id before. -/
theorem stored (hs : s.Inv o) (h : s.created.counted) : s.tid = o.tid := by
  rw [hs.tid, if_pos]
  cases hpc : s.created <;> simp [hpc, RunPc.counted, RunPc.stored] at h ⊢

theorem not_early (hs : s.Inv o) (h : s.created ≠ .absent) : ¬ s.creator.early :=
  fun hearly => h (hs.absent.mpr hearly)

theorem counts_of_count_pos (hs : s.Inv o) (hearly : s.creator.early = false) (h : 0 < s.count) :
    s.created.counts := by
  have hcount := hs.count
  have habsent : s.created ≠ .absent := fun hpc => by simp [hs.absent.mp hpc] at hearly
  cases hpc : s.created <;> simp_all [RunPc.counted, RunPc.counts]

/-- The creator moves on without taking the lock or giving it up. -/
theorem advance (hs : s.Inv o) (started : Bool) {pc : StartPc} (hholds : pc.holds = s.creator.holds)
    (hearly : pc.early = s.creator.early) (hpassed : pc.passed → s.created.counted)
    (hsleeps : pc ≠ .wait) (hasserts : pc ≠ .aborted) :
    Inv o { s with started := started, creator := pc } where
  owned := hs.owned.keep (i := .creator) hholds (holds_creator rfl)
  tid := hs.tid
  count := hs.count
  absent := hs.absent.trans (by rw [hearly])
  passed := hpassed
  sleeps := fun h => absurd h hsleeps
  asserts := hasserts

theorem acquired (hs : s.Inv o) (howner : s.owner = none) (hearly : s.creator.early = false) :
    Inv o { s with owner := some .creator, creator := .test } where
  owned := (howner ▸ hs.owned).acquire rfl (holds_creator rfl)
  tid := hs.tid
  count := hs.count
  absent := hs.absent.trans (by rw [hearly]; rfl)
  passed := nofun
  sleeps := nofun
  asserts := nofun

/-- The creator gives the lock up, to sleep or to leave the latch. -/
theorem released (hs : s.Inv o) {pc : StartPc} (hcreator : s.creator.holds) (hholds : pc.holds = false)
    (hearly : pc.early = s.creator.early) (hpassed : pc.passed → s.created.counted)
    (hsleeps : pc = .wait → s.created.counts) (hasserts : pc ≠ .aborted) :
    Inv o { s with owner := none, creator := pc } where
  owned := hs.owned.release (i := .creator) hcreator hholds (holds_creator rfl)
  tid := hs.tid
  count := hs.count
  absent := hs.absent.trans (by rw [hearly])
  passed := hpassed
  sleeps := fun h => Or.inl (hsleeps h)
  asserts := hasserts

theorem creatorStep (hrt : o.rt = 0) (hs : s.Inv o) (hstep : s.creatorStep o = some t) : t.Inv o := by
  have hpassed := hs.passed
  unfold ThreadStart.creatorStep at hstep
  split at hstep
  case h_1 hpc =>
    cases hstep
    exact hs.advance _ (by rw [hpc]; rfl) (by rw [hpc]; rfl) nofun nofun nofun
  case h_2 hpc =>
    -- The thread is made here, in front of its first step.
    have habsent : s.created = .absent := hs.absent.mpr (by rw [hpc]; rfl)
    cases hstep
    rw [if_pos hrt]
    exact {
      owned := hs.owned.keep (i := .creator) (by simp [holds, hpc, StartPc.holds]) fun
        | .creator, hne => absurd rfl hne
        | .created, _ => by simp [holds, habsent, RunPc.holds]
      tid := by simpa [habsent, RunPc.stored] using hs.tid
      count := by simpa [habsent, RunPc.counted] using hs.count
      absent := iff_of_false nofun nofun
      passed := nofun
      sleeps := nofun
      asserts := nofun }
  case h_3 hpc =>
    rw [hrt, if_neg (by decide)] at hstep
    cases hstep
    exact hs.advance _ (by rw [hpc]; rfl) (by rw [hpc]; rfl) nofun nofun nofun
  case h_4 hpc | h_7 hpc =>
    obtain ⟨howner, rfl⟩ := acquire_map_eq_some hstep
    exact hs.acquired howner (by rw [hpc]; rfl)
  case h_5 hpc =>
    split_ifs at hstep with hcount
    · cases hstep
      exact hs.released (by rw [hpc]; rfl) rfl (by rw [hpc]; rfl) nofun
        (fun _ => hs.counts_of_count_pos (by rw [hpc]; rfl) hcount) nofun
    · cases hstep
      refine hs.advance _ (by rw [hpc]; rfl) (by rw [hpc]; rfl) (fun _ => ?_) nofun nofun
      have hvalue := hs.count
      by_contra hcounted
      rw [if_neg hcounted] at hvalue
      exact hcount (by omega)
  case h_8 hpc =>
    cases hstep
    rw [hpc] at hpassed
    exact hs.released (by rw [hpc]; rfl) rfl (by rw [hpc]; rfl) hpassed nofun nofun
  case h_9 hpc =>
    rw [hpc] at hpassed
    have hcounted := hpassed rfl
    rw [if_pos (by rw [hs.stored hcounted]; exact o.tid_pos)] at hstep
    cases hstep
    exact hs.advance _ (by rw [hpc]; rfl) (by rw [hpc]; rfl) (fun _ => hcounted) nofun nofun
  case h_6 | h_10 | h_11 => cases hstep

/-- The new thread moves on. -/
theorem moved (hs : s.Inv o) {pc : RunPc} {owner : Option LatchThread} {tid : Nat} {count : Int}
    (howned : Owned owner (holds { s with created := pc })) (hmade : s.created ≠ .absent)
    (hpc : pc ≠ .absent) (htid : tid = if pc.stored then o.tid else 0)
    (hcount : count = if pc.counted then 0 else 1) (hcounted : s.created.counted → pc.counted)
    (hsleeps : s.creator = .wait → pc.counts ∨ pc = .notify) :
    Inv o { s with tid := tid, count := count, owner := owner, created := pc } where
  owned := howned
  tid := htid
  count := hcount
  absent := iff_of_false hpc (hs.not_early hmade)
  passed := fun h => hcounted (hs.passed h)
  sleeps := hsleeps
  asserts := hs.asserts

/-- The new thread wakes up the creator, if that sleeps. -/
theorem woken (hs : s.Inv o) : Inv o { s with creator := if s.creator = .wait then .woken else s.creator } := by
  split_ifs with hwait
  · exact hs.advance s.started (by rw [hwait]; rfl) (by rw [hwait]; rfl) nofun nofun nofun
  · exact hs

theorem createdStep (hs : s.Inv o) (hstep : s.createdStep o = some t) : t.Inv o := by
  have htid := hs.tid
  have hcount := hs.count
  unfold ThreadStart.createdStep at hstep
  split at hstep
  case h_1 => cases hstep
  case h_2 hpc =>
    rw [hpc] at hcount
    cases hstep
    refine hs.moved ?_ (by simp [hpc]) nofun rfl hcount (by simp [hpc, RunPc.counted]) fun _ => Or.inl rfl
    exact hs.owned.keep (i := .created) (by simp [holds, hpc, RunPc.holds]) (holds_created rfl)
  case h_3 hpc =>
    rw [hpc] at htid hcount
    obtain ⟨howner, rfl⟩ := acquire_map_eq_some hstep
    refine hs.moved ?_ (by simp [hpc]) nofun htid hcount (by simp [hpc, RunPc.counted]) fun _ => Or.inl rfl
    exact (howner ▸ hs.owned).acquire rfl (holds_created rfl)
  case h_4 hpc =>
    rw [hpc] at htid hcount
    cases hstep
    refine hs.moved ?_ (by simp [hpc]) nofun htid (by rw [hcount]; rfl) (fun _ => rfl) fun _ => Or.inr rfl
    exact hs.owned.keep (i := .created) (by simp [holds, hpc, RunPc.holds]) (holds_created rfl)
  case h_5 hpc =>
    -- The latch is down, and so the creator is awake from here on.
    have hdown : s.count = 0 := by rw [hcount, hpc]; rfl
    rw [hpc] at htid hcount
    simp only [hdown, true_and] at hstep
    cases hstep
    refine hs.woken.moved ?_ (by simp [hpc]) nofun htid rfl (fun _ => rfl) ?_
    · exact hs.woken.owned.keep (i := .created) (by simp [holds, hpc, RunPc.holds]) (holds_created rfl)
    · intro hwait
      dsimp only at hwait
      split_ifs at hwait with h
      exact absurd hwait h
  case h_6 hpc =>
    have hsleeps := hs.sleeps
    rw [hpc] at htid hcount hsleeps
    cases hstep
    refine hs.moved ?_ (by simp [hpc]) nofun htid hcount (fun _ => rfl) fun hwait => ?_
    · exact hs.owned.release (i := .created) (by simp [holds, hpc, RunPc.holds]) rfl (holds_created rfl)
    · rcases hsleeps hwait with h | h <;> cases h
  case h_7 => cases hstep

theorem step (hrt : o.rt = 0) (hs : s.Inv o) (hstep : s.step o a = some t) : t.Inv o := by
  cases a with
  | creator => exact hs.creatorStep hrt hstep
  | created => exact hs.createdStep hstep
  | wake =>
      simp only [ThreadStart.step] at hstep
      split_ifs at hstep with hwait
      cases hstep
      exact hs.advance _ (by rw [hwait]; rfl) (by rw [hwait]; rfl) nofun nofun nofun

theorem handshake (hrt : o.rt = 0) (hs : s.Inv o) : s.Handshake o where
  stored := fun _ h => hs.stored (hs.passed (by rw [h]; rfl))
  failed := fun h => absurd hrt h
  waits := fun h => by
    by_cases hcount : 0 < s.count
    · refine Or.inl (hs.counts_of_count_pos ?_ hcount)
      cases hpc : s.creator <;> simp [hpc, StartPc.waits, StartPc.early] at h ⊢
    · exact Or.inr (Int.not_lt.mp hcount)
  sleeps := hs.sleeps

end Inv

/-- Without a thread, the creator is never behind the latch. -/
structure Alone (s : ThreadStart) : Prop where
  created : s.created = .absent
  count : s.count = 1
  passed : s.creator.passed = false

theorem new_alone : new.Alone := ⟨rfl, rfl, rfl⟩

theorem Alone.step (hrt : o.rt ≠ 0) (hs : s.Alone) (hstep : s.step o a = some t) : t.Alone := by
  obtain ⟨hcreated, hcount, hpassed⟩ := hs
  cases a with
  | creator =>
      simp only [ThreadStart.step, creatorStep] at hstep
      split at hstep
      case h_2 =>
        cases hstep
        exact ⟨if_neg hrt, hcount, rfl⟩
      case h_3 =>
        -- No error number is `-1`.
        rw [if_neg (by omega)] at hstep
        cases hstep
        exact ⟨hcreated, hcount, rfl⟩
      case h_4 | h_7 =>
        obtain ⟨-, rfl⟩ := acquire_map_eq_some hstep
        exact ⟨hcreated, hcount, rfl⟩
      case h_5 =>
        rw [if_pos (by omega)] at hstep
        cases hstep
        exact ⟨hcreated, hcount, rfl⟩
      case h_8 hpc | h_9 hpc =>
        rw [hpc] at hpassed
        cases hpassed
      case h_6 | h_10 | h_11 => cases hstep
      case h_1 =>
        cases hstep
        exact ⟨hcreated, hcount, rfl⟩
  | created => simp [ThreadStart.step, createdStep, hcreated] at hstep
  | wake =>
      simp only [ThreadStart.step] at hstep
      split_ifs at hstep
      cases hstep
      exact ⟨hcreated, hcount, rfl⟩

/-- If `pthread_create` fails, `start` does not return. -/
theorem run_failed (hrt : o.rt ≠ 0) {as : List StartStep}
    (hrun : Run (step o) (fun _ _ => True) new as t) : t.creator ≠ .returned := by
  have halone : t.Alone := hrun.invariant (fun _ _ _ _ hstep hs => hs.step hrt hstep) new_alone
  intro hreturned
  have hpassed := halone.passed
  rw [hreturned] at hpassed
  cases hpassed

/-! ### The handshake -/

/-- The creator comes to the latch whatever the result of `pthread_create` is. -/
theorem run_lock (o : Creation) : Run (step o) (fun _ _ => True) new [.creator, .creator, .creator]
    ⟨true, 0, 1, none, .lock, if o.rt = 0 then .store else .absent⟩ := by
  apply run_of_exec_checked
  simp [exec, checked, step, creatorStep, new]

/-- **The handshake of `start`.** All runs keep it just if the thread is made. -/
theorem run_handshake_iff (o : Creation) :
    (∀ as t, Run (step o) (fun _ _ => True) new as t → t.Handshake o) ↔ o.rt = 0 := by
  constructor
  · intro hall
    by_contra hrt
    have hlock := (hall _ _ (run_lock o)).waits rfl
    simp [hrt, RunPc.counts] at hlock
  · intro hrt as t hrun
    exact (hrun.invariant (fun _ _ _ _ hstep hs => hs.step hrt hstep) (new_inv o)).handshake hrt

/-- No thread can be made, and the creator sleeps on the latch. -/
theorem run_sleeps_alone :
    ∃ (o : Creation) (as : List StartStep) (t : ThreadStart), o.rt = 11 ∧
      Run (step o) (fun _ _ => True) new as t ∧ t = ⟨true, 0, 1, none, .wait, .absent⟩ ∧
        ¬ t.Handshake o := by
  refine ⟨⟨11, 1, by decide⟩, List.replicate 5 .creator, _, rfl, run_of_exec_checked rfl, rfl, fun h => ?_⟩
  have hwaits := h.waits rfl
  simp [RunPc.counts] at hwaits

/-- The way up to the end of the handshake. -/
def left (s : ThreadStart) : Nat := 4 * s.created.left + s.creator.left

theorem creatorStep_left (hrt : o.rt = 0) (hs : s.Inv o) (hstep : s.creatorStep o = some t) :
    t.left < s.left := by
  unfold creatorStep at hstep
  split at hstep
  case h_2 hpc =>
    have habsent : s.created = .absent := hs.absent.mpr (by rw [hpc]; rfl)
    cases hstep
    simp [left, hpc, habsent, hrt, StartPc.left, RunPc.left]
  case h_3 hpc =>
    rw [hrt, if_neg (by decide)] at hstep
    cases hstep
    simp [left, hpc, StartPc.left]
  case h_4 hpc | h_7 hpc =>
    obtain ⟨-, rfl⟩ := acquire_map_eq_some hstep
    simp [left, hpc, StartPc.left]
  case h_5 hpc =>
    split_ifs at hstep
    all_goals
      cases hstep
      simp [left, hpc, StartPc.left]
  case h_9 hpc =>
    cases hstep
    simp only [left, hpc]
    split_ifs <;> simp [StartPc.left]
  case h_1 hpc | h_8 hpc =>
    cases hstep
    simp [left, hpc, StartPc.left]
  case h_6 | h_10 | h_11 => cases hstep

theorem createdStep_left (hstep : s.createdStep o = some t) : t.left < s.left := by
  unfold createdStep at hstep
  split at hstep
  case h_1 | h_7 => cases hstep
  case h_3 hpc =>
    obtain ⟨-, rfl⟩ := acquire_map_eq_some hstep
    simp [left, hpc, RunPc.left]
  case h_5 hpc =>
    cases hstep
    simp only [left, hpc, RunPc.left]
    split_ifs with hwait
    · rw [hwait.2]
      decide
    · omega
  case h_2 hpc | h_4 hpc | h_6 hpc =>
    cases hstep
    simp [left, hpc, RunPc.left]

namespace Inv

/-- If the creator cannot move for the lock, or sleeps, the new thread can move. -/
theorem creator_or_created (hs : s.Inv o) (hreturned : s.creator ≠ .returned) :
    (∃ t, s.creatorStep o = some t) ∨ ∃ t, s.createdStep o = some t := by
  cases hcreated : s.created with
  | absent =>
      have hearly := hs.absent.mp hcreated
      apply Or.inl
      cases hpc : s.creator <;> simp [hpc, StartPc.early, ThreadStart.creatorStep] at hearly ⊢
  | store | count | notify | unlock => exact Or.inr (by simp [ThreadStart.createdStep, hcreated])
  | lock =>
      cases howner : s.owner with
      | none => exact Or.inr (by simp [ThreadStart.createdStep, hcreated, acquire, howner])
      | some thread =>
          have hholds := (hs.owned thread).mp howner
          cases thread with
          | created => simp [holds, hcreated, RunPc.holds] at hholds
          | creator =>
              -- The creator has the lock, and it does not sleep with it.
              apply Or.inl
              cases hpc : s.creator <;> simp [holds, hpc, StartPc.holds] at hholds
              · simp only [ThreadStart.creatorStep, hpc]
                split_ifs <;> exact ⟨_, rfl⟩
              · exact ⟨_, by simp only [ThreadStart.creatorStep, hpc]; rfl⟩
  | run =>
      have hsleeps := hs.sleeps
      have howner : s.creator.holds = false → s.owner = none := by
        intro hfree
        cases howner : s.owner with
        | none => rfl
        | some thread =>
            have hholds := (hs.owned thread).mp howner
            cases thread <;> simp [holds, hfree, hcreated, RunPc.holds] at hholds
      apply Or.inl
      cases hpc : s.creator with
      | wait => simp [hpc, hcreated, RunPc.counts] at hsleeps
      | returned => exact absurd hpc hreturned
      | aborted => exact absurd hpc hs.asserts
      | lock | woken =>
          have hnone := howner (by rw [hpc]; rfl)
          simp [ThreadStart.creatorStep, hpc, acquire, hnone]
      | check | test =>
          simp only [ThreadStart.creatorStep, hpc]
          split_ifs <;> exact ⟨_, rfl⟩
      | _ => exact ⟨_, by simp only [ThreadStart.creatorStep, hpc]; rfl⟩

theorem progress (hrt : o.rt = 0) (hs : s.Inv o) (hreturned : s.creator ≠ .returned) :
    ∃ a t, s.step o a = some t ∧ t.left < s.left := by
  rcases hs.creator_or_created hreturned with ⟨t, ht⟩ | ⟨t, ht⟩
  · exact ⟨.creator, t, ht, creatorStep_left hrt hs ht⟩
  · exact ⟨.created, t, ht, createdStep_left ht⟩

theorem returns (hrt : o.rt = 0) (hs : s.Inv o) :
    ∃ as t, Run (ThreadStart.step o) (fun _ _ => True) s as t ∧ t.creator = .returned := by
  induction hleft : s.left using Nat.strongRecOn generalizing s with
  | ind n ih =>
      by_cases hreturned : s.creator = .returned
      · exact ⟨[], s, .nil s, hreturned⟩
      · obtain ⟨a, u, hstep, hlt⟩ := hs.progress hrt hreturned
        obtain ⟨as, t, hrun, ht⟩ := ih u.left (hleft ▸ hlt) (hs.step hrt hstep) rfl
        exact ⟨a :: as, t, .cons trivial hstep hrun, ht⟩

end Inv

/-- **No deadlock.** Wherever a run has brought the two threads, `start` can still return. -/
theorem run_returns (hrt : o.rt = 0) {as : List StartStep}
    (hrun : Run (step o) (fun _ _ => True) new as s) :
    ∃ bs t, Run (step o) (fun _ _ => True) s bs t ∧ t.creator = .returned :=
  (hrun.invariant (fun _ _ _ _ hstep hs => hs.step hrt hstep) (new_inv o)).returns hrt

end ThreadStart

end WebServer
