import WebServer.Monitors
import WebServer.ThreadStart

/-! `EventLoopThreadPool::start`. It makes one `EventLoopThread` after the other and waits for each of them: in
`Thread::start` until the new thread runs, and in `startLoop` until it has published its loop. The threads made
before go on meanwhile. -/

namespace WebServer

open Runs Monitors

instance : Fintype LatchThread :=
  ⟨{.creator, .created}, fun
    | .creator => Finset.mem_insert_self _ _
    | .created => Finset.mem_insert_of_mem (Finset.mem_singleton_self _)⟩

/-- Where `startLoop` is. -/
inductive StartLoopPc where
  /-- In `Thread::start`. -/
  | start
  /-- In the block that waits for `m_loop`. -/
  | wait
  | returned
  deriving DecidableEq

/-- Where the new thread is. -/
inductive LoopFuncPc where
  /-- In `runInThread`, up to the block of `threadFunc`. -/
  | before
  /-- In the block that sets `m_loop`. -/
  | publish
  /-- In `EventLoop::loop`. -/
  | loop
  deriving DecidableEq

/-- An `EventLoopThread` that is started: `m_thread`, and `m_loop` with its lock and its condition variable. A
loop goes by the number of its thread. -/
structure LoopStart where
  thread : ThreadStart
  loop : Monitors.State LatchThread (Option Nat)
  starter : StartLoopPc
  func : LoopFuncPc

inductive LoopStartStep where
  | startLoop
  | threadFunc
  /-- Nobody has woken the thread that wakes up in `CountDownLatch::wait`. -/
  | wakeLatch
  /-- Nor the one in `startLoop`. -/
  | wakeLoop
  deriving DecidableEq

namespace LoopStart

/-- `m_loop` of the thread `i`: `startLoop` waits while it is null, and `threadFunc` sets it and calls `notify`.
As nobody else waits for it, that wakes up all who sleep. -/
def published (i : Nat) : Monitor (Option Nat) where
  ready loop := loop.isSome
  change _ := some i
  wakes _ := true

def new : LoopStart := ⟨.new, .new none, .start, .before⟩

/-- The next step of `startLoop`. -/
def startLoop (o : Creation) (i : Nat) (s : LoopStart) : Option LoopStart :=
  match s.starter with
  | .start =>
      if s.thread.creator = .returned then
        (s.loop.step (published i) (.wait .creator)).map fun loop => { s with loop := loop, starter := .wait }
      else (s.thread.creatorStep o).map fun thread => { s with thread := thread }
  | .wait =>
      (s.loop.goOn (published i) .creator).map fun loop =>
        { s with loop := loop, starter := if loop.pc .creator = .out then .returned else .wait }
  | .returned => none

/-- The next step of the new thread. -/
def threadFunc (o : Creation) (i : Nat) (s : LoopStart) : Option LoopStart :=
  match s.func with
  | .before =>
      if s.thread.created = .run then
        (s.loop.step (published i) (.change .created)).map fun loop => { s with loop := loop, func := .publish }
      else (s.thread.createdStep o).map fun thread => { s with thread := thread }
  | .publish =>
      (s.loop.goOn (published i) .created).map fun loop =>
        { s with loop := loop, func := if loop.pc .created = .out then .loop else .publish }
  | .loop => none

def step (o : Creation) (i : Nat) (s : LoopStart) : LoopStartStep → Option LoopStart
  | .startLoop => s.startLoop o i
  | .threadFunc => s.threadFunc o i
  | .wakeLatch => (s.thread.step o .wake).map fun thread => { s with thread := thread }
  | .wakeLoop => (s.loop.step (published i) (.wake .creator)).map fun loop => { s with loop := loop }

/-- `m_loop` has been set. -/
def isSet (s : LoopStart) : Bool :=
  match s.func with
  | .before => false
  | .publish => s.loop.pc .created = .notify ∨ s.loop.pc .created = .release
  | .loop => true

/-- What holds while a thread that was made is started. -/
structure Made (o : Creation) (i : Nat) (s : LoopStart) : Prop where
  thread : s.thread.Inv o
  loop : s.loop.Inv (published i)
  start : s.starter = .start → s.loop.pc .creator = .out
  wait : s.starter = .wait → (s.loop.pc .creator).waits
  returned : s.starter = .returned → s.loop.pc .creator = .out ∧ s.func = .loop
  started : s.starter ≠ .start → s.thread.creator = .returned
  before : s.func ≠ .publish → s.loop.pc .created = .out
  publish : s.func = .publish → (s.loop.pc .created).changes
  ran : s.func ≠ .before → s.thread.created = .run
  shared : s.loop.shared = if s.isSet then some i else none

/-- There is no thread, and so `Thread::start` does not return. -/
structure Unmade (s : LoopStart) : Prop where
  alone : s.thread.Alone
  owner : s.thread.owner = if s.thread.creator.holds then some .creator else none
  loop : s.loop = .new none
  starter : s.starter = .start
  func : s.func = .before

variable {o : Creation} {i : Nat} {s t : LoopStart}

theorem published_sound (i : Nat) : (published i).Sound where
  stays _ _ := rfl
  wakes _ _ _ := rfl

theorem creatorStep_run {r r' : ThreadStart} (hr : r.Inv o) (hrun : r.created = .run)
    (hstep : r.creatorStep o = some r') : r'.created = .run := by
  have hlate : r.creator.early = false := by
    by_contra hearly
    have habsent := hr.absent.mpr (by simpa using hearly)
    rw [hrun] at habsent
    cases habsent
  unfold ThreadStart.creatorStep at hstep
  split at hstep
  case h_2 hpc =>
    rw [hpc] at hlate
    cases hlate
  case h_4 | h_7 =>
    obtain ⟨-, rfl⟩ := ThreadStart.acquire_map_eq_some hstep
    exact hrun
  case h_3 | h_5 =>
    split_ifs at hstep <;> cases hstep <;> exact hrun
  case h_6 | h_10 | h_11 => cases hstep
  all_goals
    cases hstep
    exact hrun

theorem createdStep_returned {r r' : ThreadStart} (hreturned : r.creator = .returned)
    (hstep : r.createdStep o = some r') : r'.creator = .returned := by
  unfold ThreadStart.createdStep at hstep
  split at hstep
  case h_1 | h_7 => cases hstep
  case h_3 =>
    obtain ⟨-, rfl⟩ := ThreadStart.acquire_map_eq_some hstep
    exact hreturned
  case h_5 =>
    cases hstep
    rw [if_neg (by simp [hreturned])]
    exact hreturned
  all_goals
    cases hstep
    exact hreturned

/-- Who leaves the block of `startLoop` has found the loop, and its thread is behind its own block. -/
theorem Made.leaves (hs : s.Made o i) (hleave : s.loop.pc .creator = .leave) : s.func = .loop := by
  have hready : s.loop.shared.isSome := hs.loop.leave .creator hleave
  have hset : s.isSet = true := by
    by_contra hnot
    rw [hs.shared, if_neg hnot] at hready
    cases hready
  cases hfunc : s.func with
  | loop => rfl
  | before => simp [isSet, hfunc] at hset
  | publish =>
      have hpc : s.loop.pc .created = .notify ∨ s.loop.pc .created = .release := by
        simpa [isSet, hfunc] using hset
      have hholds : (s.loop.pc .created).holds := by rcases hpc with h | h <;> rw [h] <;> rfl
      have hsame : LatchThread.created = .creator := hs.loop.only (by rw [hleave]; rfl) hholds
      cases hsame

/-! ### A thread that was made -/

theorem new_made (o : Creation) (i : Nat) : new.Made o i where
  thread := ThreadStart.new_inv o
  loop := State.new_inv none
  start _ := rfl
  wait h := nomatch h
  returned h := nomatch h
  started h := absurd rfl h
  before _ := rfl
  publish h := nomatch h
  ran h := absurd rfl h
  shared := rfl

/-- A step in `Thread::start`, of its creator or of a wakeup. -/
theorem Made.creator (hs : s.Made o i) {thread : ThreadStart} (hthread : thread.Inv o)
    (hstart : s.starter = .start) (hran : s.thread.created = .run → thread.created = .run) :
    Made o i { s with thread := thread } :=
  { hs with
    thread := hthread
    started := fun h => absurd hstart h
    ran := fun h => hran (hs.ran h) }

theorem Made.startLoop (hrt : o.rt = 0) (hs : s.Made o i) (hstep : s.startLoop o i = some t) : t.Made o i := by
  unfold LoopStart.startLoop at hstep
  split at hstep
  · rename_i hstart
    split_ifs at hstep with hreturned
    · -- `startLoop` enters its block
      obtain ⟨loop, hcall, rfl⟩ := Option.map_eq_some_iff.mp hstep
      have hloop := State.step_inv hs.loop (published_sound i) hcall
      simp only [State.step, if_pos (hs.start hstart), Option.some.injEq] at hcall
      subst hcall
      have hcreated : (s.loop.setPc .creator .waitLock).pc .created = s.loop.pc .created :=
        State.setPc_ne s.loop (by decide) .waitLock
      refine ⟨hs.thread, hloop, (fun h => by cases h), fun _ => ?_, (fun h => by cases h), fun _ => hreturned,
        fun h => ?_, fun h => ?_, hs.ran, ?_⟩
      · rw [State.setPc_self]
        rfl
      · exact hcreated.trans (hs.before h)
      · rw [hcreated]
        exact hs.publish h
      · simp only [isSet, hcreated]
        exact hs.shared
    · obtain ⟨thread, hcreator, rfl⟩ := Option.map_eq_some_iff.mp hstep
      exact hs.creator (hs.thread.creatorStep hrt hcreator) hstart fun hrun =>
        creatorStep_run hs.thread hrun hcreator
  · rename_i hwait
    obtain ⟨loop, hgoes, rfl⟩ := Option.map_eq_some_iff.mp hstep
    have hloop := State.goOn_inv hs.loop (published_sound i) hgoes
    obtain ⟨hshared, hothers, hcase⟩ := State.goOn_waits (hs.wait hwait) hgoes
    have hcreated : loop.pc .created = s.loop.pc .created := hothers .created (by decide)
    have hreturned : s.thread.creator = .returned := hs.started (by simp [hwait])
    refine ⟨hs.thread, hloop, fun h => ?_, fun h => ?_, fun h => ?_, fun _ => hreturned, fun h => ?_,
      fun h => ?_, hs.ran, ?_⟩
    · dsimp only at h
      split_ifs at h
    · dsimp only at h
      split_ifs at h with hout
      exact hcase.resolve_right fun h' => hout h'.2
    · dsimp only at h
      split_ifs at h with hout
      have hleave : s.loop.pc .creator = .leave := by
        refine (hcase.resolve_left fun hwaits => ?_).1
        rw [hout] at hwaits
        cases hwaits
      exact ⟨hout, hs.leaves hleave⟩
    · exact hcreated.trans (hs.before h)
    · rw [hcreated]
      exact hs.publish h
    · simp only [isSet, hcreated, hshared]
      exact hs.shared
  · cases hstep

theorem Made.threadFunc (hs : s.Made o i) (hstep : s.threadFunc o i = some t) : t.Made o i := by
  unfold LoopStart.threadFunc at hstep
  split at hstep
  · rename_i hbefore
    have hnone : s.loop.shared = none := by
      rw [hs.shared]
      simp [isSet, hbefore]
    split_ifs at hstep with hrun
    · -- `threadFunc` enters its block
      obtain ⟨loop, hcall, rfl⟩ := Option.map_eq_some_iff.mp hstep
      have hloop := State.step_inv hs.loop (published_sound i) hcall
      have hout : s.loop.pc .created = .out := hs.before (by simp [hbefore])
      simp only [State.step, if_pos hout, Option.some.injEq] at hcall
      subst hcall
      have hcreator : (s.loop.setPc .created .changeLock).pc .creator = s.loop.pc .creator :=
        State.setPc_ne s.loop (by decide) .changeLock
      have hself : (s.loop.setPc .created .changeLock).pc .created = .changeLock := State.setPc_self _ _ _
      refine ⟨hs.thread, hloop, fun h => hcreator.trans (hs.start h), fun h => ?_, fun h => ?_, hs.started,
        fun h => absurd rfl h, fun _ => ?_, fun _ => hrun, ?_⟩
      · rw [hcreator]
        exact hs.wait h
      · have hloops := (hs.returned h).2
        rw [hbefore] at hloops
        cases hloops
      · rw [hself]
        rfl
      · simp only [isSet, hself]
        exact hnone
    · obtain ⟨thread, hcreated, rfl⟩ := Option.map_eq_some_iff.mp hstep
      exact { hs with
        thread := hs.thread.createdStep hcreated
        started := fun h => createdStep_returned (hs.started h) hcreated
        ran := fun h => absurd hbefore h }
  · rename_i hpublish
    obtain ⟨loop, hgoes, rfl⟩ := Option.map_eq_some_iff.mp hstep
    have hloop := State.goOn_inv hs.loop (published_sound i) hgoes
    obtain ⟨hothers, hcases⟩ := State.goOn_changes (hs.publish hpublish) hgoes
    have hcreator := hothers .creator (by decide)
    have hlaw := hs.shared
    have hrun : s.thread.created = .run := hs.ran (by simp [hpublish])
    refine ⟨hs.thread, hloop, fun h => ?_, fun h => ?_, fun h => ?_, hs.started, fun h => ?_, fun h => ?_,
      fun _ => hrun, ?_⟩
    · have hout := hs.start h
      rcases hcreator with hsame | ⟨hasleep, -⟩
      · exact hsame.trans hout
      · rw [hout] at hasleep
        cases hasleep
    · rcases hcreator with hsame | ⟨-, hwoken⟩
      · rw [hsame]
        exact hs.wait h
      · rw [hwoken]
        rfl
    · have hloops := (hs.returned h).2
      rw [hpublish] at hloops
      cases hloops
    · dsimp only at h
      split_ifs at h with hout
      · exact hout
      · exact absurd rfl h
    · dsimp only at h
      split_ifs at h with hout
      rcases hcases with ⟨-, hpc, -⟩ | ⟨-, hpc, -⟩ | ⟨-, hpc, -⟩ | ⟨-, hpc, -⟩
      case inr.inr.inr => exact absurd hpc hout
      all_goals
        rw [hpc]
        rfl
    · rcases hcases with ⟨hat, hpc, hshared⟩ | ⟨hat, hpc, hshared⟩ | ⟨hat, hpc, hshared⟩ | ⟨hat, hpc, hshared⟩
      all_goals
        simp only [isSet, hpublish, hat, reduceCtorEq, or_false, or_true, or_self, decide_false,
          decide_true, Bool.false_eq_true, if_true, if_false] at hlaw
        simp only [isSet, hpc, hshared, published, reduceCtorEq, or_false, or_true, or_self, decide_false,
          decide_true, Bool.false_eq_true, if_true, if_false, hlaw]
  · cases hstep

theorem Made.step {a : LoopStartStep} (hrt : o.rt = 0) (hs : s.Made o i) (hstep : s.step o i a = some t) :
    t.Made o i := by
  cases a with
  | startLoop => exact hs.startLoop hrt hstep
  | threadFunc => exact hs.threadFunc hstep
  | wakeLatch =>
      obtain ⟨thread, hwakes, rfl⟩ := Option.map_eq_some_iff.mp hstep
      have hthread := hs.thread.step (a := .wake) hrt hwakes
      simp only [ThreadStart.step] at hwakes
      split_ifs at hwakes with hsleeps
      cases hwakes
      have hstart : s.starter = .start := by
        by_contra hlate
        rw [hs.started hlate] at hsleeps
        cases hsleeps
      exact hs.creator hthread hstart fun hrun => hrun
  | wakeLoop =>
      obtain ⟨loop, hwakes, rfl⟩ := Option.map_eq_some_iff.mp hstep
      have hloop := State.step_inv hs.loop (published_sound i) hwakes
      simp only [State.step] at hwakes
      split_ifs at hwakes with hsleeps
      obtain rfl := Option.some.inj hwakes
      have hcreated : (s.loop.setPc .creator .woken).pc .created = s.loop.pc .created :=
        State.setPc_ne s.loop (by decide) .woken
      refine ⟨hs.thread, hloop, fun h => ?_, fun _ => ?_, fun h => ?_, hs.started, fun h => ?_, fun h => ?_,
        hs.ran, ?_⟩
      · rw [hs.start h] at hsleeps
        cases hsleeps
      · rw [State.setPc_self]
        rfl
      · rw [(hs.returned h).1] at hsleeps
        cases hsleeps
      · exact hcreated.trans (hs.before h)
      · rw [hcreated]
        exact hs.publish h
      · simp only [isSet, hcreated]
        exact hs.shared

theorem new_unmade : new.Unmade := ⟨ThreadStart.new_alone, rfl, rfl, rfl, rfl⟩

theorem Unmade.creatorStep {thread : ThreadStart} (hrt : o.rt ≠ 0) (hs : s.Unmade)
    (hstep : s.thread.creatorStep o = some thread) :
    Unmade { s with thread := thread } ∧ thread.left < s.thread.left := by
  have halone : thread.Alone := hs.alone.step (a := .creator) hrt hstep
  obtain ⟨hcreated, hcount, hpassed⟩ := hs.alone
  have howner := hs.owner
  have hless : thread.owner = (if thread.creator.holds then some .creator else none) ∧
      thread.left < s.thread.left := by
    unfold ThreadStart.creatorStep at hstep
    split at hstep
    all_goals rename_i hpc
    case h_1 =>
      cases hstep
      simp [hpc, howner, ThreadStart.left, StartPc.left, StartPc.holds]
    case h_2 =>
      cases hstep
      simp [hpc, howner, hcreated, hrt, ThreadStart.left, StartPc.left, StartPc.holds]
    case h_3 =>
      rw [if_neg (by omega)] at hstep
      cases hstep
      simp [hpc, howner, ThreadStart.left, StartPc.left, StartPc.holds]
    case h_4 | h_7 =>
      obtain ⟨-, rfl⟩ := ThreadStart.acquire_map_eq_some hstep
      simp [hpc, ThreadStart.left, StartPc.left, StartPc.holds]
    case h_5 =>
      rw [if_pos (by omega)] at hstep
      cases hstep
      simp [hpc, ThreadStart.left, StartPc.left, StartPc.holds]
    case h_8 | h_9 =>
      rw [hpc] at hpassed
      cases hpassed
    case h_6 | h_10 | h_11 => cases hstep
  exact ⟨⟨halone, hless.1, hs.loop, hs.starter, hs.func⟩, hless.2⟩

/-- Nothing goes on but `Thread::start`, and that does not return. -/
theorem Unmade.startLoop_eq (hs : s.Unmade) :
    s.startLoop o i = (s.thread.creatorStep o).map fun thread => { s with thread := thread } := by
  have hwaits : s.thread.creator ≠ .returned := by
    intro hreturned
    have hpassed := hs.alone.passed
    rw [hreturned] at hpassed
    cases hpassed
  simp only [startLoop, hs.starter, if_neg hwaits]

theorem Unmade.threadFunc_eq (hs : s.Unmade) : s.threadFunc o i = none := by
  simp [threadFunc, hs.func, hs.alone.created, ThreadStart.createdStep]

theorem Unmade.step {a : LoopStartStep} (hrt : o.rt ≠ 0) (hs : s.Unmade) (hstep : s.step o i a = some t) :
    t.Unmade := by
  cases a with
  | startLoop =>
      rw [LoopStart.step, hs.startLoop_eq] at hstep
      obtain ⟨thread, hcreator, rfl⟩ := Option.map_eq_some_iff.mp hstep
      exact (hs.creatorStep hrt hcreator).1
  | threadFunc =>
      rw [LoopStart.step, hs.threadFunc_eq] at hstep
      cases hstep
  | wakeLatch =>
      obtain ⟨thread, hwakes, rfl⟩ := Option.map_eq_some_iff.mp hstep
      have halone := hs.alone.step (a := .wake) hrt hwakes
      have howner := hs.owner
      simp only [ThreadStart.step] at hwakes
      split_ifs at hwakes with hsleeps
      cases hwakes
      refine ⟨halone, ?_, hs.loop, hs.starter, hs.func⟩
      rw [hsleeps] at howner
      exact howner
  | wakeLoop =>
      obtain ⟨loop, hwakes, rfl⟩ := Option.map_eq_some_iff.mp hstep
      rw [hs.loop] at hwakes
      simp [State.step, State.new] at hwakes

/-- Where nothing goes on, the creator sleeps on the latch. -/
theorem Unmade.stuck (hs : s.Unmade) (hend : s.startLoop o i = none) : s.thread.creator = .wait := by
  have howner := hs.owner
  have hpassed := hs.alone.passed
  rw [hs.startLoop_eq, Option.map_eq_none_iff] at hend
  cases hpc : s.thread.creator with
  | wait => rfl
  | lock | woken =>
      rw [hpc] at howner
      simp [ThreadStart.creatorStep, hpc, ThreadStart.acquire, howner, StartPc.holds] at hend
  | check | test =>
      simp only [ThreadStart.creatorStep, hpc] at hend
      split_ifs at hend
  | begin | create => simp [ThreadStart.creatorStep, hpc] at hend
  | unlock | assertTid | aborted | returned =>
      rw [hpc] at hpassed
      cases hpassed

/-! ### The end of a start -/

/-- What is left to be done until `startLoop` has returned. -/
def work (s : LoopStart) : Nat :=
  s.thread.left + s.loop.work + (if s.starter = .start then 4 else 0) + if s.func = .before then 9 else 0

theorem work_eq (l : State LatchThread (Option Nat)) :
    l.work = State.rank LatchThread (l.pc .creator) + State.rank LatchThread (l.pc .created) :=
  Finset.sum_pair (by decide)

theorem startLoop_work (hrt : o.rt = 0) (hs : s.Made o i) (hstep : s.startLoop o i = some t) :
    t.work < s.work := by
  unfold LoopStart.startLoop at hstep
  split at hstep
  · rename_i hstart
    split_ifs at hstep
    · obtain ⟨loop, hcall, rfl⟩ := Option.map_eq_some_iff.mp hstep
      have hout := hs.start hstart
      simp only [State.step, if_pos hout, Option.some.injEq] at hcall
      subst hcall
      have hcreated : (s.loop.setPc .creator .waitLock).pc .created = s.loop.pc .created :=
        State.setPc_ne s.loop (by decide) .waitLock
      simp only [work, work_eq, hcreated, State.setPc_self, hout, hstart, State.rank, reduceCtorEq, if_true,
        if_false]
      omega
    · obtain ⟨thread, hcreator, rfl⟩ := Option.map_eq_some_iff.mp hstep
      have hless := ThreadStart.creatorStep_left hrt hs.thread hcreator
      simp only [work]
      omega
  · rename_i hwait
    obtain ⟨loop, hgoes, rfl⟩ := Option.map_eq_some_iff.mp hstep
    have hless := State.goOn_work hgoes
    simp only [work, hwait, reduceCtorEq, if_false]
    split_ifs
    all_goals first | omega | contradiction
  · cases hstep

theorem threadFunc_work (hs : s.Made o i) (hstep : s.threadFunc o i = some t) : t.work < s.work := by
  unfold LoopStart.threadFunc at hstep
  split at hstep
  · rename_i hbefore
    split_ifs at hstep
    · obtain ⟨loop, hcall, rfl⟩ := Option.map_eq_some_iff.mp hstep
      have hout := hs.before (by simp [hbefore])
      simp only [State.step, if_pos hout, Option.some.injEq] at hcall
      subst hcall
      have hcreator : (s.loop.setPc .created .changeLock).pc .creator = s.loop.pc .creator :=
        State.setPc_ne s.loop (by decide) .changeLock
      have hcard : Fintype.card LatchThread = 2 := rfl
      simp only [work, work_eq, hcreator, State.setPc_self, hout, hbefore, State.rank, hcard, reduceCtorEq,
        if_true, if_false]
      omega
    · obtain ⟨thread, hcreated, rfl⟩ := Option.map_eq_some_iff.mp hstep
      have hless := ThreadStart.createdStep_left hcreated
      simp only [work]
      omega
  · rename_i hpublish
    obtain ⟨loop, hgoes, rfl⟩ := Option.map_eq_some_iff.mp hstep
    have hless := State.goOn_work hgoes
    simp only [work, hpublish, reduceCtorEq, if_false]
    split_ifs
    all_goals first | omega | contradiction
  · cases hstep

/-- A thread that was made, and has not counted its latch down or not published its loop yet, can go on. -/
theorem Made.settled (hs : s.Made o i) (hstart : s.startLoop o i = none) (hfunc : s.threadFunc o i = none) :
    s.starter = .returned := by
  have hbefore : s.func = .before → s.thread.created ≠ .run ∧ s.thread.createdStep o = none := by
    intro hpc
    have hout := hs.before (by simp [hpc])
    simp only [LoopStart.threadFunc, hpc] at hfunc
    split_ifs at hfunc with hrun
    · simp [State.step, hout] at hfunc
    · exact ⟨hrun, Option.map_eq_none_iff.mp hfunc⟩
  have hlate : s.thread.createdStep o = none := by
    by_cases hpc : s.func = .before
    · exact (hbefore hpc).2
    · simp [ThreadStart.createdStep, hs.ran hpc]
  cases hstarter : s.starter with
  | returned => rfl
  | start =>
      simp only [LoopStart.startLoop, hstarter] at hstart
      split_ifs at hstart with hreturned
      · simp [State.step, hs.start hstarter] at hstart
      · rcases hs.thread.creator_or_created hreturned with ⟨r, hr⟩ | ⟨r, hr⟩
        · simp [hr] at hstart
        · rw [hlate] at hr
          cases hr
  | wait =>
      have hwaits := hs.wait hstarter
      have hgoes : s.loop.goOn (published i) .creator = none := by
        simpa only [LoopStart.startLoop, hstarter, Option.map_eq_none_iff] using hstart
      have hgoes' : s.loop.goOn (published i) .created = none := by
        cases hpc : s.func with
        | publish => simpa only [LoopStart.threadFunc, hpc, Option.map_eq_none_iff] using hfunc
        | before | loop => simp [State.goOn, hs.before (by simp [hpc])]
      have hsettled := hs.loop.settled fun
        | .creator => hgoes
        | .created => hgoes'
      have hasleep : (published i).ready s.loop.shared = false := by
        rcases hsettled .creator with hout | ⟨-, hnot⟩
        · rw [hout] at hwaits
          cases hwaits
        · exact hnot
      -- the loop is not published, and so its thread is still in front of the block that publishes it
      have hfirst : s.func = .before := by
        cases hpc : s.func with
        | before => rfl
        | loop =>
            rw [hs.shared] at hasleep
            simp [isSet, hpc, published] at hasleep
        | publish =>
            have hchanges := hs.publish hpc
            rcases hsettled .created with hout | ⟨hsleeps, -⟩
            · rw [hout] at hchanges
              cases hchanges
            · rw [hsleeps] at hchanges
              cases hchanges
      obtain ⟨hrun, hnone⟩ := hbefore hfirst
      have hcounted : s.thread.created.counted := by
        apply hs.thread.passed
        rw [hs.started (by simp [hstarter])]
        rfl
      cases hpc : s.thread.created with
      | run => exact absurd hpc hrun
      | notify | unlock => simp [ThreadStart.createdStep, hpc] at hnone
      | absent | store | lock | count =>
          rw [hpc] at hcounted
          cases hcounted

end LoopStart

/-! ### The pool -/

/-- `EventLoopThreadPool` in `start`: its threads, and `m_loops`. -/
structure LoopPool where
  threads : Nat → LoopStart
  loops : List (Option Nat)

inductive LoopPoolStep where
  /-- The thread that calls `start`. -/
  | start
  /-- The thread `i` of the pool. -/
  | thread (i : Nat)
  | wakeLatch (i : Nat)
  | wakeLoop (i : Nat)
  deriving DecidableEq

/-- The step is not that of a thread which nobody has woken. -/
def LoopPoolStep.goesOn : LoopPoolStep → Bool
  | start | thread _ => true
  | wakeLatch _ | wakeLoop _ => false

namespace LoopPool

def new : LoopPool := ⟨fun _ => .new, []⟩

def stepThread (answers : Nat → Creation) (s : LoopPool) (i : Nat) (a : LoopStartStep) : Option LoopPool :=
  ((s.threads i).step (answers i) i a).map fun thread =>
    { s with threads := Function.update s.threads i thread }

/-- `start` for `n` threads, where `answers` are those of the kernel. The thread that is started is the one
behind those whose loops are in `m_loops`. -/
def step (n : Nat) (answers : Nat → Creation) (s : LoopPool) : LoopPoolStep → Option LoopPool
  | .start =>
      if s.loops.length < n then
        if (s.threads s.loops.length).starter = .returned then
          some { s with loops := s.loops ++ [(s.threads s.loops.length).loop.shared] }
        else s.stepThread answers s.loops.length .startLoop
      else none
  | .thread i => s.stepThread answers i .threadFunc
  | .wakeLatch i => s.stepThread answers i .wakeLatch
  | .wakeLoop i => s.stepThread answers i .wakeLoop

structure Inv (n : Nat) (answers : Nat → Creation) (s : LoopPool) : Prop where
  made : ∀ i, (answers i).rt = 0 → (s.threads i).Made (answers i) i
  unmade : ∀ i, (answers i).rt ≠ 0 → (s.threads i).Unmade
  later : ∀ i, n ≤ i → s.threads i = .new
  length_le : s.loops.length ≤ n
  loops : s.loops = (List.range s.loops.length).map some
  returned : ∀ i < s.loops.length, (s.threads i).starter = .returned

variable {n : Nat} {answers : Nat → Creation} {s t : LoopPool}

theorem new_inv (n : Nat) (answers : Nat → Creation) : new.Inv n answers where
  made i _ := LoopStart.new_made (answers i) i
  unmade _ _ := LoopStart.new_unmade
  later _ _ := rfl
  length_le := Nat.zero_le n
  loops := rfl
  returned i hi := absurd hi (Nat.not_lt_zero i)

/-- Only the thread that starts it moves the creator on. -/
theorem step_starter {o : Creation} {i : Nat} {a : LoopStartStep} {r r' : LoopStart} (ha : a ≠ .startLoop)
    (hstep : r.step o i a = some r') : r'.starter = r.starter := by
  cases a with
  | startLoop => exact absurd rfl ha
  | threadFunc =>
      simp only [LoopStart.step, LoopStart.threadFunc] at hstep
      split at hstep
      · split_ifs at hstep
        all_goals
          obtain ⟨-, -, rfl⟩ := Option.map_eq_some_iff.mp hstep
          rfl
      · obtain ⟨-, -, rfl⟩ := Option.map_eq_some_iff.mp hstep
        rfl
      · cases hstep
  | wakeLatch | wakeLoop =>
      obtain ⟨-, -, rfl⟩ := Option.map_eq_some_iff.mp hstep
      rfl

/-- A thread that is not started does nothing by itself. -/
theorem step_new {o : Creation} {i : Nat} {a : LoopStartStep} {r : LoopStart}
    (hstep : LoopStart.new.step o i a = some r) : a = .startLoop := by
  cases a with
  | startLoop => rfl
  | _ => simp [LoopStart.step, LoopStart.new, LoopStart.threadFunc, ThreadStart.new, ThreadStart.createdStep,
      ThreadStart.step, State.step, State.new] at hstep

/-- A step of a thread that was started before, or of the one that is. -/
theorem Inv.stepThread {i : Nat} {a : LoopStartStep} (hs : s.Inv n answers)
    (hnow : a = .startLoop → i = s.loops.length) (hlt : a = .startLoop → i < n)
    (hstep : s.stepThread answers i a = some t) : t.Inv n answers := by
  obtain ⟨thread, hthread, rfl⟩ := Option.map_eq_some_iff.mp hstep
  have hi : i < n := by
    by_contra hout
    rw [hs.later i (Nat.not_lt.mp hout)] at hthread
    exact hout (hlt (step_new hthread))
  refine ⟨fun j hrt => ?_, fun j hrt => ?_, fun j hj => ?_, hs.length_le, hs.loops, fun j hj => ?_⟩
  all_goals
    dsimp only
    by_cases hji : j = i
  · subst hji
    rw [Function.update_self]
    exact (hs.made j hrt).step hrt hthread
  · rw [Function.update_of_ne hji]
    exact hs.made j hrt
  · subst hji
    rw [Function.update_self]
    exact (hs.unmade j hrt).step hrt hthread
  · rw [Function.update_of_ne hji]
    exact hs.unmade j hrt
  · omega
  · rw [Function.update_of_ne hji]
    exact hs.later j hj
  · subst hji
    have hother : a ≠ .startLoop := fun ha => absurd (hnow ha) (Nat.ne_of_lt hj)
    rw [Function.update_self, step_starter hother hthread]
    exact hs.returned j hj
  · rw [Function.update_of_ne hji]
    exact hs.returned j hj

/-- `startLoop` has returned the loop of its thread. -/
theorem Inv.push (hs : s.Inv n answers) (hlt : s.loops.length < n)
    (hreturned : (s.threads s.loops.length).starter = .returned) :
    Inv n answers { s with loops := s.loops ++ [(s.threads s.loops.length).loop.shared] } := by
  have hrt : (answers s.loops.length).rt = 0 := by
    by_contra hfailed
    rw [(hs.unmade _ hfailed).starter] at hreturned
    cases hreturned
  have hmade := hs.made _ hrt
  have hshared : (s.threads s.loops.length).loop.shared = some s.loops.length := by
    rw [hmade.shared]
    simp [LoopStart.isSet, (hmade.returned hreturned).2]
  refine ⟨hs.made, hs.unmade, hs.later, ?_, ?_, fun i hi => ?_⟩
  · rw [List.length_append, List.length_singleton]
    exact hlt
  · rw [List.length_append, List.length_singleton, List.range_succ, List.map_append, List.map_singleton,
      hshared]
    exact congrArg (· ++ [some s.loops.length]) hs.loops
  · rw [List.length_append, List.length_singleton] at hi
    by_cases hlast : i = s.loops.length
    · rw [hlast]
      exact hreturned
    · exact hs.returned i (by omega)

theorem step_inv {a : LoopPoolStep} (hs : s.Inv n answers) (hstep : s.step n answers a = some t) :
    t.Inv n answers := by
  cases a with
  | start =>
      simp only [step] at hstep
      split_ifs at hstep with hlt hreturned
      · cases hstep
        exact hs.push hlt hreturned
      · exact hs.stepThread (fun _ => rfl) (fun _ => hlt) hstep
  | thread i => exact hs.stepThread (a := .threadFunc) (nomatch ·) (nomatch ·) hstep
  | wakeLatch i => exact hs.stepThread (a := .wakeLatch) (nomatch ·) (nomatch ·) hstep
  | wakeLoop i => exact hs.stepThread (a := .wakeLoop) (nomatch ·) (nomatch ·) hstep

/-- A bound on the steps that are left. -/
def work (n : Nat) (s : LoopPool) : Nat :=
  ∑ i ∈ Finset.range n, (s.threads i).work + (n - s.loops.length)

theorem stepThread_work {i : Nat} {thread : LoopStart} (hi : i < n) (hless : thread.work < (s.threads i).work) :
    work n { s with threads := Function.update s.threads i thread } < s.work n := by
  have hsum : ∑ k ∈ Finset.range n, (Function.update s.threads i thread k).work <
      ∑ k ∈ Finset.range n, (s.threads k).work := by
    apply Finset.sum_lt_sum
    · intro k _
      by_cases hk : k = i
      · subst hk
        rw [Function.update_self]
        exact hless.le
      · rw [Function.update_of_ne hk]
    · exact ⟨i, Finset.mem_range.mpr hi, by rwa [Function.update_self]⟩
  unfold work
  dsimp only
  omega

theorem step_work {a : LoopPoolStep} (ha : a.goesOn) (hs : s.Inv n answers)
    (hstep : s.step n answers a = some t) : t.work n < s.work n := by
  cases a with
  | start =>
      simp only [step] at hstep
      split_ifs at hstep with hlt hreturned
      · cases hstep
        simp only [work, List.length_append, List.length_singleton]
        omega
      · obtain ⟨thread, hthread, rfl⟩ := Option.map_eq_some_iff.mp hstep
        refine stepThread_work hlt ?_
        by_cases hrt : (answers s.loops.length).rt = 0
        · exact LoopStart.startLoop_work hrt (hs.made _ hrt) hthread
        · have hunmade := hs.unmade _ hrt
          rw [LoopStart.step, hunmade.startLoop_eq] at hthread
          obtain ⟨r, hr, rfl⟩ := Option.map_eq_some_iff.mp hthread
          have hless := (hunmade.creatorStep hrt hr).2
          simp only [LoopStart.work]
          omega
  | thread i =>
      obtain ⟨thread, hthread, rfl⟩ := Option.map_eq_some_iff.mp hstep
      have hi : i < n := by
        by_contra hout
        rw [hs.later i (Nat.not_lt.mp hout)] at hthread
        cases step_new hthread
      refine stepThread_work hi ?_
      by_cases hrt : (answers i).rt = 0
      · exact LoopStart.threadFunc_work (hs.made i hrt) hthread
      · rw [LoopStart.step, (hs.unmade i hrt).threadFunc_eq] at hthread
        cases hthread
  | wakeLatch i | wakeLoop i => cases ha

/-- Where nothing goes on, all threads are started, or the one that is started was not made. -/
theorem Inv.settled (hs : s.Inv n answers) (hend : ∀ a, a.goesOn → s.step n answers a = none) :
    s.loops.length = n ∨ s.loops.length < n ∧ (answers s.loops.length).rt ≠ 0 ∧
      (s.threads s.loops.length).thread.creator = .wait := by
  rcases Nat.lt_or_ge s.loops.length n with hlt | hall
  · have hstart := hend .start rfl
    have hthread := hend (.thread s.loops.length) rfl
    simp only [step, if_pos hlt] at hstart hthread
    split_ifs at hstart with hreturned
    rw [LoopPool.stepThread, Option.map_eq_none_iff] at hstart hthread
    have hfailed : (answers s.loops.length).rt ≠ 0 := fun hrt =>
      hreturned ((hs.made _ hrt).settled hstart hthread)
    exact Or.inr ⟨hlt, hfailed, (hs.unmade _ hfailed).stuck hstart⟩
  · exact Or.inl (Nat.le_antisymm hs.length_le hall)

/-- **The start of the pool.** In every run, however the threads are interleaved and woken, `m_loops` are the
loops of the first threads of the pool, in their order, and each of these was made and runs its loop. From there,
if nobody is woken by chance any more, a bounded number of steps follows; where none can be taken, `start` has
returned with `n` loops, or `pthread_create` has failed for a thread, and `start` sleeps in its
`CountDownLatch::wait`. -/
theorem run_start {as bs : List LoopPoolStep} (hbefore : Run (step n answers) (fun _ _ => True) new as s)
    (hafter : Run (step n answers) (fun _ a => a.goesOn) s bs t) :
    s.loops = (List.range s.loops.length).map some ∧
      (∀ i < s.loops.length, (answers i).rt = 0 ∧ (s.threads i).func = .loop) ∧ bs.length ≤ s.work n ∧
      ((∀ a, a.goesOn → t.step n answers a = none) → t.loops.length = n ∨ t.loops.length < n ∧
        (answers t.loops.length).rt ≠ 0 ∧ (t.threads t.loops.length).thread.creator = .wait) := by
  have hs : s.Inv n answers := hbefore.invariant (fun _ _ _ _ hstep hs => step_inv hs hstep) (new_inv n answers)
  have ht : t.Inv n answers := hafter.invariant (fun _ _ _ _ hstep hs => step_inv hs hstep) hs
  have hdescends : Descends (step n answers) (fun _ a => a.goesOn) (Inv n answers) (work n) :=
    ⟨fun _ _ _ _ hstep hs => step_inv hs hstep, fun _ _ _ ha hstep hs => step_work ha hs hstep⟩
  refine ⟨hs.loops, fun i hi => ?_, hdescends.length_le hafter hs, ht.settled⟩
  have hreturned := hs.returned i hi
  have hrt : (answers i).rt = 0 := by
    by_contra hfailed
    rw [(hs.unmade i hfailed).starter] at hreturned
    cases hreturned
  exact ⟨hrt, ((hs.made i hrt).returned hreturned).2⟩

/-- The kernel has no room for a second thread. -/
def oneThread (i : Nat) : Creation := if i = 0 then ⟨0, 1, by decide⟩ else ⟨11, 1, by decide⟩

theorem run_start_one :
    ∃ s t : LoopPool, s.loops = [some 0] ∧ (s.threads 0).func = .loop ∧ t.loops.length = 1 ∧
      (t.threads 1).thread.creator = .wait := by
  have hexec : ∃ s : LoopPool, exec (checked (step 2 oneThread) fun _ _ => True) new (List.replicate 3 .start ++
      List.replicate 5 (.thread 0) ++ List.replicate 4 .start ++ List.replicate 5 (.thread 0) ++
        List.replicate 5 .start) = some s ∧ s.loops.length = 1 ∧
          ∃ t, exec (checked (step 2 oneThread) fun _ a => a.goesOn = true) s (List.replicate 5 .start) =
            some t ∧ t.loops.length = 1 ∧ ∀ a : LoopPoolStep, a.goesOn → t.step 2 oneThread a = none := by
    refine ⟨_, rfl, rfl, _, rfl, rfl, fun a ha => ?_⟩
    match a with
    | .start => rfl
    | .thread 0 => rfl
    | .thread 1 => rfl
    | .thread (_ + 2) => rfl
  obtain ⟨s, hs, hone, t, ht, hlength, hend⟩ := hexec
  obtain ⟨hloops, hruns, -, hsettled⟩ := run_start (run_of_exec_checked hs) (run_of_exec_checked ht)
  have hstuck := ((hsettled hend).resolve_left (by omega)).2.2
  rw [hlength] at hstuck
  exact ⟨s, t, by rw [hloops, hone]; rfl, (hruns 0 (by omega)).2, hlength, hstuck⟩

end LoopPool

end WebServer
