import WebServer.LoopWakeup

/-! `EventLoopThread`: the thread that makes an `EventLoop`, publishes it and runs it, the thread that
started it and the others that call `quit`. The loop clears `m_quit` once, at the head of `loop`, which
is after it was published; a request that comes before is forgotten. -/

namespace WebServer

open Runs

/-- Where `threadFunc` is. -/
inductive ThreadFuncPc where
  | unstarted
  /-- Before `m_loop` is set. -/
  | starting
  /-- About to call `loop`, or in it. -/
  | looping
  | finished
  deriving DecidableEq

/-- Where the thread is that has the `EventLoopThread`. -/
inductive StarterPc where
  | idle
  /-- In `startLoop`. -/
  | waiting
  /-- Behind `startLoop`. -/
  | started
  /-- In the destructor, which the thread `tid` runs, at `join`. -/
  | joining (tid : Nat)
  | gone
  deriving DecidableEq

/-- `EventLoopThread`, with the loop that `m_loop` points to. -/
structure EventLoopThread (ι : Type) where
  loop : Option (EventLoop ι)
  exiting : Bool
  thread : ThreadFuncPc
  starter : StarterPc

inductive ThreadStep (ι : Type) where
  | startLoop
  /-- `threadFunc` makes the loop and publishes it. -/
  | publish (wakeupFd : Nat)
  | startReturns
  /-- A step of the loop thread in `loop`, or of a thread that has the loop from `startLoop`. -/
  | loop (a : LoopStep ι)
  /-- `loop` has returned. -/
  | loopReturns
  /-- The thread `tid` runs the destructor. -/
  | destroy (tid : Nat)
  | join
  deriving DecidableEq

namespace EventLoopThread

variable {ι : Type}

/-- After the constructor. -/
def created : EventLoopThread ι := ⟨none, false, .unstarted, .idle⟩

/-- The step is one of a thread that `startLoop` has given the loop. -/
def isForeign : LoopStep ι → Bool
  | .foreignQueue _ _ | .foreignQuit _ | .foreignWakeup _ => true
  | .advance | .epollReturns _ | .queueInLoop _ | .queueEnds | .quit | .callReturns => false

/-- A step of the loop that `m_loop` points to. -/
def stepLoop (s : EventLoopThread ι) (a : LoopStep ι) : Option (EventLoopThread ι) :=
  s.loop.bind fun l => (l.step a).map fun l' => { s with loop := some l' }

def step (s : EventLoopThread ι) : ThreadStep ι → Option (EventLoopThread ι)
  | .startLoop =>
      if s.starter = .idle ∧ s.thread = .unstarted then
        some { s with starter := .waiting, thread := .starting }
      else none
  | .publish wakeupFd =>
      if s.thread = .starting then
        some { s with loop := some (EventLoop.created wakeupFd), thread := .looping }
      else none
  | .startReturns =>
      if s.starter = .waiting ∧ s.loop.isSome then some { s with starter := .started } else none
  | .loop a =>
      if isForeign a ∧ (s.starter = .idle ∨ s.starter = .waiting) then none else s.stepLoop a
  | .loopReturns =>
      match s.loop with
      | some l => if l.pc = .exited then some { s with loop := none, thread := .finished } else none
      | none => none
  | .destroy tid =>
      if s.starter = .started then
        match s.loop with
        | some _ => stepLoop { s with exiting := true, starter := .joining tid } (.foreignQuit tid)
        | none => some { s with exiting := true, starter := .gone }
      else none
  | .join =>
      match s.starter with
      | .joining _ => if s.thread = .finished then some { s with starter := .gone } else none
      | .idle | .waiting | .started | .gone => none

/-- The step is a call of `quit` on another thread. -/
def Quits : ThreadStep ι → Prop
  | .loop a => ∃ tid, a = .foreignQuit tid
  | .destroy _ => True
  | .startLoop => False
  | .publish _ => False
  | .startReturns => False
  | .loopReturns => False
  | .join => False

end EventLoopThread

namespace EventLoop

variable {ι : Type} {s s' : EventLoop ι}

/-- `loop` was entered, and `m_quit` is set. -/
def Quitting (s : EventLoop ι) : Prop := s.pc ≠ .start ∧ s.quit = true

theorem updatePoller_frame (s : EventLoop ι) :
    s.updatePoller.quit = s.quit ∧ s.updatePoller.pc = s.pc := by
  unfold updatePoller
  rcases s.wakeupChannel.equalAndUpdateLastEvents with ⟨same, ch⟩
  cases same <;> exact ⟨rfl, rfl⟩

theorem handleWakeup_frame (s : EventLoop ι) :
    s.handleWakeup.quit = s.quit ∧ s.handleWakeup.pc = s.pc := by
  unfold handleWakeup handleEvents
  split_ifs
  all_goals
    first
    | exact ⟨rfl, rfl⟩
    | exact updatePoller_frame _

theorem advance_quitting (hs : s.Quitting) (hstep : s.advance = some s') : s'.Quitting := by
  obtain ⟨hpc, hquit⟩ := hs
  cases advance_cases hstep with
  | start hstart => exact absurd hstart hpc
  | test =>
      refine ⟨?_, hquit⟩
      by_cases h : s.quit <;> simp [h]
  | wakeup =>
      obtain ⟨hsame, hpc'⟩ := handleWakeup_frame s
      exact ⟨fun h => hpc (hpc'.symm.trans h), hsame.trans hquit⟩
  | handled | other | enter | swap | called | call | leave | expire => exact ⟨by simp, hquit⟩

/-- Behind the head of `loop` no step clears `m_quit`. -/
theorem step_quitting {a : LoopStep ι} (hs : s.Quitting) (hstep : s.step a = some s') : s'.Quitting := by
  obtain ⟨hpc, hquit⟩ := id hs
  cases a with
  | advance => exact advance_quitting hs hstep
  | epollReturns events =>
      simp only [step, epollReturns, getEventsReqeust] at hstep
      split_ifs at hstep
      all_goals
        cases hstep
        exact ⟨by simp, hquit⟩
  | queueInLoop f =>
      obtain ⟨-, rfl⟩ | ⟨-, rfl⟩ := queueInLoop_cases hstep
      · exact ⟨by simp, hquit⟩
      · exact ⟨by simp, hquit⟩
  | queueEnds =>
      obtain ⟨-, rfl⟩ | ⟨-, rfl⟩ := queueEnds_cases hstep
      · exact ⟨by simp, by split_ifs <;> exact hquit⟩
      · exact ⟨by simp, by split_ifs <;> exact hquit⟩
  | quit =>
      obtain ⟨-, rfl⟩ := quit_cases hstep
      exact ⟨hpc, rfl⟩
  | callReturns =>
      obtain ⟨-, rfl⟩ | ⟨-, rfl⟩ := callReturns_cases hstep
      · exact ⟨by simp, hquit⟩
      · exact ⟨by simp, hquit⟩
  | foreignQueue tid f =>
      obtain ⟨-, rfl⟩ := foreignQueue_cases hstep
      exact ⟨hpc, hquit⟩
  | foreignQuit tid =>
      obtain ⟨-, rfl⟩ := foreignQuit_cases hstep
      exact ⟨hpc, rfl⟩
  | foreignWakeup tid =>
      obtain ⟨-, rfl⟩ := foreignWakeup_cases hstep
      exact ⟨hpc, hquit⟩

/-- A loop that is to quit leaves at its next test. -/
theorem Quitting.leaves (hs : s.Quitting) (htest : s.pc = .test) :
    ∃ s', s.step .advance = some s' ∧ s'.pc = .exited := by
  refine ⟨_, by simp only [step, advance, htest]; rfl, ?_⟩
  simp [hs.2]

/-- The head of `loop` clears `m_quit`. -/
theorem advance_start (hstart : s.pc = .start) :
    s.step .advance = some { s with quit := false, ready := [], pc := .test } := by
  simp only [step, advance, hstart]

theorem foreignQuit_eq {tid : Nat} (hstep : s.step (.foreignQuit tid) = some s') :
    s'.quit = true ∧ s'.pc = s.pc := by
  obtain ⟨-, rfl⟩ := foreignQuit_cases hstep
  exact ⟨rfl, rfl⟩

end EventLoop

namespace EventLoopThread

variable {ι : Type} {s t : EventLoopThread ι} {l : EventLoop ι}

/-- The loop is there just while its thread is in `loop`. -/
def Published (s : EventLoopThread ι) : Prop := s.loop.isSome ↔ s.thread = .looping

/-- Once a request was made, the loop, while there is one, is behind its head and is to quit. -/
def Requested (s : EventLoopThread ι) : Prop :=
  (s.thread = .looping ∨ s.thread = .finished) ∧ ∀ l, s.loop = some l → l.Quitting

theorem stepLoop_eq_some {a : LoopStep ι} (hstep : s.stepLoop a = some t) :
    ∃ l l', s.loop = some l ∧ l.step a = some l' ∧ t = { s with loop := some l' } := by
  obtain ⟨l, hl, hmap⟩ := Option.bind_eq_some_iff.mp hstep
  obtain ⟨l', hl', rfl⟩ := Option.map_eq_some_iff.mp hmap
  exact ⟨l, l', hl, hl', rfl⟩

/-- What a step can do to the loop and its thread. -/
theorem step_cases {a : ThreadStep ι} (hstep : s.step a = some t) :
    (t.loop = s.loop ∧ t.thread = s.thread) ∨
    (t.loop = s.loop ∧ s.thread = .unstarted ∧ t.thread = .starting) ∨
    (s.thread = .starting ∧ t.thread = .looping ∧ t.loop.isSome) ∨
    (t.thread = s.thread ∧ ∃ l l' b, s.loop = some l ∧ l.step b = some l' ∧ t.loop = some l') ∨
    (t.loop = none ∧ t.thread = .finished) := by
  have hloop {r u : EventLoopThread ι} {b : LoopStep ι} (h : r.stepLoop b = some u) :
      u.thread = r.thread ∧ ∃ l l' b, r.loop = some l ∧ l.step b = some l' ∧ u.loop = some l' := by
    obtain ⟨l, l', hl, hl', rfl⟩ := stepLoop_eq_some h
    exact ⟨rfl, l, l', b, hl, hl', rfl⟩
  cases a with
  | startLoop =>
      simp only [step] at hstep
      split_ifs at hstep with hidle
      cases hstep
      exact Or.inr (Or.inl ⟨rfl, hidle.2, rfl⟩)
  | publish wakeupFd =>
      simp only [step] at hstep
      split_ifs at hstep with hstarting
      cases hstep
      exact Or.inr (Or.inr (Or.inl ⟨hstarting, rfl, rfl⟩))
  | startReturns =>
      simp only [step] at hstep
      split_ifs at hstep
      cases hstep
      exact Or.inl ⟨rfl, rfl⟩
  | loop b =>
      simp only [step] at hstep
      split_ifs at hstep
      exact Or.inr (Or.inr (Or.inr (Or.inl (hloop hstep))))
  | loopReturns =>
      simp only [step] at hstep
      split at hstep
      · split_ifs at hstep
        cases hstep
        exact Or.inr (Or.inr (Or.inr (Or.inr ⟨rfl, rfl⟩)))
      · cases hstep
  | destroy tid =>
      simp only [step] at hstep
      split_ifs at hstep
      split at hstep
      · exact Or.inr (Or.inr (Or.inr (Or.inl (hloop (r := { s with exiting := true, starter := _ }) hstep))))
      · cases hstep
        exact Or.inl ⟨rfl, rfl⟩
  | join =>
      simp only [step] at hstep
      split at hstep
      · split_ifs at hstep
        cases hstep
        exact Or.inl ⟨rfl, rfl⟩
      all_goals cases hstep

theorem step_published {a : ThreadStep ι} (hs : s.Published) (hstep : s.step a = some t) :
    t.Published := by
  unfold Published at hs ⊢
  rcases step_cases hstep with ⟨hloop, hthread⟩ | ⟨hloop, hold, hnew⟩ | ⟨-, hnew, hloop⟩ |
    ⟨hthread, l, l', -, hl, -, hl'⟩ | ⟨hloop, hnew⟩
  · rwa [hloop, hthread]
  · rw [hold] at hs
    rw [hloop, hnew]
    exact hs.trans (iff_of_false (by simp) (by simp))
  · exact iff_of_true hloop hnew
  · rw [hl', hthread]
    exact iff_of_true rfl (hs.mp (by rw [hl]; rfl))
  · rw [hloop, hnew]
    exact iff_of_false (by simp) (by simp)

theorem step_requested {a : ThreadStep ι} (hs : s.Requested) (hstep : s.step a = some t) :
    t.Requested := by
  obtain ⟨hbehind, hquitting⟩ := hs
  rcases step_cases hstep with ⟨hloop, hthread⟩ | ⟨-, hold, -⟩ | ⟨hold, -, -⟩ |
    ⟨hthread, l, l', b, hl, hb, hl'⟩ | ⟨hloop, hnew⟩
  · exact ⟨by rwa [hthread], by rwa [hloop]⟩
  · rcases hbehind with h | h <;> rw [hold] at h <;> cases h
  · rcases hbehind with h | h <;> rw [hold] at h <;> cases h
  · refine ⟨by rwa [hthread], fun m hm => ?_⟩
    cases hl'.symm.trans hm
    exact EventLoop.step_quitting (hquitting l hl) hb
  · exact ⟨Or.inr hnew, fun m hm => by rw [hloop] at hm; cases hm⟩

/-- A request sets `m_quit` of the loop, and leaves the loop thread where it is. -/
theorem quits_eq {a : ThreadStep ι} (hquits : Quits a) (hloop : s.loop = some l)
    (hstep : s.step a = some t) :
    t.thread = s.thread ∧ ∃ l', t.loop = some l' ∧ l'.quit = true ∧ l'.pc = l.pc := by
  have hrequest {r : EventLoopThread ι} {tid : Nat} (hr : r.loop = some l)
      (hthread : r.thread = s.thread) (h : r.stepLoop (.foreignQuit tid) = some t) :
      t.thread = s.thread ∧ ∃ l', t.loop = some l' ∧ l'.quit = true ∧ l'.pc = l.pc := by
    obtain ⟨m, l', hm, hl', rfl⟩ := stepLoop_eq_some h
    cases hr.symm.trans hm
    exact ⟨hthread, l', rfl, EventLoop.foreignQuit_eq hl'⟩
  cases a with
  | loop b =>
      obtain ⟨tid, rfl⟩ := hquits
      simp only [step] at hstep
      split_ifs at hstep
      exact hrequest hloop rfl hstep
  | destroy tid =>
      simp only [step, hloop] at hstep
      split_ifs at hstep
      exact hrequest (r := ⟨some l, true, s.thread, .joining tid⟩) rfl rfl hstep
  | startLoop | publish _ | startReturns | loopReturns | join => exact hquits.elim

/-- **The request to quit.** Whatever the threads do after a request, `m_quit` stays set while there is
the loop, which leaves at its next test, if and only if the request came behind the head of `loop`. -/
theorem quit_kept_iff {as : List (ThreadStep ι)} {a : ThreadStep ι}
    (hrun : Run step (fun _ _ => True) created as s) (hquits : Quits a) (hloop : s.loop = some l)
    (hstep : s.step a = some t) :
    (∀ bs u m, Run step (fun _ _ => True) t bs u → u.loop = some m → m.quit = true ∧
      (m.pc = .test → ∃ m', m.step .advance = some m' ∧ m'.pc = .exited)) ↔ l.pc ≠ .start := by
  have hpublished : s.Published := hrun.invariant (fun _ _ _ _ hstep hs => step_published hs hstep)
    (iff_of_false (fun h => by cases h) (fun h => by cases h))
  have hlooping : s.thread = .looping := hpublished.mp (by rw [hloop]; rfl)
  obtain ⟨hthread, l', hl', hquit, hpc⟩ := quits_eq hquits hloop hstep
  constructor
  · intro hkept hstart
    -- the loop thread goes on to the head of `loop`
    have hforgets : t.step (.loop .advance) =
        some { t with loop := some { l' with quit := false, ready := [], pc := .test } } := by
      simp only [step, isForeign, stepLoop, hl', Option.bind_some,
        EventLoop.advance_start (hpc.trans hstart)]
      rfl
    have hlost := (hkept [.loop .advance] _ _ (.cons trivial hforgets (.nil _)) rfl).1
    cases hlost
  · intro hbehind bs u m hrest hm
    have hrequested : t.Requested := by
      refine ⟨Or.inl (hthread.trans hlooping), fun m hm => ?_⟩
      cases hl'.symm.trans hm
      exact ⟨fun h => hbehind (hpc.symm.trans h), hquit⟩
    have hu : u.Requested := hrest.invariant (fun _ _ _ _ hstep hs => step_requested hs hstep) hrequested
    exact ⟨(hu.2 m hm).2, (hu.2 m hm).leaves⟩

/-- A request while the loop is about to call `epoll_wait`. -/
theorem quit_kept_at_poll :
    ∃ (s t : EventLoopThread Nat), s.step (.loop (.foreignQuit 7)) = some t ∧
      ∀ bs u m, Run step (fun _ _ => True) t bs u → u.loop = some m → m.quit = true ∧
        (m.pc = .test → ∃ m', m.step .advance = some m' ∧ m'.pc = .exited) := by
  have hexec : ∃ s t : EventLoopThread Nat, exec (checked step fun _ _ => True) created
      [.startLoop, .publish 5, .startReturns, .loop .advance, .loop .advance] = some s ∧
        (∃ l, s.loop = some l ∧ l.pc = .poll) ∧ s.step (.loop (.foreignQuit 7)) = some t :=
    ⟨_, _, rfl, ⟨_, rfl, rfl⟩, rfl⟩
  obtain ⟨s, t, hs, ⟨l, hloop, hpc⟩, hstep⟩ := hexec
  have hquits : Quits (.loop (.foreignQuit 7 : LoopStep Nat)) := ⟨7, rfl⟩
  exact ⟨s, t, hstep, (quit_kept_iff (run_of_exec_checked hs) hquits hloop hstep).mpr (by simp [hpc])⟩

/-- A request right after `startLoop` has returned, before the thread comes to the head of `loop`. -/
theorem quit_forgotten :
    ∃ (as bs : List (ThreadStep Nat)) (s t u : EventLoopThread Nat) (m : EventLoop Nat),
      Run step (fun _ _ => True) created as s ∧ s.step (.loop (.foreignQuit 7)) = some t ∧
        Run step (fun _ _ => True) t bs u ∧ u.loop = some m ∧ m.pc = .test ∧ m.quit = false := by
  have hexec : ∃ s t u : EventLoopThread Nat, exec (checked step fun _ _ => True) created
      [.startLoop, .publish 5, .startReturns] = some s ∧ s.step (.loop (.foreignQuit 7)) = some t ∧
        exec (checked step fun _ _ => True) t [.loop .advance] = some u ∧
          ∃ m, u.loop = some m ∧ m.pc = .test ∧ m.quit = false :=
    ⟨_, _, _, rfl, rfl, rfl, _, rfl, rfl, rfl⟩
  obtain ⟨s, t, u, hs, ht, hu, m, hm⟩ := hexec
  exact ⟨_, _, s, t, u, m, run_of_exec_checked hs, ht, run_of_exec_checked hu, hm⟩

end EventLoopThread

end WebServer
