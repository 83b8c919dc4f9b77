import WebServer.RunsFifo
import WebServer.ChannelEvents

/-! `EventLoop`: the loop thread, the threads that queue functors, and the `eventfd` that wakes the
loop up, as one machine. `queueInLoop` is two steps, the push under the lock and the `wakeup` after it,
on the loop thread as on the others. A write to the `eventfd` adds to its counter and puts the
descriptor on the ready list of the poller; the poller delivers it only while the counter is positive. -/

namespace WebServer

open Runs Fifo

/-- Where the loop thread is. -/
inductive LoopPc where
  /-- Before `loop`. -/
  | start
  /-- At the test of `m_quit`. -/
  | test
  /-- About to call `epoll_wait`. -/
  | poll
  /-- In the loop over the channels that are ready. -/
  | dispatch
  /-- In a handler of another channel. -/
  | handler
  /-- In a call of `queueInLoop` from there, behind the push. -/
  | handlerQueued
  /-- At the head of `doPendingFunctors`. -/
  | enter
  | swap
  /-- In the loop over the functors. -/
  | next
  | functor
  | functorQueued
  /-- At the end of `doPendingFunctors`. -/
  | leave
  | expire
  | exited
  deriving DecidableEq

/-- Where another thread is. -/
inductive ForeignPc where
  | idle
  /-- In `queueInLoop`, between the push and the wakeup. -/
  | pushed
  /-- In `quit`, before the wakeup. -/
  | quitting
  deriving DecidableEq

/-- A channel that `epoll_wait` reports. -/
inductive Ready where
  | wakeup
  | other
  deriving DecidableEq

/-- `EventLoop`, the locals of `loop` and `doPendingFunctors`, the threads, and the kernel's side of
`m_wakeupFd`. -/
structure EventLoop (ι : Type) where
  pendingFunctors : List ι
  callingPendingFunctors : Bool
  quit : Bool
  wakeupChannel : Channel
  /-- The functors swapped out and not yet called. -/
  functors : List ι
  /-- The functors called so far. -/
  ran : List ι
  /-- The channels reported and not yet handled. -/
  ready : List Ready
  pc : LoopPc
  foreign : Nat → ForeignPc
  counter : Nat
  /-- `m_wakeupFd` is on the ready list. -/
  edge : Bool
  /-- The events `m_wakeupFd` is registered for. -/
  interest : EventMask

namespace EventLoop

variable {ι : Type}

def wakeupEvents : EventMask := EPOLLIN ||| EPOLLET

/-- After the constructor, which adds the channel to the poller. -/
def created (wakeupFd : Nat) : EventLoop ι where
  pendingFunctors := []
  callingPendingFunctors := false
  quit := false
  wakeupChannel := ⟨wakeupFd, wakeupEvents, 0, wakeupEvents⟩
  functors := []
  ran := []
  ready := []
  pc := .start
  foreign := fun _ => .idle
  counter := 0
  edge := false
  interest := wakeupEvents

/-- An event of `m_wakeupFd` that the next `epoll_wait` returns with. -/
def WakeupPending (s : EventLoop ι) : Prop :=
  s.edge = true ∧ 0 < s.counter ∧ s.interest.has EPOLLIN

instance (s : EventLoop ι) : Decidable s.WakeupPending := inferInstanceAs (Decidable (_ ∧ _ ∧ _))

/-- `EventLoop::wakeup`. -/
def wakeup (s : EventLoop ι) : EventLoop ι := { s with counter := s.counter + 1, edge := true }

/-- `EventLoop::handleRead`. -/
def handleRead (s : EventLoop ι) : EventLoop ι :=
  { s with counter := 0, wakeupChannel.events := wakeupEvents }

/-- `Epoll::epoll_mod` of the wakeup channel: a call of `epoll_ctl` looks at the counter again. -/
def updatePoller (s : EventLoop ι) : EventLoop ι :=
  let (same, ch) := s.wakeupChannel.equalAndUpdateLastEvents
  if same then { s with wakeupChannel := ch }
  else { s with wakeupChannel := ch, interest := ch.events, edge := s.edge || decide (0 < s.counter) }

/-- `EventLoop::handleConn`. -/
def handleConn (s : EventLoop ι) : EventLoop ι := s.updatePoller

/-- `handleEvents` of the wakeup channel, which has no write handler. -/
def handleWakeup (s : EventLoop ι) : EventLoop ι :=
  Id.run (handleEvents (m := Id) s.wakeupChannel.revents (fun s => { s with wakeupChannel.events := 0 })
    handleRead id handleConn s)

/-- `Epoll::getEventsReqeust` on the channels reported, those of them that are still in the table. -/
def getEventsReqeust (s : EventLoop ι) (events : List Ready) : EventLoop ι :=
  if .wakeup ∈ events then
    { s with
      ready := events
      edge := false
      wakeupChannel := { s.wakeupChannel with revents := EPOLLIN, events := 0 } }
  else { s with ready := events }

/-- The next step of the loop thread, where it depends on nothing else. -/
def advance (s : EventLoop ι) : Option (EventLoop ι) :=
  match s.pc with
  | .start => some { s with quit := false, ready := [], pc := .test }
  | .test => some { s with ready := [], pc := if s.quit then .exited else .poll }
  | .dispatch =>
      match s.ready with
      | [] => some { s with pc := .enter }
      | .wakeup :: rest => some { s.handleWakeup with ready := rest }
      | .other :: rest => some { s with ready := rest, pc := .handler }
  | .enter => some { s with callingPendingFunctors := true, pc := .swap }
  | .swap => some { s with functors := s.pendingFunctors, pendingFunctors := [], pc := .next }
  | .next =>
      match s.functors with
      | [] => some { s with pc := .leave }
      | f :: rest => some { s with functors := rest, ran := s.ran ++ [f], pc := .functor }
  | .leave => some { s with callingPendingFunctors := false, pc := .expire }
  | .expire => some { s with pc := .test }
  | _ => none

/-- `epoll_wait` returns, and `poll` with it unless no channel is left of the batch. -/
def epollReturns (s : EventLoop ι) (events : List Ready) : Option (EventLoop ι) :=
  if s.pc = .poll ∧ events.count .wakeup ≤ 1 ∧ (.wakeup ∈ events → s.WakeupPending) then
    some { s.getEventsReqeust events with pc := if events = [] then .poll else .dispatch }
  else none

/-- The push of `queueInLoop`. -/
def push (s : EventLoop ι) (f : ι) : EventLoop ι :=
  { s with pendingFunctors := s.pendingFunctors ++ [f] }

/-- The loop thread calls `queueInLoop`, from a handler or a functor. -/
def queueInLoop (s : EventLoop ι) (f : ι) : Option (EventLoop ι) :=
  match s.pc with
  | .handler => some { s.push f with pc := .handlerQueued }
  | .functor => some { s.push f with pc := .functorQueued }
  | _ => none

/-- The end of `queueInLoop` on the loop thread: it wakes itself up only while functors are called. -/
def queueEnds (s : EventLoop ι) : Option (EventLoop ι) :=
  let woken := if s.callingPendingFunctors then s.wakeup else s
  match s.pc with
  | .handlerQueued => some { woken with pc := .handler }
  | .functorQueued => some { woken with pc := .functor }
  | _ => none

/-- A handler or functor returns. -/
def callReturns (s : EventLoop ι) : Option (EventLoop ι) :=
  match s.pc with
  | .handler => some { s with pc := .dispatch }
  | .functor => some { s with pc := .next }
  | _ => none

def setForeign (s : EventLoop ι) (tid : Nat) (pc : ForeignPc) : EventLoop ι :=
  { s with foreign := Function.update s.foreign tid pc }

end EventLoop

inductive LoopStep (ι : Type) where
  | advance
  | epollReturns (events : List Ready)
  | queueInLoop (f : ι)
  | queueEnds
  | quit
  | callReturns
  /-- Another thread calls `queueInLoop`. -/
  | foreignQueue (tid : Nat) (f : ι)
  /-- Another thread calls `quit`. -/
  | foreignQuit (tid : Nat)
  /-- The `wakeup` of another thread. -/
  | foreignWakeup (tid : Nat)
  deriving DecidableEq

namespace EventLoop

variable {ι : Type}

def step (s : EventLoop ι) : LoopStep ι → Option (EventLoop ι)
  | .advance => s.advance
  | .epollReturns events => s.epollReturns events
  | .queueInLoop f => s.queueInLoop f
  | .queueEnds => s.queueEnds
  | .quit => if s.pc = .handler ∨ s.pc = .functor then some { s with quit := true } else none
  | .callReturns => s.callReturns
  | .foreignQueue tid f =>
      if s.foreign tid = .idle then some ((s.push f).setForeign tid .pushed) else none
  | .foreignQuit tid =>
      if s.foreign tid = .idle then some ({ s with quit := true }.setForeign tid .quitting) else none
  | .foreignWakeup tid =>
      if s.foreign tid = .idle then none else some (s.wakeup.setForeign tid .idle)

end EventLoop

/-- The functors a step queues. -/
def LoopStep.queued {ι : Type} : LoopStep ι → List ι
  | .queueInLoop f => [f]
  | .foreignQueue _ f => [f]
  | _ => []

namespace EventLoop

variable {ι : Type} {s s' : EventLoop ι}

/-- What `advance` makes of `s`, by the place of the loop thread. -/
inductive Advances (s : EventLoop ι) : EventLoop ι → Prop where
  | start (hpc : s.pc = .start) : Advances s { s with quit := false, ready := [], pc := .test }
  | test (hpc : s.pc = .test) : Advances s { s with ready := [], pc := if s.quit then .exited else .poll }
  | handled (hpc : s.pc = .dispatch) (hready : s.ready = []) : Advances s { s with pc := .enter }
  | wakeup {rest : List Ready} (hpc : s.pc = .dispatch) (hready : s.ready = .wakeup :: rest) :
      Advances s { s.handleWakeup with ready := rest }
  | other {rest : List Ready} (hpc : s.pc = .dispatch) (hready : s.ready = .other :: rest) :
      Advances s { s with ready := rest, pc := .handler }
  | enter (hpc : s.pc = .enter) : Advances s { s with callingPendingFunctors := true, pc := .swap }
  | swap (hpc : s.pc = .swap) :
      Advances s { s with functors := s.pendingFunctors, pendingFunctors := [], pc := .next }
  | called (hpc : s.pc = .next) (hfunctors : s.functors = []) : Advances s { s with pc := .leave }
  | call {f : ι} {rest : List ι} (hpc : s.pc = .next) (hfunctors : s.functors = f :: rest) :
      Advances s { s with functors := rest, ran := s.ran ++ [f], pc := .functor }
  | leave (hpc : s.pc = .leave) : Advances s { s with callingPendingFunctors := false, pc := .expire }
  | expire (hpc : s.pc = .expire) : Advances s { s with pc := .test }

theorem advance_cases (hstep : s.advance = some s') : s.Advances s' := by
  unfold advance at hstep
  cases hpc : s.pc <;> simp only [hpc, reduceCtorEq, Option.some.injEq] at hstep
  case start => exact hstep ▸ .start hpc
  case test => exact hstep ▸ .test hpc
  case dispatch =>
      split at hstep
      case h_1 hready => exact Option.some.inj hstep ▸ .handled hpc hready
      case h_2 hready => exact Option.some.inj hstep ▸ .wakeup hpc hready
      case h_3 hready => exact Option.some.inj hstep ▸ .other hpc hready
  case enter => exact hstep ▸ .enter hpc
  case swap => exact hstep ▸ .swap hpc
  case next =>
      split at hstep
      case h_1 hfunctors => exact Option.some.inj hstep ▸ .called hpc hfunctors
      case h_2 hfunctors => exact Option.some.inj hstep ▸ .call hpc hfunctors
  case leave => exact hstep ▸ .leave hpc
  case expire => exact hstep ▸ .expire hpc

theorem queueInLoop_cases {f : ι} (hstep : s.queueInLoop f = some s') :
    (s.pc = .handler ∧ s' = { s.push f with pc := .handlerQueued }) ∨
      (s.pc = .functor ∧ s' = { s.push f with pc := .functorQueued }) := by
  unfold queueInLoop at hstep
  cases hpc : s.pc <;> simp only [hpc, reduceCtorEq, Option.some.injEq] at hstep
  case handler => exact Or.inl ⟨rfl, hstep.symm⟩
  case functor => exact Or.inr ⟨rfl, hstep.symm⟩

theorem queueEnds_cases (hstep : s.queueEnds = some s') :
    (s.pc = .handlerQueued ∧
        s' = { if s.callingPendingFunctors then s.wakeup else s with pc := .handler }) ∨
      (s.pc = .functorQueued ∧
        s' = { if s.callingPendingFunctors then s.wakeup else s with pc := .functor }) := by
  unfold queueEnds at hstep
  cases hpc : s.pc <;> simp only [hpc, reduceCtorEq, Option.some.injEq] at hstep
  case handlerQueued => exact Or.inl ⟨rfl, hstep.symm⟩
  case functorQueued => exact Or.inr ⟨rfl, hstep.symm⟩

theorem callReturns_cases (hstep : s.callReturns = some s') :
    (s.pc = .handler ∧ s' = { s with pc := .dispatch }) ∨ (s.pc = .functor ∧ s' = { s with pc := .next }) := by
  unfold callReturns at hstep
  cases hpc : s.pc <;> simp only [hpc, reduceCtorEq, Option.some.injEq] at hstep
  case handler => exact Or.inl ⟨rfl, hstep.symm⟩
  case functor => exact Or.inr ⟨rfl, hstep.symm⟩

theorem quit_cases (hstep : s.step .quit = some s') :
    (s.pc = .handler ∨ s.pc = .functor) ∧ s' = { s with quit := true } := by
  obtain ⟨hpc, heq⟩ := Option.ite_none_right_eq_some.mp hstep
  exact ⟨hpc, (Option.some.inj heq).symm⟩

theorem foreignQueue_cases {tid : Nat} {f : ι} (hstep : s.step (.foreignQueue tid f) = some s') :
    s.foreign tid = .idle ∧ s' = (s.push f).setForeign tid .pushed := by
  obtain ⟨hidle, heq⟩ := Option.ite_none_right_eq_some.mp hstep
  exact ⟨hidle, (Option.some.inj heq).symm⟩

theorem foreignQuit_cases {tid : Nat} (hstep : s.step (.foreignQuit tid) = some s') :
    s.foreign tid = .idle ∧ s' = { s with quit := true }.setForeign tid .quitting := by
  obtain ⟨hidle, heq⟩ := Option.ite_none_right_eq_some.mp hstep
  exact ⟨hidle, (Option.some.inj heq).symm⟩

theorem foreignWakeup_cases {tid : Nat} (hstep : s.step (.foreignWakeup tid) = some s') :
    s.foreign tid ≠ .idle ∧ s' = s.wakeup.setForeign tid .idle := by
  obtain ⟨hidle, heq⟩ := Option.ite_none_left_eq_some.mp hstep
  exact ⟨hidle, (Option.some.inj heq).symm⟩

/-! ### The invariant -/

/-- `doPendingFunctors` is behind its first assignment. -/
def Calling (pc : LoopPc) : Prop :=
  pc = .swap ∨ pc = .next ∨ pc = .functor ∨ pc = .functorQueued ∨ pc = .leave

/-- The functors that are pending are swapped out before the next call of `epoll_wait`. -/
def BeforeSwap (pc : LoopPc) : Prop :=
  pc = .dispatch ∨ pc = .handler ∨ pc = .handlerQueued ∨ pc = .enter ∨ pc = .swap

/-- The next call of `epoll_wait` returns, now or after a step some thread is about to make. -/
def Signalled (s : EventLoop ι) : Prop :=
  s.WakeupPending ∨ s.pc = .functorQueued ∨ ∃ tid, s.foreign tid = .pushed

structure Inv (s : EventLoop ι) : Prop where
  interest : s.interest = wakeupEvents
  lastEvents : s.wakeupChannel.lastEvents = wakeupEvents
  reported : .wakeup ∈ s.ready → s.wakeupChannel.revents = EPOLLIN
  calling : Calling s.pc → s.callingPendingFunctors = true
  functors : s.functors = [] ∨ s.pc = .next ∨ s.pc = .functor ∨ s.pc = .functorQueued
  signalled : s.pendingFunctors ≠ [] → BeforeSwap s.pc ∨ s.Signalled

theorem created_inv (wakeupFd : Nat) : (created wakeupFd : EventLoop ι).Inv where
  interest := rfl
  lastEvents := rfl
  reported := fun h => by cases h
  calling := fun h => by simp [Calling, created] at h
  functors := Or.inl rfl
  signalled := fun h => absurd rfl h

theorem wakeup_pending (hinterest : s.interest = wakeupEvents) : s.wakeup.WakeupPending :=
  ⟨rfl, Nat.succ_pos _, by simp only [wakeup, hinterest]; decide⟩

/-- The wakeup channel reads the counter, and is registered as before. -/
theorem handleWakeup_eq (hrevents : s.wakeupChannel.revents = EPOLLIN)
    (hlast : s.wakeupChannel.lastEvents = wakeupEvents) :
    s.handleWakeup = { s with
      counter := 0, wakeupChannel := { s.wakeupChannel with events := wakeupEvents } } := by
  have hhup : ¬ (EPOLLIN.has EPOLLHUP ∧ ¬ EPOLLIN.has EPOLLIN) := by decide
  have herr : ¬ EPOLLIN.has EPOLLERR := by decide
  have hin : EPOLLIN.has (EPOLLIN ||| EPOLLPRI ||| EPOLLRDHUP) := by decide
  have hout : ¬ EPOLLIN.has EPOLLOUT := by decide
  simp only [handleWakeup, handleEvents, hrevents, if_neg hhup, if_neg herr, if_pos hin, if_neg hout,
    handleRead, handleConn, updatePoller, Channel.equalAndUpdateLastEvents, hlast]
  rfl

theorem advance_inv (hs : s.Inv) (hstep : s.advance = some s') : s'.Inv := by
  obtain ⟨hinterest, hlast, hreported, hcalling, hfunctors, hsignalled⟩ := hs
  cases advance_cases hstep with
  | start hpc =>
      exact ⟨hinterest, hlast, by simp, by simp [Calling], by simpa [hpc] using hfunctors,
        by simpa [hpc, BeforeSwap, Signalled, WakeupPending] using hsignalled⟩
  | test hpc =>
      refine ⟨hinterest, hlast, by simp, ?_, ?_, ?_⟩
      · split_ifs <;> simp [Calling]
      · exact Or.inl (by simpa [hpc] using hfunctors)
      · split_ifs <;> simpa [hpc, BeforeSwap, Signalled, WakeupPending] using hsignalled
  | handled hpc hready =>
      exact ⟨hinterest, hlast, hreported, by simp [Calling], by simpa [hpc] using hfunctors,
        fun _ => Or.inl (by simp [BeforeSwap])⟩
  | wakeup hpc hready =>
      have hrevents := hreported (by simp [hready])
      rw [handleWakeup_eq hrevents hlast]
      exact ⟨hinterest, hlast, fun _ => hrevents, by simp [hpc, Calling], by simpa [hpc] using hfunctors,
        fun _ => Or.inl (by simp [hpc, BeforeSwap])⟩
  | other hpc hready =>
      exact ⟨hinterest, hlast, fun h => hreported (by simp [hready, h]), by simp [Calling],
        by simpa [hpc] using hfunctors, fun _ => Or.inl (by simp [BeforeSwap])⟩
  | enter hpc =>
      exact ⟨hinterest, hlast, hreported, fun _ => rfl, by simpa [hpc] using hfunctors,
        fun _ => Or.inl (by simp [BeforeSwap])⟩
  | swap hpc =>
      exact ⟨hinterest, hlast, hreported, fun _ => hcalling (by simp [hpc, Calling]),
        Or.inr (Or.inl rfl), fun h => absurd rfl h⟩
  | called hpc hnone =>
      exact ⟨hinterest, hlast, hreported, fun _ => hcalling (by simp [hpc, Calling]), Or.inl hnone,
        by simpa [hpc, BeforeSwap, Signalled, WakeupPending] using hsignalled⟩
  | call hpc hfirst =>
      exact ⟨hinterest, hlast, hreported, fun _ => hcalling (by simp [hpc, Calling]),
        Or.inr (Or.inr (Or.inl rfl)),
        by simpa [hpc, BeforeSwap, Signalled, WakeupPending] using hsignalled⟩
  | leave hpc =>
      exact ⟨hinterest, hlast, hreported, by simp [Calling], by simpa [hpc] using hfunctors,
        by simpa [hpc, BeforeSwap, Signalled, WakeupPending] using hsignalled⟩
  | expire hpc =>
      exact ⟨hinterest, hlast, hreported, by simp [Calling], by simpa [hpc] using hfunctors,
        by simpa [hpc, BeforeSwap, Signalled, WakeupPending] using hsignalled⟩

theorem epollReturns_inv {events : List Ready} (hs : s.Inv) (hstep : s.epollReturns events = some s') :
    s'.Inv := by
  obtain ⟨hinterest, hlast, -, hcalling, hfunctors, hsignalled⟩ := hs
  simp only [epollReturns, Option.ite_none_right_eq_some, Option.some.injEq] at hstep
  obtain ⟨⟨hpc, -, -⟩, rfl⟩ := hstep
  have hempty : s.functors = [] := by simpa [hpc] using hfunctors
  unfold getEventsReqeust
  split_ifs with hwakeup hnil
  · rw [hnil] at hwakeup
    cases hwakeup
  · exact ⟨hinterest, hlast, fun _ => rfl, by simp [Calling], Or.inl hempty,
      fun _ => Or.inl (by simp [BeforeSwap])⟩
  · exact ⟨hinterest, hlast, fun h => absurd h hwakeup, by simp [Calling], Or.inl hempty,
      fun h => by simpa [hpc, BeforeSwap, Signalled, WakeupPending] using hsignalled h⟩
  · exact ⟨hinterest, hlast, fun h => absurd h hwakeup, by simp [Calling], Or.inl hempty,
      fun _ => Or.inl (by simp [BeforeSwap])⟩

theorem queueInLoop_inv {f : ι} (hs : s.Inv) (hstep : s.queueInLoop f = some s') : s'.Inv := by
  obtain ⟨hinterest, hlast, hreported, hcalling, hfunctors, hsignalled⟩ := hs
  obtain ⟨hpc, rfl⟩ | ⟨hpc, rfl⟩ := queueInLoop_cases hstep
  · have hempty : s.functors = [] := by simpa [hpc] using hfunctors
    exact ⟨hinterest, hlast, hreported, by simp [Calling], Or.inl hempty,
      fun _ => Or.inl (by simp [BeforeSwap])⟩
  · exact ⟨hinterest, hlast, hreported, fun _ => hcalling (by simp [hpc, Calling]),
      Or.inr (Or.inr (Or.inr rfl)), fun _ => Or.inr (Or.inr (Or.inl rfl))⟩

theorem queueEnds_inv (hs : s.Inv) (hstep : s.queueEnds = some s') : s'.Inv := by
  obtain ⟨hinterest, hlast, hreported, hcalling, hfunctors, hsignalled⟩ := hs
  obtain ⟨hpc, rfl⟩ | ⟨hpc, rfl⟩ := queueEnds_cases hstep
  · have hempty : s.functors = [] := by simpa [hpc] using hfunctors
    split_ifs <;>
      exact ⟨hinterest, hlast, hreported, by simp [Calling], Or.inl hempty,
        fun _ => Or.inl (by simp [BeforeSwap])⟩
  · -- while functors are called the loop thread wakes itself up
    have hcall := hcalling (by simp [hpc, Calling])
    rw [if_pos hcall]
    exact ⟨hinterest, hlast, hreported, fun _ => hcall, Or.inr (Or.inr (Or.inl rfl)),
      fun _ => Or.inr (Or.inl (wakeup_pending hinterest))⟩

theorem callReturns_inv (hs : s.Inv) (hstep : s.callReturns = some s') : s'.Inv := by
  obtain ⟨hinterest, hlast, hreported, hcalling, hfunctors, hsignalled⟩ := hs
  obtain ⟨hpc, rfl⟩ | ⟨hpc, rfl⟩ := callReturns_cases hstep
  · exact ⟨hinterest, hlast, hreported, by simp [Calling], by simpa [hpc] using hfunctors,
      fun _ => Or.inl (by simp [BeforeSwap])⟩
  · exact ⟨hinterest, hlast, hreported, fun _ => hcalling (by simp [hpc, Calling]),
      Or.inr (Or.inl rfl),
      fun h => by simpa [hpc, BeforeSwap, Signalled, WakeupPending] using hsignalled h⟩

theorem step_inv {a : LoopStep ι} (hs : s.Inv) (hstep : s.step a = some s') : s'.Inv := by
  cases a with
  | advance => exact advance_inv hs hstep
  | epollReturns events => exact epollReturns_inv hs hstep
  | queueInLoop f => exact queueInLoop_inv hs hstep
  | queueEnds => exact queueEnds_inv hs hstep
  | callReturns => exact callReturns_inv hs hstep
  | quit =>
      obtain ⟨-, rfl⟩ := quit_cases hstep
      exact { hs with }
  | foreignQueue tid f =>
      obtain ⟨-, rfl⟩ := foreignQueue_cases hstep
      exact { hs with
        signalled := fun _ => Or.inr (Or.inr (Or.inr ⟨tid, Function.update_self _ _ _⟩)) }
  | foreignQuit tid =>
      obtain ⟨hidle, rfl⟩ := foreignQuit_cases hstep
      refine { hs with signalled := fun h => (hs.signalled h).imp_right ?_ }
      rintro (hwakeup | hqueued | ⟨tid', hpushed⟩)
      · exact Or.inl hwakeup
      · exact Or.inr (Or.inl hqueued)
      · refine Or.inr (Or.inr ⟨tid', ?_⟩)
        have hne : tid' ≠ tid := by
          rintro rfl
          rw [hidle] at hpushed
          cases hpushed
        exact (Function.update_of_ne hne _ _).trans hpushed
  | foreignWakeup tid =>
      obtain ⟨-, rfl⟩ := foreignWakeup_cases hstep
      exact { hs with
        signalled := fun _ => Or.inr (Or.inl (wakeup_pending hs.interest)) }

/-- The functors called, and those to be called. -/
def view (s : EventLoop ι) : Transfer ι := ⟨s.ran, s.functors ++ s.pendingFunctors⟩

theorem advance_view (hs : s.Inv) (hstep : s.advance = some s') : ∃ n, s'.view = s.view.take n := by
  have hsame : s'.view = s.view → ∃ n, s'.view = s.view.take n := fun h =>
    ⟨0, by rw [h, Transfer.take_zero]⟩
  cases advance_cases hstep with
  | start | test | handled | other | enter | called | leave | expire => exact hsame rfl
  | wakeup hpc hready =>
      apply hsame
      rw [handleWakeup_eq (hs.reported (by simp [hready])) hs.lastEvents]
      rfl
  | swap hpc =>
      have hempty : s.functors = [] := by simpa [hpc] using hs.functors
      exact hsame (by simp only [view, hempty, List.append_nil, List.nil_append])
  | call hpc hfirst => exact ⟨1, by simp [view, hfirst, Transfer.take]⟩

/-- **The queue of functors is a transfer**: `queueInLoop` puts a functor at its end, the loop thread
takes the first one when it calls it. -/
theorem step_refines : Refines step (fun s (_ : LoopStep ι) => s.Inv) view LoopStep.queued := by
  intro s a s' hs hstep
  have hsame : s'.view = s.view → LoopStep.queued a = [] →
      ∃ n, s'.view = (s.view.put a.queued).take n := fun h hnil =>
    ⟨0, by rw [h, hnil, Transfer.put_nil, Transfer.take_zero]⟩
  have hpush (f : ι) : s'.view = (s.push f).view → LoopStep.queued a = [f] →
      ∃ n, s'.view = (s.view.put a.queued).take n := fun h hone =>
    ⟨0, by rw [h, hone, Transfer.take_zero]; simp only [view, push, Transfer.put, List.append_assoc]⟩
  cases a with
  | advance =>
      obtain ⟨n, hn⟩ := advance_view hs hstep
      exact ⟨n, by rw [hn, show (LoopStep.advance : LoopStep ι).queued = [] from rfl, Transfer.put_nil]⟩
  | epollReturns events =>
      simp only [step, epollReturns, Option.ite_none_right_eq_some, Option.some.injEq] at hstep
      obtain ⟨-, rfl⟩ := hstep
      refine hsame ?_ rfl
      unfold getEventsReqeust
      split_ifs <;> rfl
  | queueInLoop f =>
      obtain ⟨-, rfl⟩ | ⟨-, rfl⟩ := queueInLoop_cases hstep
      · exact hpush f rfl rfl
      · exact hpush f rfl rfl
  | queueEnds =>
      refine hsame ?_ rfl
      obtain ⟨-, rfl⟩ | ⟨-, rfl⟩ := queueEnds_cases hstep
      · split_ifs <;> rfl
      · split_ifs <;> rfl
  | quit =>
      obtain ⟨-, rfl⟩ := quit_cases hstep
      exact hsame rfl rfl
  | callReturns =>
      obtain ⟨-, rfl⟩ | ⟨-, rfl⟩ := callReturns_cases hstep
      · exact hsame rfl rfl
      · exact hsame rfl rfl
  | foreignQueue tid f =>
      obtain ⟨-, rfl⟩ := foreignQueue_cases hstep
      exact hpush f rfl rfl
  | foreignQuit tid =>
      obtain ⟨-, rfl⟩ := foreignQuit_cases hstep
      exact hsame rfl rfl
  | foreignWakeup tid =>
      obtain ⟨-, rfl⟩ := foreignWakeup_cases hstep
      exact hsame rfl rfl

theorem run_inv {wakeupFd : Nat} {t : EventLoop ι} {as : List (LoopStep ι)}
    (hrun : Run step (fun _ _ => True) (created wakeupFd) as t) : t.Inv :=
  hrun.invariant (fun _ _ _ _ hstep hs => step_inv hs hstep) (created_inv wakeupFd)

/-- **No lost wakeup, and functors once and in order.** The functors called are the first of those
queued, and a call of `epoll_wait` with functors pending returns at once, or after the wakeup of a
thread that has pushed one. -/
theorem run_functors {wakeupFd : Nat} {t : EventLoop ι} {as : List (LoopStep ι)}
    (hrun : Run step (fun _ _ => True) (created wakeupFd) as t) :
    t.ran ++ t.functors ++ t.pendingFunctors = as.flatMap LoopStep.queued ∧
      t.ran <+: as.flatMap LoopStep.queued ∧
        (t.pc = .poll → t.pendingFunctors ≠ [] →
          t.WakeupPending ∨ ∃ tid, t.foreign tid = .pushed) := by
  have hrun' := (hrun.strengthen (fun _ _ _ _ hstep hs => step_inv hs hstep)
    (created_inv wakeupFd)).mono fun _ _ h => h.2
  refine ⟨?_, step_refines.taken_prefix_puts hrun' rfl, fun hpc hpending => ?_⟩
  · have hcontent := step_refines.content_eq hrun'
    rwa [Transfer.content, view, ← List.append_assoc] at hcontent
  · rcases (run_inv hrun).signalled hpending with hswap | hwakeup | hqueued | hpushed
    · simp [hpc, BeforeSwap] at hswap
    · exact Or.inl hwakeup
    · rw [hpc] at hqueued
      cases hqueued
    · exact Or.inr hpushed

/-- Two functors, one queued by another thread and one by the first while it is called. -/
theorem run_functors_nested :
    ∃ t : EventLoop Nat, t.pc = .poll ∧ t.ran = [1] ∧ t.pendingFunctors = [2] ∧
      (t.WakeupPending ∨ ∃ tid, t.foreign tid = .pushed) := by
  have hexec : ∃ t : EventLoop Nat, exec (checked step fun _ _ => True) (created 3)
      ([.advance, .advance, .foreignQueue 7 1, .foreignWakeup 7, .epollReturns [.wakeup]] ++
        List.replicate 5 .advance ++ [.queueInLoop 2, .queueEnds, .callReturns] ++
          List.replicate 4 .advance) = some t ∧
      t.pc = .poll ∧ t.ran = [1] ∧ t.pendingFunctors = [2] := ⟨_, rfl, rfl, rfl, rfl⟩
  obtain ⟨t, ht, hpc, hran, hpending⟩ := hexec
  exact ⟨t, hpc, hran, hpending,
    (run_functors (run_of_exec_checked ht)).2.2 hpc (by simp [hpending])⟩

end EventLoop

end WebServer
