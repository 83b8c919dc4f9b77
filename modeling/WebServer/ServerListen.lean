import WebServer.RunsRefine
import WebServer.ServerAccept

/-! The listening thread call by call. Clients queue up at the listening descriptor, whose event the kernel
reports once for those that have come since; each call of `accept` takes one of them. The rounds of the
handler are those of `Server`, and a client waits unheard if the handler has left it behind and no event is
due. -/

namespace WebServer

open Runs

inductive ListenPc where
  | poll
  /-- In the loop of `handNewConn`. -/
  | accepting
  /-- `handThisConn` is next. -/
  | updating
  deriving DecidableEq

/-- `Server` in the midst of an event, with the queue of the listening descriptor. -/
structure Listener where
  server : Server
  pc : ListenPc
  /-- How many clients wait in the queue. -/
  backlog : Nat
  /-- `epoll_wait` is to report the descriptor. -/
  edge : Bool

inductive ListenStep where
  /-- A client connects. -/
  | arrives
  /-- `epoll_wait` reports the descriptor, and `handleEvents` begins. -/
  | reports (revents : EventMask)
  /-- A call of `accept`, and what follows it in the loop. -/
  | accepts (outcome : AcceptOutcome)
  | updates

namespace Server

/-- The loop has turned to the next of the pool for the descriptor. -/
def turned (s : Server) (acceptFd : Nat) : Server :=
  { s with eventLoopThreadPool := s.eventLoopThreadPool.getNextLoop.2, accepted := s.accepted ++ [acceptFd] }

/-- A call of `accept` with the body of the loop behind it; whether the loop goes on. -/
def acceptOne (s : Server) (o : AcceptOutcome) : Server × Bool :=
  if 0 < o.acceptFd then
    if MAXFDS ≤ o.acceptFd then
      ({ s.turned o.acceptFd.toNat with closed := s.closed ++ [o.acceptFd.toNat] }, true)
    else if o.nonBlocking then
      ({ s.turned o.acceptFd.toNat with
        queued := s.queued ++ [(s.eventLoopThreadPool.getNextLoop.1, Conn.fresh o.acceptFd.toNat)] }, true)
    else (s.turned o.acceptFd.toNat, false)
  else (s.setEvents acceptEvents, false)

theorem handNewConn_cons (o : AcceptOutcome) (outcomes : List AcceptOutcome) (s : Server) :
    handNewConn (o :: outcomes) s =
      if (s.acceptOne o).2 then handNewConn outcomes (s.acceptOne o).1 else (s.acceptOne o).1 := by
  rw [handNewConn, acceptOne]
  by_cases hfd : 0 < o.acceptFd
  · by_cases hmax : MAXFDS ≤ o.acceptFd
    · simp only [if_pos hfd, if_pos hmax, if_true]
      rfl
    · by_cases hnonblocking : o.nonBlocking = true
      · simp only [if_pos hfd, if_neg hmax, if_pos hnonblocking, if_true]
        rfl
      · simp only [if_pos hfd, if_neg hmax, if_neg hnonblocking]
        rfl
  · simp only [if_neg hfd]
    rfl

theorem handThisConn_events (s : Server) : s.handThisConn.acceptChannel.events = s.acceptChannel.events := by
  unfold handThisConn Channel.equalAndUpdateLastEvents
  dsimp only
  split_ifs <;> rfl

/-- What a call of `accept` does to the listening channel. -/
theorem acceptOne_cases (s : Server) (o : AcceptOutcome) :
    (s.acceptOne o).1.interest = s.interest ∧
      (s.acceptOne o).1.acceptChannel.lastEvents = s.acceptChannel.lastEvents ∧
      (0 < o.acceptFd ∧ (o.acceptFd < MAXFDS → o.nonBlocking) ∧ (s.acceptOne o).2 = true ∧
          (s.acceptOne o).1.acceptChannel.events = s.acceptChannel.events ∨
        0 < o.acceptFd ∧ ¬ (o.acceptFd < MAXFDS → o.nonBlocking) ∧ (s.acceptOne o).2 = false ∧
          (s.acceptOne o).1.acceptChannel.events = s.acceptChannel.events ∨
        o.acceptFd ≤ 0 ∧ (s.acceptOne o).2 = false ∧
          (s.acceptOne o).1.acceptChannel.events = acceptEvents) := by
  unfold acceptOne
  split_ifs with hfd hmax hnonblocking
  · exact ⟨rfl, rfl, Or.inl ⟨hfd, fun hlt => absurd hmax (Int.not_le.mpr hlt), rfl, rfl⟩⟩
  · exact ⟨rfl, rfl, Or.inl ⟨hfd, fun _ => hnonblocking, rfl, rfl⟩⟩
  · exact ⟨rfl, rfl, Or.inr (Or.inl ⟨hfd, fun h => hnonblocking (h (Int.not_le.mp hmax)), rfl, rfl⟩)⟩
  · exact ⟨rfl, rfl, Or.inr (Or.inr ⟨Int.not_lt.mp hfd, rfl, rfl⟩)⟩

end Server

namespace Listener

open Server

def start (listenFd : Nat) (pool : EventLoopThreadPool) : Listener :=
  ⟨Server.start listenFd pool, .poll, 0, false⟩

/-- The kernel takes the event of a client for a descriptor registered for it. -/
def arrives (l : Listener) : Listener :=
  { l with backlog := l.backlog + 1, edge := l.edge || decide (l.server.interest.has EPOLLIN) }

def reports (l : Listener) (revents : EventMask) : Option Listener :=
  if l.pc = .poll ∧ l.server.Reports revents ∧ (l.edge = true ∨ revents.Ignored) then
    some { l with
      server := l.server.reported revents
      pc := if revents.Ignored then .poll else .accepting
      edge := false }
  else none

/-- What `accept` leaves in the queue. -/
def left (l : Listener) (o : AcceptOutcome) : Nat := if 0 ≤ o.acceptFd then l.backlog - 1 else l.backlog

def accepts (l : Listener) (o : AcceptOutcome) : Option Listener :=
  if l.pc = .accepting ∧ (0 ≤ o.acceptFd → 0 < l.backlog) then
    some { l with
      server := (l.server.acceptOne o).1
      pc := if (l.server.acceptOne o).2 then .accepting else .updating
      backlog := l.left o }
  else none

/-- `epoll_ctl` reports anew what it registers a descriptor for; `epoll_mod` may skip it. -/
def updates (l : Listener) : Option Listener :=
  if l.pc = .updating then
    some { l with
      server := l.server.handThisConn
      pc := .poll
      edge := l.edge || (!l.server.acceptChannel.equalAndUpdateLastEvents.1 &&
        decide (l.server.acceptChannel.events.has EPOLLIN ∧ 0 < l.backlog)) }
  else none

def step (l : Listener) : ListenStep → Option Listener
  | .arrives => some l.arrives
  | .reports revents => l.reports revents
  | .accepts o => l.accepts o
  | .updates => l.updates

variable {l l' : Listener}

theorem reports_cases {revents : EventMask} (hstep : l.reports revents = some l') :
    l.pc = .poll ∧ l.server.Reports revents ∧ (l.edge = true ∨ revents.Ignored) ∧
      l' = { l with
        server := l.server.reported revents
        pc := if revents.Ignored then .poll else .accepting
        edge := false } := by
  simp only [reports, Option.ite_none_right_eq_some, Option.some.injEq] at hstep
  obtain ⟨⟨hpc, hreports, hdue⟩, rfl⟩ := hstep
  exact ⟨hpc, hreports, hdue, rfl⟩

theorem accepts_cases {o : AcceptOutcome} (hstep : l.accepts o = some l') :
    l.pc = .accepting ∧ l' = { l with
      server := (l.server.acceptOne o).1
      pc := if (l.server.acceptOne o).2 then .accepting else .updating
      backlog := l.left o } := by
  simp only [accepts, Option.ite_none_right_eq_some, Option.some.injEq] at hstep
  obtain ⟨⟨hpc, -⟩, rfl⟩ := hstep
  exact ⟨hpc, rfl⟩

theorem updates_cases (hstep : l.updates = some l') :
    l.pc = .updating ∧ l'.server = l.server.handThisConn ∧ l'.pc = .poll ∧ l'.backlog = l.backlog ∧
      (l.edge = true → l'.edge = true) := by
  simp only [updates, Option.ite_none_right_eq_some, Option.some.injEq] at hstep
  obtain ⟨hpc, rfl⟩ := hstep
  exact ⟨hpc, rfl, rfl, rfl, fun hedge => by simp [hedge]⟩

/-- What the calls of `accept` return until the next event. -/
def outcomes : List ListenStep → List AcceptOutcome
  | [] => []
  | .reports _ :: _ => []
  | .accepts o :: as => o :: outcomes as
  | _ :: as => outcomes as

/-- The events, each with what the calls of `accept` return behind it. -/
def rounds : List ListenStep → List (EventMask × List AcceptOutcome)
  | [] => []
  | .reports revents :: as => (revents, outcomes as) :: rounds as
  | _ :: as => rounds as

/-- The server when the handler has come to its end. -/
def settled (l : Listener) (outcomes : List AcceptOutcome) : Server :=
  match l.pc with
  | .poll => l.server
  | .accepting => (handNewConn outcomes l.server).handThisConn
  | .updating => l.server.handThisConn

theorem settled_accepts {o : AcceptOutcome} (hstep : l.accepts o = some l') (os : List AcceptOutcome) :
    l'.settled os = l.settled (o :: os) := by
  obtain ⟨hpc, rfl⟩ := accepts_cases hstep
  by_cases hgoes : (l.server.acceptOne o).2 = true
  · simp only [settled, hpc, handNewConn_cons, if_pos hgoes]
  · simp only [settled, hpc, handNewConn_cons, if_neg hgoes]

theorem settled_updates (hstep : l.updates = some l') (os : List AcceptOutcome) :
    l'.settled os = l.settled os := by
  obtain ⟨hpc, hserver, hpc', -⟩ := updates_cases hstep
  simp only [settled, hpc, hpc', hserver]

/-- An event with all that its handler does is a step of the server. -/
theorem settled_reports {revents : EventMask} (hstep : l.reports revents = some l')
    (os : List AcceptOutcome) : l.server.step (revents, os) = some (l'.settled os) := by
  obtain ⟨-, hreports, -, rfl⟩ := reports_cases hstep
  rw [Server.step, if_pos hreports]
  by_cases hignored : revents.Ignored
  · simp only [handleEvents_of_ignored hignored, settled, if_pos hignored]
  · have hin := (hreports.resolve_right hignored).1
    simp only [handleEvents_of_accepts hin hignored, settled, if_neg hignored]

/-- **The calls make up the rounds.** Whatever the order in which clients connect while the handler runs,
the thread's calls up to its next wait are a run of the server's whole rounds, each with the outcomes its
calls of `accept` had. -/
theorem run_rounds_from {as : List ListenStep} (hrun : Run step (fun _ _ => True) l as l')
    (hpoll : l'.pc = .poll) :
    Run Server.step (fun _ _ => True) (l.settled (outcomes as)) (rounds as) l'.server := by
  induction hrun with
  | nil l =>
      simp only [settled, hpoll]
      exact .nil l.server
  | @cons l m _ a as _ hstep _ ih =>
      have hrest := ih hpoll
      cases a with
      | arrives =>
          cases hstep
          exact hrest
      | reports revents =>
          have hpc := (reports_cases hstep).1
          have hround := settled_reports hstep (outcomes as)
          simp only [settled, hpc]
          exact .cons trivial hround hrest
      | accepts o =>
          rw [settled_accepts hstep] at hrest
          exact hrest
      | updates =>
          rw [settled_updates hstep] at hrest
          exact hrest

theorem run_rounds {listenFd : Nat} {pool : EventLoopThreadPool} {as : List ListenStep}
    (hrun : Run step (fun _ _ => True) (start listenFd pool) as l) (hpoll : l.pc = .poll) :
    Run Server.step (fun _ _ => True) (Server.start listenFd pool) (rounds as) l.server :=
  run_rounds_from hrun hpoll

/-- The second client connects while the handler runs, and is part of the round. -/
theorem run_rounds_two :
    ∃ l : Listener, l.server.accepted = [7, 8] ∧
      Run Server.step (fun _ _ => True) (Server.start 3 ⟨2, 0, by decide⟩)
        [(EPOLLIN, [⟨7, true⟩, ⟨8, true⟩, ⟨-1, true⟩])] l.server := by
  have hexec : (exec (checked step fun _ _ => True) (start 3 ⟨2, 0, by decide⟩) [.arrives, .reports EPOLLIN,
      .arrives, .accepts ⟨7, true⟩, .accepts ⟨8, true⟩, .accepts ⟨-1, true⟩, .updates]).map
        (fun l => (l.pc, l.server.accepted)) = some (.poll, [7, 8]) := by
    decide
  obtain ⟨l, hl, hends⟩ := Option.map_eq_some_iff.mp hexec
  simp only [Prod.mk.injEq] at hends
  exact ⟨l, hends.2, run_rounds (run_of_exec_checked hl) hends.1⟩

/-! ### Whom the listener hears -/

/-- The kernel has the events of the last registration, and the channel's are clear for the handler. -/
structure Inv (l : Listener) : Prop where
  server : l.server.Inv
  events : l.server.acceptChannel.events = acceptEvents ∨ l.server.acceptChannel.events = 0
  cleared : l.pc = .accepting → l.server.acceptChannel.events = 0

/-- No client is left behind: the descriptor is registered and stays so, and outside the handler an event
is due while clients wait. -/
structure Hears (l : Listener) : Prop where
  registered : l.server.interest.has EPOLLIN
  rearms : l.pc = .updating → l.server.acceptChannel.events = acceptEvents
  due : l.pc ≠ .accepting → l.backlog ≠ 0 → l.edge = true

/-- The event is not an error that hides clients, and the handler goes on to the last client that waits
unless an event for the others is due. -/
def Attends (l : Listener) : ListenStep → Prop
  | .arrives => True
  | .reports revents => revents.Ignored → l.backlog = 0
  | .accepts o =>
      if 0 < o.acceptFd then o.acceptFd < MAXFDS → o.nonBlocking else l.left o ≠ 0 → l.edge = true
  | .updates => True

instance (l : Listener) (a : ListenStep) : Decidable (l.Attends a) := by
  cases a <;> unfold Attends <;> infer_instance

theorem step_inv {a : ListenStep} (hl : l.Inv) (hstep : l.step a = some l') : l'.Inv := by
  cases a with
  | arrives =>
      cases hstep
      exact ⟨hl.server, hl.events, hl.cleared⟩
  | reports revents =>
      obtain ⟨-, -, -, rfl⟩ := reports_cases hstep
      exact ⟨⟨hl.server.interest, hl.server.events⟩, Or.inr rfl, fun _ => rfl⟩
  | accepts o =>
      obtain ⟨hpc, rfl⟩ := accepts_cases hstep
      obtain ⟨hinterest, hlast, hcalls⟩ := l.server.acceptOne_cases o
      have hserver : (l.server.acceptOne o).1.Inv :=
        ⟨hinterest.trans (hl.server.interest.trans hlast.symm), hinterest ▸ hl.server.events⟩
      rcases hcalls with ⟨-, -, -, hevents⟩ | ⟨-, -, hstops, hevents⟩ | ⟨-, hstops, hevents⟩
      · have hcleared := hevents.trans (hl.cleared hpc)
        exact ⟨hserver, Or.inr hcleared, fun _ => hcleared⟩
      · exact ⟨hserver, Or.inr (hevents.trans (hl.cleared hpc)), fun hgoes => by simp [hstops] at hgoes⟩
      · exact ⟨hserver, Or.inl hevents, fun hgoes => by simp [hstops] at hgoes⟩
  | updates =>
      obtain ⟨-, hserver, hpc, -⟩ := updates_cases hstep
      obtain ⟨hregistered, hlast⟩ := handThisConn_registers hl.server.interest
      have hevents := l.server.handThisConn_events
      rw [← hserver] at hregistered hlast hevents
      refine ⟨⟨hregistered.trans hlast.symm, hregistered ▸ hl.events⟩, hevents.symm ▸ hl.events, fun h => ?_⟩
      rw [hpc] at h
      cases h

/-- Each step leaves no client behind just if it attends to those that wait. -/
theorem step_hears {a : ListenStep} (hl : l.Inv) (hhears : l.Hears) (hstep : l.step a = some l') :
    l'.Hears ↔ l.Attends a := by
  cases a with
  | arrives =>
      cases hstep
      refine iff_of_true ⟨hhears.registered, hhears.rearms, fun _ _ => ?_⟩ trivial
      simp [arrives, hhears.registered]
  | reports revents =>
      obtain ⟨-, -, -, rfl⟩ := reports_cases hstep
      by_cases hignored : revents.Ignored
      · constructor
        · intro h _
          by_contra hwaits
          cases h.due (by simp [hignored]) hwaits
        · intro h
          exact ⟨hhears.registered, fun hpc => by simp [hignored] at hpc,
            fun _ hwaits => absurd (h hignored) hwaits⟩
      · refine iff_of_true ⟨hhears.registered, fun hpc => ?_, fun hpc => ?_⟩ fun h => absurd h hignored
        · simp [hignored] at hpc
        · simp [hignored] at hpc
  | accepts o =>
      obtain ⟨hpc, rfl⟩ := accepts_cases hstep
      obtain ⟨hinterest, -, hcalls⟩ := l.server.acceptOne_cases o
      have hregistered : (l.server.acceptOne o).1.interest.has EPOLLIN := hinterest ▸ hhears.registered
      rcases hcalls with ⟨hfd, hkept, hgoes, -⟩ | ⟨hfd, hlost, hstops, hevents⟩ | ⟨hfd, hstops, hevents⟩
      · refine iff_of_true ⟨hregistered, fun h => ?_, fun h => ?_⟩ ?_
        · simp [hgoes] at h
        · simp [hgoes] at h
        · rw [Attends, if_pos hfd]
          exact hkept
      · refine iff_of_false (fun h => ?_) ?_
        · have hset := h.rearms (by simp [hstops])
          rw [hevents, hl.cleared hpc] at hset
          exact absurd hset (by decide)
        · rw [Attends, if_pos hfd]
          exact hlost
      · rw [Attends, if_neg (Int.not_lt.mpr hfd)]
        constructor
        · exact fun h => h.due (by simp [hstops])
        · exact fun h => ⟨hregistered, fun _ => hevents, fun _ => h⟩
  | updates =>
      obtain ⟨hpc, hserver, hpc', hbacklog, hedge⟩ := updates_cases hstep
      obtain ⟨hregistered, -⟩ := handThisConn_registers hl.server.interest
      refine iff_of_true ⟨?_, fun h => ?_, fun _ hwaits => ?_⟩ trivial
      · rw [hserver, hregistered, hhears.rearms hpc]
        decide
      · rw [hpc'] at h
        cases h
      · exact hedge (hhears.due (by simp [hpc]) (hbacklog ▸ hwaits))

theorem start_inv (listenFd : Nat) (pool : EventLoopThreadPool) : (start listenFd pool).Inv :=
  ⟨Server.start_inv listenFd pool, Or.inl rfl, fun h => by cases h⟩

theorem start_hears (listenFd : Nat) (pool : EventLoopThreadPool) : (start listenFd pool).Hears :=
  ⟨(by decide : acceptEvents.has EPOLLIN), (nomatch ·), fun _ h => absurd rfl h⟩

/-- A client left behind outside the handler waits for the next one. -/
theorem run_deaf {as : List ListenStep} (hrun : Run step (fun _ a => a ≠ .arrives) l as l')
    (hpoll : l.pc = .poll) (hedge : l.edge = false) :
    l'.backlog = l.backlog ∧ l'.server.accepted = l.server.accepted := by
  have hkept : l'.pc = .poll ∧ l'.edge = false ∧ l'.backlog = l.backlog ∧
      l'.server.accepted = l.server.accepted := by
    refine hrun.invariant (I := fun m => m.pc = .poll ∧ m.edge = false ∧ m.backlog = l.backlog ∧
      m.server.accepted = l.server.accepted) ?_ ⟨hpoll, hedge, rfl, rfl⟩
    rintro m a m' hother hstep ⟨hpc, hedge, hbacklog, haccepted⟩
    cases a with
    | arrives => exact absurd rfl hother
    | reports revents =>
        obtain ⟨-, -, hdue, rfl⟩ := reports_cases hstep
        have hignored := hdue.resolve_left (by simp [hedge])
        exact ⟨if_pos hignored, rfl, hbacklog, haccepted⟩
    | accepts o =>
        have hpc' := (accepts_cases hstep).1
        rw [hpc] at hpc'
        cases hpc'
    | updates =>
        have hpc' := (updates_cases hstep).1
        rw [hpc] at hpc'
        cases hpc'
  exact hkept.2.2

/-- **Who is left behind.** The listener stays registered, and no client waits without an event due, all along a
run just if every step of it attends to those that wait. A client that waits when the thread comes to `epoll_wait` is reported if it is not left behind; else no call
of `accept` returns it before another client connects. -/
theorem run_hears {listenFd : Nat} {pool : EventLoopThreadPool} {as : List ListenStep}
    (hrun : Run step (fun _ _ => True) (start listenFd pool) as l) :
    ((∀ bs m, bs <+: as → Run step (fun _ _ => True) (start listenFd pool) bs m → m.Hears) ↔
        Run step Attends (start listenFd pool) as l) ∧
      (l.pc = .poll → l.backlog ≠ 0 →
        (l.Hears → ∃ l', l.step (.reports EPOLLIN) = some l' ∧ l'.pc = .accepting) ∧
        (l.edge = false → ∀ bs m, Run step (fun _ a => a ≠ .arrives) l bs m →
          m.backlog = l.backlog ∧ m.server.accepted = l.server.accepted)) := by
  refine ⟨hrun.prefixes_iff (fun _ _ _ _ hstep hl => step_inv hl hstep)
    (fun _ _ _ _ hstep hl hhears => step_hears hl hhears hstep) (start_inv listenFd pool)
    (start_hears listenFd pool), fun hpoll hwaits => ⟨fun hhears => ?_, fun hedge bs m hrest => ?_⟩⟩
  · have hreports : l.server.Reports EPOLLIN := Or.inl ⟨by decide, hhears.registered⟩
    have hedge : l.edge = true := hhears.due (by simp [hpoll]) hwaits
    have hignored : ¬ EPOLLIN.Ignored := by decide
    refine ⟨{ l with server := l.server.reported EPOLLIN, pc := .accepting, edge := false }, ?_, rfl⟩
    simp only [step, reports, if_pos (And.intro hpoll (And.intro hreports (Or.inl hedge))), if_neg hignored]
  · exact run_deaf hrest hpoll hedge

/-- Of two clients the second is left behind when `accept` fails for it. -/
theorem run_hears_second :
    ∃ l, l.backlog = 1 ∧ ¬ (∀ bs m, bs <+: [.arrives, .arrives, .reports EPOLLIN, .accepts ⟨7, true⟩,
        .accepts ⟨-1, true⟩, .updates] →
      Run step (fun _ _ => True) (start 3 ⟨2, 0, by decide⟩) bs m → m.Hears) ∧
      ∀ bs m, Run step (fun _ a => a ≠ .arrives) l bs m → m.server.accepted = [7] := by
  have hexec : (exec (checked step fun _ _ => True) (start 3 ⟨2, 0, by decide⟩)
      [.arrives, .arrives, .reports EPOLLIN, .accepts ⟨7, true⟩, .accepts ⟨-1, true⟩, .updates]).map
        (fun l => (l.pc, l.backlog, l.edge, l.server.accepted)) = some (.poll, 1, false, [7]) := by
    decide
  obtain ⟨l, hl, hends⟩ := Option.map_eq_some_iff.mp hexec
  simp only [Prod.mk.injEq] at hends
  obtain ⟨hpoll, hbacklog, hedge, haccepted⟩ := hends
  have hrun := run_of_exec_checked hl
  obtain ⟨-, hends⟩ := run_hears hrun
  obtain ⟨-, hdeaf⟩ := hends hpoll (by simp [hbacklog])
  refine ⟨l, hbacklog, fun hall => ?_, fun bs m hrest => haccepted ▸ (hdeaf hedge bs m hrest).2⟩
  have hhears := hall _ l (List.prefix_refl _) hrun
  exact absurd (hhears.due (by simp [hpoll]) (by simp [hbacklog])) (by simp [hedge])

end Listener

end WebServer
