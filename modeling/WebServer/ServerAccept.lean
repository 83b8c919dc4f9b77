import WebServer.RunsTrace
import WebServer.ChannelEvents

/-! `Server`: the listening channel, whose events are cleared before its handler and set again at the end
of the handler, and the connections the handler gives to the loops of the thread pool. One exit of the
handler leaves the events cleared and its descriptor open; `handThisConn` then takes the listening
descriptor out of the poller's interest. -/

namespace WebServer

open Runs

/-- The loops of `EventLoopThreadPool`, by their index, behind `start`. -/
structure EventLoopThreadPool where
  numThreads : Nat
  next : Nat
  next_lt : next < numThreads

/-- `EventLoopThreadPool::getNextLoop`. -/
def EventLoopThreadPool.getNextLoop (pool : EventLoopThreadPool) : Nat × EventLoopThreadPool :=
  (pool.next,
    ⟨pool.numThreads, (pool.next + 1) % pool.numThreads, Nat.mod_lt _ (Nat.zero_lt_of_lt pool.next_lt)⟩)

/-- What a call of `accept` returns, and what `setSocketNonBlocking` makes of the descriptor. -/
structure AcceptOutcome where
  acceptFd : Int
  nonBlocking : Bool
  deriving DecidableEq

/-- `Server`, with the events the kernel has `m_listenFd` registered for, and the descriptors and
connections of the handler so far. -/
structure Server where
  acceptChannel : Channel
  interest : EventMask
  eventLoopThreadPool : EventLoopThreadPool
  /-- The positive descriptors `accept` has returned. -/
  accepted : List Nat
  /-- The descriptors `close` was called with. -/
  closed : List Nat
  /-- The loops and the connections of the calls of `queueInLoop`. -/
  queued : List (Nat × Conn)

namespace Server

def MAXFDS : Int := 100000

def acceptEvents : EventMask := EPOLLIN ||| EPOLLET

/-- After `Server::start`, where `epoll_ctl` succeeds. -/
def start (listenFd : Nat) (pool : EventLoopThreadPool) : Server where
  acceptChannel := ⟨listenFd, acceptEvents, 0, acceptEvents⟩
  interest := acceptEvents
  eventLoopThreadPool := pool
  accepted := []
  closed := []
  queued := []

def setEvents (s : Server) (events : EventMask) : Server := { s with acceptChannel.events := events }

/-- `Server::handNewConn`; once the outcomes have run out, `accept` fails. -/
def handNewConn : List AcceptOutcome → Server → Server
  | [], s => s.setEvents acceptEvents
  | o :: outcomes, s =>
      if 0 < o.acceptFd then
        let (loop, pool) := s.eventLoopThreadPool.getNextLoop
        let s := { s with eventLoopThreadPool := pool, accepted := s.accepted ++ [o.acceptFd.toNat] }
        if MAXFDS ≤ o.acceptFd then
          handNewConn outcomes { s with closed := s.closed ++ [o.acceptFd.toNat] }
        else if o.nonBlocking then
          handNewConn outcomes { s with queued := s.queued ++ [(loop, Conn.fresh o.acceptFd.toNat)] }
        else s
      else s.setEvents acceptEvents

/-- `Server::handThisConn`, a call of `epoll_mod` whose `epoll_ctl` succeeds. -/
def handThisConn (s : Server) : Server :=
  let (same, ch) := s.acceptChannel.equalAndUpdateLastEvents
  if same then { s with acceptChannel := ch }
  else { s with acceptChannel := ch, interest := ch.events }

/-- `Channel::handleEvents` of the channel that `getEventsReqeust` has put the events into. There is no
write handler. -/
def handleEvents (s : Server) (revents : EventMask) (outcomes : List AcceptOutcome) : Server :=
  Id.run (WebServer.handleEvents (m := Id) revents (setEvents · 0) (handNewConn outcomes) id handThisConn
    { s with acceptChannel := { s.acceptChannel with revents := revents, events := 0 } })

/-- An event of `m_listenFd`: a connection, while the descriptor is registered for it, or an error. -/
def Reports (s : Server) (revents : EventMask) : Prop :=
  (revents.has EPOLLIN ∧ s.interest.has EPOLLIN) ∨ revents.Ignored

instance (s : Server) (revents : EventMask) : Decidable (s.Reports revents) :=
  inferInstanceAs (Decidable (_ ∨ _))

def step (s : Server) (a : EventMask × List AcceptOutcome) : Option Server :=
  if s.Reports a.1 then some (s.handleEvents a.1 a.2) else none

/-- The descriptors accepted between the two states are those closed there and those of the connections
queued, each to one of the loops. -/
def Gives (s t : Server) : Prop :=
  ∃ accepted closed queued, t.accepted = s.accepted ++ accepted ∧ t.closed = s.closed ++ closed ∧
    t.queued = s.queued ++ queued ∧
    accepted.Perm (closed ++ queued.map fun q => q.2.http.fd) ∧
    ∀ q ∈ queued, q.1 < s.eventLoopThreadPool.numThreads

/-- The listener goes on, and no descriptor is lost. -/
structure Survives (s t : Server) : Prop where
  listens : t.interest.has EPOLLIN
  gives : s.Gives t

/-- Every descriptor that the handler accepts, and has a connection made for, is made non-blocking. -/
def NonBlocking (outcomes : List AcceptOutcome) : Prop :=
  ∀ o ∈ outcomes.takeWhile fun o => decide (0 < o.acceptFd), o.acceptFd < MAXFDS → o.nonBlocking

instance (outcomes : List AcceptOutcome) : Decidable (NonBlocking outcomes) :=
  inferInstanceAs (Decidable (∀ o ∈ _, _))

/-- The kernel has the events of the last registration. -/
structure Inv (s : Server) : Prop where
  interest : s.interest = s.acceptChannel.lastEvents
  events : s.interest = acceptEvents ∨ s.interest = 0

variable {s t u : Server}

theorem Gives.refl (s : Server) : s.Gives s :=
  ⟨[], [], [], (List.append_nil _).symm, (List.append_nil _).symm, (List.append_nil _).symm,
    List.Perm.refl _, fun _ hq => by cases hq⟩

theorem Gives.trans (hpool : t.eventLoopThreadPool.numThreads = s.eventLoopThreadPool.numThreads)
    (hst : s.Gives t) (htu : t.Gives u) : s.Gives u := by
  obtain ⟨a₁, c₁, q₁, ha₁, hc₁, hq₁, hperm₁, hloop₁⟩ := hst
  obtain ⟨a₂, c₂, q₂, ha₂, hc₂, hq₂, hperm₂, hloop₂⟩ := htu
  refine ⟨a₁ ++ a₂, c₁ ++ c₂, q₁ ++ q₂, ?_, ?_, ?_, ?_, ?_⟩
  · rw [ha₂, ha₁, List.append_assoc]
  · rw [hc₂, hc₁, List.append_assoc]
  · rw [hq₂, hq₁, List.append_assoc]
  · rw [List.perm_iff_count] at hperm₁ hperm₂ ⊢
    intro fd
    have h₁ := hperm₁ fd
    have h₂ := hperm₂ fd
    simp only [List.count_append, List.map_append] at h₁ h₂ ⊢
    omega
  · intro q hq
    rcases List.mem_append.mp hq with hq | hq
    · exact hloop₁ q hq
    · exact (hloop₂ q hq).trans_eq hpool

theorem NonBlocking.cons {o : AcceptOutcome} {outcomes : List AcceptOutcome} (hfd : 0 < o.acceptFd) :
    NonBlocking (o :: outcomes) ↔ (o.acceptFd < MAXFDS → o.nonBlocking) ∧ NonBlocking outcomes := by
  rw [NonBlocking, List.takeWhile_cons_of_pos (by simpa using hfd), List.forall_mem_cons]
  rfl

/-- The handler leaves the registration alone, and the number of loops. -/
theorem handNewConn_frame : ∀ (outcomes : List AcceptOutcome) (s : Server),
    (handNewConn outcomes s).interest = s.interest ∧
      (handNewConn outcomes s).acceptChannel.lastEvents = s.acceptChannel.lastEvents ∧
      (handNewConn outcomes s).eventLoopThreadPool.numThreads = s.eventLoopThreadPool.numThreads
  | [], _ => ⟨rfl, rfl, rfl⟩
  | o :: outcomes, s => by
      rw [handNewConn]
      split_ifs
      · exact handNewConn_frame outcomes _
      · exact handNewConn_frame outcomes _
      · exact ⟨rfl, rfl, rfl⟩
      · exact ⟨rfl, rfl, rfl⟩

/-- Where every descriptor is made non-blocking, the handler sets the events again and gives every
connection to a loop. -/
theorem handNewConn_kept : ∀ (outcomes : List AcceptOutcome) (s : Server), NonBlocking outcomes →
    (handNewConn outcomes s).acceptChannel.events = acceptEvents ∧ s.Gives (handNewConn outcomes s)
  | [], s, _ => ⟨rfl, Gives.refl s⟩
  | o :: outcomes, s, h => by
      rw [handNewConn]
      split_ifs with hfd hmax hnonblocking
      · obtain ⟨hevents, hgives⟩ := handNewConn_kept outcomes _ ((NonBlocking.cons hfd).mp h).2
        refine ⟨hevents, Gives.trans ?_ ?_ hgives⟩
        · rfl
        · exact ⟨[o.acceptFd.toNat], [o.acceptFd.toNat], [], rfl, rfl, (List.append_nil _).symm,
            List.Perm.refl _, fun _ hq => by cases hq⟩
      · obtain ⟨hevents, hgives⟩ := handNewConn_kept outcomes _ ((NonBlocking.cons hfd).mp h).2
        refine ⟨hevents, Gives.trans ?_ ?_ hgives⟩
        · rfl
        · refine ⟨[o.acceptFd.toNat], [], [(s.eventLoopThreadPool.next, Conn.fresh o.acceptFd.toNat)],
            rfl, (List.append_nil _).symm, rfl, List.Perm.refl _, fun q hq => ?_⟩
          obtain rfl := List.mem_singleton.mp hq
          exact s.eventLoopThreadPool.next_lt
      · exact absurd (((NonBlocking.cons hfd).mp h).1 (Int.not_le.mp hmax)) hnonblocking
      · exact ⟨rfl, Gives.refl s⟩

/-- Where one is not, the handler returns with the events as they were. -/
theorem handNewConn_lost : ∀ (outcomes : List AcceptOutcome) (s : Server), ¬ NonBlocking outcomes →
    (handNewConn outcomes s).acceptChannel.events = s.acceptChannel.events
  | [], _, h => absurd (fun _ ho => by cases ho) h
  | o :: outcomes, s, h => by
      rw [handNewConn]
      split_ifs with hfd hmax hnonblocking
      · refine handNewConn_lost outcomes _ fun hrest => h ((NonBlocking.cons hfd).mpr ⟨fun hlt => ?_, hrest⟩)
        exact absurd hmax (Int.not_le.mpr hlt)
      · exact handNewConn_lost outcomes _ fun hrest =>
          h ((NonBlocking.cons hfd).mpr ⟨fun _ => hnonblocking, hrest⟩)
      · rfl
      · refine absurd (fun o' ho => ?_) h
        rw [List.takeWhile_cons_of_neg (by simpa using hfd)] at ho
        cases ho

/-- `epoll_mod` registers the events of the channel, whether it skips the call or not. -/
theorem handThisConn_registers (hs : s.interest = s.acceptChannel.lastEvents) :
    s.handThisConn.interest = s.acceptChannel.events ∧
      s.handThisConn.acceptChannel.lastEvents = s.acceptChannel.events := by
  unfold handThisConn Channel.equalAndUpdateLastEvents
  by_cases hsame : s.acceptChannel.lastEvents = s.acceptChannel.events
  · simp [hs, hsame]
  · simp [hsame]

theorem handThisConn_gives (s : Server) : s.Gives s.handThisConn := by
  have hsame : s.handThisConn.accepted = s.accepted ∧ s.handThisConn.closed = s.closed ∧
      s.handThisConn.queued = s.queued := by
    unfold handThisConn
    split
    split_ifs <;> exact ⟨rfl, rfl, rfl⟩
  obtain ⟨haccepted, hclosed, hqueued⟩ := hsame
  refine ⟨[], [], [], ?_, ?_, ?_, List.Perm.refl _, fun _ hq => by cases hq⟩
  · rw [haccepted, List.append_nil]
  · rw [hclosed, List.append_nil]
  · rw [hqueued, List.append_nil]

/-- The state in which the handlers of an event begin. -/
def reported (s : Server) (revents : EventMask) : Server :=
  { s with acceptChannel := { s.acceptChannel with revents := revents, events := 0 } }

theorem handleEvents_of_ignored {revents : EventMask} (h : revents.Ignored)
    (outcomes : List AcceptOutcome) : s.handleEvents revents outcomes = s.reported revents := by
  rw [handleEvents, handleEvents_ignored h]
  rfl

theorem handleEvents_of_accepts {revents : EventMask} (hin : revents.has EPOLLIN)
    (h : ¬ revents.Ignored) (outcomes : List AcceptOutcome) :
    s.handleEvents revents outcomes = (handNewConn outcomes (s.reported revents)).handThisConn := by
  have hread : revents.has (EPOLLIN ||| EPOLLPRI ||| EPOLLRDHUP) := by
    rw [EventMask.has_comm, EventMask.has_or, EventMask.has_or]
    exact Or.inl (Or.inl ((EventMask.has_comm _ _).mp hin))
  rw [handleEvents, handleEvents_handlers h, if_pos hread]
  split_ifs <;> rfl

/-- What an event does: nothing, or a round of the handler and a registration behind it, of the handler's
events or of none. -/
theorem step_cases {a : EventMask × List AcceptOutcome} (hs : s.Inv) (hstep : s.step a = some t) :
    (a.1.Ignored ∧ t = s.reported a.1) ∨
    (¬ a.1.Ignored ∧ s.interest.has EPOLLIN ∧ t = (handNewConn a.2 (s.reported a.1)).handThisConn ∧
      t.interest = t.acceptChannel.lastEvents ∧
      (NonBlocking a.2 ∧ t.interest = acceptEvents ∨ ¬ NonBlocking a.2 ∧ t.interest = 0)) := by
  simp only [step] at hstep
  split_ifs at hstep with hreports
  cases hstep
  by_cases hignored : a.1.Ignored
  · exact Or.inl ⟨hignored, handleEvents_of_ignored hignored _⟩
  · obtain ⟨hin, hinterest⟩ := hreports.resolve_right hignored
    have hframe := handNewConn_frame a.2 (s.reported a.1)
    obtain ⟨hregistered, hlast⟩ := handThisConn_registers (s := handNewConn a.2 (s.reported a.1))
      (hframe.1.trans (hs.interest.trans hframe.2.1.symm))
    rw [handleEvents_of_accepts hin hignored, hregistered, hlast]
    refine Or.inr ⟨hignored, hinterest, rfl, rfl, ?_⟩
    by_cases hnonblocking : NonBlocking a.2
    · exact Or.inl ⟨hnonblocking, (handNewConn_kept a.2 _ hnonblocking).1⟩
    · exact Or.inr ⟨hnonblocking, handNewConn_lost a.2 _ hnonblocking⟩

theorem step_inv {a : EventMask × List AcceptOutcome} (hs : s.Inv) (hstep : s.step a = some t) :
    t.Inv := by
  rcases step_cases hs hstep with ⟨-, rfl⟩ | ⟨-, -, -, hinterest, ⟨-, hevents⟩ | ⟨-, hevents⟩⟩
  · exact ⟨hs.interest, hs.events⟩
  · exact ⟨hinterest, Or.inl hevents⟩
  · exact ⟨hinterest, Or.inr hevents⟩

theorem start_inv (listenFd : Nat) (pool : EventLoopThreadPool) : (start listenFd pool).Inv :=
  ⟨rfl, Or.inl rfl⟩

theorem run_inv {pool : EventLoopThreadPool} {listenFd : Nat}
    {as : List (EventMask × List AcceptOutcome)}
    (hrun : Run step (fun _ _ => True) (start listenFd pool) as s) : s.Inv :=
  hrun.invariant (fun _ _ _ _ hstep hs => step_inv hs hstep) (start_inv listenFd pool)

/-- A round in which every descriptor is made non-blocking gives away what it accepts. -/
theorem round_gives {outcomes : List AcceptOutcome} (revents : EventMask) (h : NonBlocking outcomes) :
    s.Gives (handNewConn outcomes (s.reported revents)).handThisConn := by
  have hround : s.Gives (handNewConn outcomes (s.reported revents)) := (handNewConn_kept outcomes _ h).2
  exact Gives.trans (handNewConn_frame outcomes (s.reported revents)).2.2 hround (handThisConn_gives _)

/-- **The listener survives a round** if and only if the event is an error, or every descriptor it
accepts and makes a connection for is made non-blocking. -/
theorem survives_iff {pool : EventLoopThreadPool} {listenFd : Nat}
    {as : List (EventMask × List AcceptOutcome)} {revents : EventMask} {outcomes : List AcceptOutcome}
    (hrun : Run step (fun _ _ => True) (start listenFd pool) as s) (hin : revents.has EPOLLIN)
    (hreported : s.interest.has EPOLLIN) :
    s.Survives (s.handleEvents revents outcomes) ↔ revents.Ignored ∨ NonBlocking outcomes := by
  have hstep : s.step (revents, outcomes) = some (s.handleEvents revents outcomes) :=
    if_pos (Or.inl ⟨hin, hreported⟩)
  rcases step_cases (run_inv hrun) hstep with ⟨hignored, ht⟩ | ⟨hignored, -, ht, -, hround⟩
  · refine iff_of_true ?_ (Or.inl hignored)
    rw [ht]
    exact ⟨hreported, Gives.refl s⟩
  · rcases hround with ⟨hnonblocking, hevents⟩ | ⟨hblocking, hevents⟩
    · refine iff_of_true ⟨?_, ?_⟩ (Or.inr hnonblocking)
      · rw [hevents]
        decide
      · rw [ht]
        exact round_gives revents hnonblocking
    · refine iff_of_false (fun h => ?_) (by simp [hignored, hblocking])
      have hlistens := h.listens
      rw [hevents] at hlistens
      exact EventMask.not_zero_has _ hlistens

/-- Three connections for two loops, one of them beyond `MAXFDS`. -/
theorem survives_three :
    Survives (start 3 ⟨2, 0, by decide⟩)
      ((start 3 ⟨2, 0, by decide⟩).handleEvents EPOLLIN [⟨7, true⟩, ⟨100000, true⟩, ⟨8, true⟩, ⟨-1, true⟩]) :=
  (survives_iff (.nil _) (by decide) (by decide)).mpr (Or.inr (by decide))

/-- `setSocketNonBlocking` fails for the first of two connections: its descriptor is neither closed nor
given to a loop, and the listening descriptor is registered for nothing. -/
theorem listener_lost :
    let s := (start 3 ⟨2, 0, by decide⟩).handleEvents EPOLLIN [⟨7, false⟩, ⟨8, true⟩]
    s.accepted = [7] ∧ s.closed = [] ∧ s.queued = [] ∧ s.interest = 0 ∧
      ¬ Survives (start 3 ⟨2, 0, by decide⟩) s := by
  refine ⟨by decide, by decide, by decide, by decide, fun h => ?_⟩
  exact absurd h.listens (by decide)

/-- An event with which the listener survives. -/
def Harmless (_ : Server) (a : EventMask × List AcceptOutcome) : Prop := a.1.Ignored ∨ NonBlocking a.2

/-- Every accepted descriptor was closed, or is that of one queued connection. -/
def Accounted (s : Server) : Prop :=
  s.accepted.Perm (s.closed ++ s.queued.map fun q => q.2.http.fd)

theorem Gives.accounted (h : s.Gives t) (hs : s.Accounted) : t.Accounted := by
  obtain ⟨accepted, closed, queued, haccepted, hclosed, hqueued, hperm, -⟩ := h
  unfold Accounted at hs ⊢
  rw [haccepted, hclosed, hqueued]
  rw [List.perm_iff_count] at hs hperm ⊢
  intro fd
  have h₁ := hs fd
  have h₂ := hperm fd
  simp only [List.count_append, List.map_append] at h₁ h₂ ⊢
  omega

/-- As long as every event is harmless, the listener stays registered and no descriptor is lost. -/
theorem run_survives {pool : EventLoopThreadPool} {listenFd : Nat}
    {as : List (EventMask × List AcceptOutcome)} (hrun : Run step Harmless (start listenFd pool) as s) :
    s.interest = acceptEvents ∧ s.Accounted := by
  have hall : s.Inv ∧ s.interest = acceptEvents ∧ s.Accounted := by
    refine hrun.invariant (I := fun u => u.Inv ∧ u.interest = acceptEvents ∧ u.Accounted) ?_
      ⟨start_inv listenFd pool, rfl, List.Perm.refl _⟩
    rintro u a v hharmless hstep ⟨hu, hinterest, haccounted⟩
    refine ⟨step_inv hu hstep, ?_⟩
    rcases step_cases hu hstep with ⟨-, rfl⟩ | ⟨hignored, -, rfl, -, hround⟩
    · exact ⟨hinterest, haccounted⟩
    · have hnonblocking := hharmless.resolve_left hignored
      exact ⟨(hround.resolve_right fun h => h.1 hnonblocking).2,
        (round_gives a.1 hnonblocking).accounted haccounted⟩
  exact hall.2

/-- Once the listener is lost, no run brings it back, and nothing is accepted any more. -/
theorem run_lost {as : List (EventMask × List AcceptOutcome)} (hs : s.Inv) (hlost : s.interest = 0)
    (hrun : Run step (fun _ _ => True) s as t) : t.interest = 0 ∧ t.accepted = s.accepted := by
  have hall : t.Inv ∧ t.interest = 0 ∧ t.accepted = s.accepted := by
    refine hrun.invariant (I := fun u => u.Inv ∧ u.interest = 0 ∧ u.accepted = s.accepted) ?_
      ⟨hs, hlost, rfl⟩
    rintro u a v - hstep ⟨hu, hinterest, haccepted⟩
    refine ⟨step_inv hu hstep, ?_⟩
    rcases step_cases hu hstep with ⟨-, rfl⟩ | ⟨-, hreported, -⟩
    · exact ⟨hinterest, haccepted⟩
    · rw [hinterest] at hreported
      exact absurd hreported (EventMask.not_zero_has _)
  exact hall.2

end Server

end WebServer
