import WebServer.EpollHistory
import WebServer.ServerRotation

/-! The whole server: the listening thread, the loops of the pool, and the descriptors of the process. The
threads take their steps in any order. `accept` returns a descriptor that is not open, and `close` makes one
available again; what each loop relies on when it is handed a descriptor follows from what all of them have
open. -/

namespace WebServer

open Runs

/-- What is open when the loops run: the listening descriptor, those the loops are woken by, and others. -/
structure ServerSetup where
  pool : EventLoopThreadPool
  listenFd : Nat
  /-- `m_wakeupFd` of each loop. -/
  wakeupFds : Nat → Nat
  ctlOk : Nat → Bool
  reserved : Nat → Bool
  wakeups : ∀ loop < pool.numThreads, reserved (wakeupFds loop) = true

structure ServerLoops where
  listener : Listener
  /-- The loops of the pool, by their index. -/
  loops : Nat → Worker
  /-- `req_info`, by its loop and its number there. -/
  reqInfo : Option (Nat × Nat)
  opened : Nat → Bool
  /-- The descriptors that were accepted, and neither closed nor given to a connection. -/
  lost : List Nat
  /-- The descriptors that `close` was called with when they were not open. -/
  misclosed : List Nat

inductive LoopsStep where
  | arrives
  | reports (revents : EventMask)
  | accepts (outcome : AcceptOutcome)
  /-- The end of the scope of `req_info`. -/
  | releases
  | updates
  /-- A step of the thread of a loop. -/
  | works (loop : Nat) (a : WorkerStep)

/-- The steps of a worker that its own thread takes. -/
def WorkerStep.Own : WorkerStep → Prop
  | .accept _ | .acceptorReleases _ => False
  | _ => True

instance (a : WorkerStep) : Decidable a.Own := by
  cases a <;> unfold WorkerStep.Own <;> infer_instance

/-- The descriptors of the connections destroyed on the way. -/
def Worker.freed (s t : Worker) : List Nat :=
  ((List.range s.made).filter fun id => !(s.objects id).destroyed && (t.objects id).destroyed).map
    fun id => (s.objects id).conn.http.fd

/-- The loop and the descriptor of the connection that is made for what `accept` has returned. -/
def Listener.gives (l : Listener) (o : AcceptOutcome) : Option (Nat × Nat) :=
  if 0 < o.acceptFd ∧ o.acceptFd < Server.MAXFDS ∧ o.nonBlocking = true then
    some (l.server.eventLoopThreadPool.next, o.acceptFd.toNat)
  else none

namespace ServerLoops

def start (u : ServerSetup) : ServerLoops where
  listener := Listener.start u.listenFd u.pool
  loops loop := Worker.created (u.wakeupFds loop) (u.ctlOk loop)
  reqInfo := none
  opened := u.reserved
  lost := []
  misclosed := []

def close (g : ServerLoops) (fd : Nat) : ServerLoops :=
  if g.opened fd then { g with opened := Function.update g.opened fd false }
  else { g with misclosed := g.misclosed ++ [fd] }

/-- A step of a loop; the connections it destroys close their descriptors. -/
def setLoop (g : ServerLoops) (loop : Nat) (w : Worker) : ServerLoops :=
  (Worker.freed (g.loops loop) w).foldl close { g with loops := Function.update g.loops loop w }

/-- A call of `accept` and the body of the loop up to the end of the scope of `req_info`. A descriptor beyond
`MAXFDS` is closed at once. -/
def accepts (g : ServerLoops) (o : AcceptOutcome) : Option ServerLoops :=
  if g.reqInfo = none ∧ (0 ≤ o.acceptFd → g.opened o.acceptFd.toNat = false) then
    (g.listener.accepts o).map fun listener =>
      match g.listener.gives o with
      | some (loop, fd) => { g with
          listener := listener
          loops := Function.update g.loops loop ((g.loops loop).handNewConn fd)
          reqInfo := some (loop, (g.loops loop).made)
          opened := Function.update g.opened fd true }
      | none =>
          if 0 ≤ o.acceptFd ∧ o.acceptFd < Server.MAXFDS then { g with
            listener := listener
            opened := Function.update g.opened o.acceptFd.toNat true
            lost := g.lost ++ [o.acceptFd.toNat] }
          else { g with listener := listener }
  else none

def releases (g : ServerLoops) : Option ServerLoops :=
  match g.reqInfo with
  | some (loop, id) =>
      ((g.loops loop).acceptorReleases id).map fun w => { g.setLoop loop w with reqInfo := none }
  | none => none

def works (g : ServerLoops) (loop : Nat) (a : WorkerStep) : Option ServerLoops :=
  if loop < g.listener.server.eventLoopThreadPool.numThreads ∧ a.Own then
    ((g.loops loop).step a).map (g.setLoop loop)
  else none

def step (g : ServerLoops) : LoopsStep → Option ServerLoops
  | .arrives => some { g with listener := g.listener.arrives }
  | .reports revents => (g.listener.reports revents).map fun listener => { g with listener := listener }
  | .accepts o => g.accepts o
  | .releases => g.releases
  | .updates => g.listener.updates.map fun listener => { g with listener := listener }
  | .works loop a => g.works loop a

end ServerLoops

namespace Worker

variable {s t : Worker}

theorem mem_freed {fd : Nat} : fd ∈ freed s t ↔ ∃ id, s.Live id ∧ (t.objects id).destroyed = true ∧
    (s.objects id).conn.http.fd = fd := by
  simp only [freed, List.mem_map, List.mem_filter, List.mem_range, Bool.and_eq_true, Bool.not_eq_true', Live,
    and_assoc]

/-- Two live connections have different descriptors. -/
theorem Sound.distinct (hs : s.Sound) {i j : Nat} (hi : s.Live i) (hj : s.Live j)
    (h : (s.objects i).conn.http.fd = (s.objects j).conn.http.fd) : i = j := by
  rw [hs.inv.sameFd, hs.inv.sameFd] at h
  exact hs.inv.distinct i j hi hj h

theorem freed_nodup (hs : s.Sound) : (freed s t).Nodup := by
  refine List.Nodup.map_on (fun i hi j hj h => ?_) (List.nodup_range.filter _)
  simp only [List.mem_filter, List.mem_range, Bool.and_eq_true, Bool.not_eq_true'] at hi hj
  exact hs.distinct ⟨hi.1, hi.2.1⟩ ⟨hj.1, hj.2.1⟩ h

/-- A step that makes no connection leaves those that live as they are, and makes none live. -/
theorem step_live {a : WorkerStep} {log : List Nat} (he : Enrolled log s) (hstep : s.step a = some t)
    (harrivals : s.arrivals a = []) : t.made = s.made ∧ ∀ id, t.Live id →
      s.Live id ∧ (t.objects id).conn.http.fd = (s.objects id).conn.http.fd := by
  have hmade : t.made = s.made := by
    rw [(step_calls he.sound he.tidy he.paced hstep).made, harrivals]
    rfl
  refine ⟨hmade, fun id hid => ?_⟩
  have hlt : id < s.made := hmade ▸ hid.1
  have hages := step_lifelong ages_lifelong he.sound hlt hstep
  refine ⟨⟨hlt, ?_⟩, hages.httpFd⟩
  by_contra hdestroyed
  have hgone := hages.destroyed (by simpa using hdestroyed)
  rw [hid.2] at hgone
  cases hgone

theorem own_arrivals {a : WorkerStep} (ha : a.Own) : s.arrivals a = [] := by
  cases a with
  | accept fd => exact ha.elim
  | _ => rfl

theorem step_wakeupFd {a : WorkerStep} (hs : s.Sound) (hstep : s.step a = some t) :
    t.wakeupChannel.fd = s.wakeupChannel.fd := by
  cases a with
  | accept fd =>
      obtain ⟨-, -, rfl⟩ := accept_cases hstep
      rfl
  | acceptorReleases id =>
      obtain ⟨-, rfl⟩ := acceptorReleases_cases hstep
      exact (release_frame { s with acceptors := s.acceptors.erase id } id).fds .wakeup
  | poll events =>
      obtain ⟨-, -, rfl⟩ := poll_cases hstep
      have hfd : (getEventsReqeust events { s with ready := [] }).wakeupChannel.fd = s.wakeupChannel.fd :=
        getEventsReqeust_rule (P := fun t => t.wakeupChannel.fd = s.wakeupChannel.fd)
          (fun t request revents h => ((found_frame t request revents).fds .wakeup).trans h) events rfl
      exact hfd
  | handle io =>
      obtain ⟨request, rest, u, -, -, hslot, hrun, rfl⟩ := handle_cases hs hstep
      have hserved := handleEvents_served hs.inv hslot io
      rw [hrun] at hserved
      exact hserved.frame.fds .wakeup
  | swapFunctors =>
      obtain ⟨-, -, rfl⟩ := swapFunctors_cases hstep
      rfl
  | functor now ctlOk =>
      obtain ⟨id, -, -, rfl⟩ := functor_cases hstep
      exact (newEvent_frame s id now ctlOk).fds .wakeup
  | endFunctors =>
      obtain ⟨-, rfl⟩ := endFunctors_cases hstep
      exact (foldl_release_calm s.functors { s with functors := [] }).2.fds .wakeup
  | sweep nid now ctlOk =>
      obtain ⟨node, -, -, -, ⟨-, rfl⟩ | ⟨-, rfl⟩⟩ := sweep_cases hstep
      · obtain ⟨touched, hframe⟩ := dropTimer_frame s nid node ctlOk
        exact hframe.fds .wakeup
      · rfl
  | endSweep =>
      obtain ⟨-, -, rfl⟩ := endSweep_cases hstep
      rfl

end Worker

/-- The descriptors of the connections, in their order. -/
def Worker.connections (s : Worker) : List Nat :=
  (List.range s.made).map fun id => (s.objects id).conn.http.fd

theorem Worker.length_connections (s : Worker) : s.connections.length = s.made := by
  rw [connections, List.length_map, List.length_range]

theorem Worker.step_connections {s t : Worker} {a : WorkerStep} {log : List Nat} (he : Enrolled log s)
    (hstep : s.step a = some t) (harrivals : s.arrivals a = []) : t.connections = s.connections := by
  rw [connections, (step_live he hstep harrivals).1]
  refine List.map_congr_left fun id hid => ?_
  exact (step_lifelong ages_lifelong he.sound (List.mem_range.mp hid) hstep).httpFd

theorem Worker.handNewConn_connections (s : Worker) (fd : Nat) :
    (s.handNewConn fd).connections = s.connections ++ [fd] := by
  have hmade : (s.handNewConn fd).made = s.made + 1 := rfl
  rw [connections, hmade, List.range_succ, List.map_append, List.map_singleton, handNewConn_new]
  refine congrArg (· ++ [fd]) (List.map_congr_left fun id hid => ?_)
  rw [handNewConn_other _ (List.mem_range.mp hid).ne]

/-- The connections queued are those that are given to a loop. -/
theorem Listener.acceptOne_placed (l : Listener) (o : AcceptOutcome) :
    (l.server.acceptOne o).1.placed = l.server.placed ++ (l.gives o).toList := by
  unfold Server.acceptOne Listener.gives
  by_cases hfd : 0 < o.acceptFd
  · by_cases hmax : Server.MAXFDS ≤ o.acceptFd
    · have hgives : ¬ (0 < o.acceptFd ∧ o.acceptFd < Server.MAXFDS ∧ o.nonBlocking = true) :=
        fun h => absurd h.2.1 (Int.not_lt.mpr hmax)
      rw [if_pos hfd, if_pos hmax, if_neg hgives]
      exact (List.append_nil _).symm
    · by_cases hnonblocking : o.nonBlocking = true
      · rw [if_pos hfd, if_neg hmax, if_pos hnonblocking, if_pos ⟨hfd, Int.not_le.mp hmax, hnonblocking⟩]
        exact List.map_append
      · rw [if_pos hfd, if_neg hmax, if_neg hnonblocking, if_neg fun h => hnonblocking h.2.2]
        exact (List.append_nil _).symm
  · rw [if_neg hfd, if_neg fun h => hfd h.1]
    exact (List.append_nil _).symm

namespace ServerLoops

variable {u : ServerSetup} {g g' : ServerLoops}

/-! ### The descriptors of the process -/

/-- What is open is in use: by the server itself, by nobody, or by one connection of one loop. -/
structure Inv (u : ServerSetup) (g : ServerLoops) : Prop where
  numThreads : g.listener.server.eventLoopThreadPool.numThreads = u.pool.numThreads
  enrolled : ∀ loop < u.pool.numThreads, ∃ log, Worker.Enrolled log (g.loops loop)
  wakeupFds : ∀ loop < u.pool.numThreads, (g.loops loop).wakeupChannel.fd = u.wakeupFds loop
  holder : ∀ loop id, g.reqInfo = some (loop, id) → loop < u.pool.numThreads
  opened : ∀ fd, g.opened fd = true ↔ u.reserved fd = true ∨ fd ∈ g.lost ∨
    ∃ loop < u.pool.numThreads, ∃ id, (g.loops loop).Live id ∧ ((g.loops loop).objects id).conn.http.fd = fd
  apart : ∀ loop < u.pool.numThreads, ∀ id, (g.loops loop).Live id →
    u.reserved ((g.loops loop).objects id).conn.http.fd = false ∧
      ((g.loops loop).objects id).conn.http.fd ∉ g.lost
  distinct : ∀ loop < u.pool.numThreads, ∀ loop' < u.pool.numThreads, ∀ id id',
    (g.loops loop).Live id → (g.loops loop').Live id' →
      ((g.loops loop).objects id).conn.http.fd = ((g.loops loop').objects id').conn.http.fd → loop = loop'
  misclosed : g.misclosed = []

/-- The descriptors are open, each once: they are closed, and no call of `close` fails. -/
theorem foldl_close {fds : List Nat} (hnodup : fds.Nodup) (hopened : ∀ fd ∈ fds, g.opened fd = true) :
    fds.foldl close g = { g with opened := fun fd => g.opened fd && decide (fd ∉ fds) } := by
  induction fds generalizing g with
  | nil => simp
  | cons fd fds ih =>
      obtain ⟨hfd, hfds⟩ := List.nodup_cons.mp hnodup
      have hclose : g.close fd = { g with opened := Function.update g.opened fd false } :=
        if_pos (hopened fd List.mem_cons_self)
      rw [List.foldl_cons, hclose, ih hfds]
      · congr 1
        funext k
        by_cases hk : k = fd
        · subst hk
          simp
        · simp [hk]
      · intro k hk
        have hne : k ≠ fd := fun h => hfd (h ▸ hk)
        simpa only [Function.update_of_ne hne] using hopened k (List.mem_cons_of_mem fd hk)

theorem setLoop_eq (hg : g.Inv u) {loop : Nat} (hloop : loop < u.pool.numThreads) (w : Worker) :
    g.setLoop loop w = { g with
      loops := Function.update g.loops loop w
      opened := fun fd => g.opened fd && decide (fd ∉ Worker.freed (g.loops loop) w) } := by
  obtain ⟨log, he⟩ := hg.enrolled loop hloop
  refine foldl_close (Worker.freed_nodup he.sound) fun fd hfd => ?_
  obtain ⟨id, hid, -, rfl⟩ := Worker.mem_freed.mp hfd
  exact (hg.opened _).mpr (Or.inr (Or.inr ⟨loop, hloop, id, hid, rfl⟩))

/-- A step of a loop that makes no connection. -/
theorem setLoop_inv (hg : g.Inv u) {loop : Nat} (hloop : loop < u.pool.numThreads) {a : WorkerStep} {w : Worker}
    (hstep : (g.loops loop).step a = some w) (harrivals : (g.loops loop).arrivals a = []) :
    (g.setLoop loop w).Inv u := by
  obtain ⟨log, he⟩ := hg.enrolled loop hloop
  obtain ⟨hmade, hlive⟩ := Worker.step_live he hstep harrivals
  have hself : Function.update g.loops loop w loop = w := Function.update_self ..
  have hother {l : Nat} (hl : l ≠ loop) : Function.update g.loops loop w l = g.loops l :=
    Function.update_of_ne hl ..
  -- the connections that live on are those of before, with their descriptors
  have hbefore {l id : Nat} (hid : (Function.update g.loops loop w l).Live id) : (g.loops l).Live id ∧
      ((Function.update g.loops loop w l).objects id).conn.http.fd =
        ((g.loops l).objects id).conn.http.fd := by
    by_cases hl : l = loop
    · subst hl
      rw [hself] at hid ⊢
      exact hlive id hid
    · rw [hother hl] at hid ⊢
      exact ⟨hid, rfl⟩
  rw [setLoop_eq hg hloop]
  refine ⟨hg.numThreads, fun l hl => ?_, fun l hl => ?_, hg.holder, fun fd => ?_, fun l hl id hid => ?_,
    fun l hl l' hl' id id' hid hid' h => ?_, hg.misclosed⟩
  · by_cases hne : l = loop
    · subst hne
      exact ⟨_, hself.symm ▸ Worker.step_enrolled he hstep⟩
    · simpa only [hother hne] using hg.enrolled l hl
  · by_cases hne : l = loop
    · subst hne
      simpa only [hself] using (Worker.step_wakeupFd he.sound hstep).trans (hg.wakeupFds l hl)
    · simpa only [hother hne] using hg.wakeupFds l hl
  · simp only [Bool.and_eq_true, decide_eq_true_eq, hg.opened]
    constructor
    · rintro ⟨hreserved | hlost | ⟨l, hl, id, hid, rfl⟩, hfree⟩
      · exact Or.inl hreserved
      · exact Or.inr (Or.inl hlost)
      · refine Or.inr (Or.inr ⟨l, hl, id, ?_⟩)
        by_cases hne : l = loop
        · subst hne
          have hkept : w.Live id := by
            refine ⟨hmade ▸ hid.1, ?_⟩
            by_contra hgone
            exact hfree (Worker.mem_freed.mpr ⟨id, hid, by simpa using hgone, rfl⟩)
          rw [hself]
          exact ⟨hkept, (hlive id hkept).2⟩
        · rw [hother hne]
          exact ⟨hid, rfl⟩
    · have hfree {fd : Nat} (hused : ∀ id, (g.loops loop).Live id → (w.objects id).destroyed = true →
          ((g.loops loop).objects id).conn.http.fd ≠ fd) : fd ∉ Worker.freed (g.loops loop) w := fun hmem => by
        obtain ⟨id, hid, hgone, hfd⟩ := Worker.mem_freed.mp hmem
        exact hused id hid hgone hfd
      rintro (hreserved | hlost | ⟨l, hl, id, hid, rfl⟩)
      · refine ⟨Or.inl hreserved, hfree fun id hid _ h => ?_⟩
        rw [← h, (hg.apart loop hloop id hid).1] at hreserved
        cases hreserved
      · exact ⟨Or.inr (Or.inl hlost), hfree fun id hid _ h => (hg.apart loop hloop id hid).2 (h ▸ hlost)⟩
      · obtain ⟨hold, hfd⟩ := hbefore hid
        rw [hfd]
        refine ⟨Or.inr (Or.inr ⟨l, hl, id, hold, rfl⟩), hfree fun id' hid' hgone h => ?_⟩
        obtain rfl := hg.distinct loop hloop l hl id' id hid' hold h
        obtain rfl := he.sound.distinct hid' hold h
        rw [hself] at hid
        rw [hid.2] at hgone
        cases hgone
  · obtain ⟨hold, hfd⟩ := hbefore hid
    rw [hfd]
    exact hg.apart l hl id hold
  · obtain ⟨hold, hfd⟩ := hbefore hid
    obtain ⟨hold', hfd'⟩ := hbefore hid'
    exact hg.distinct l hl l' hl' id id' hold hold' (hfd.symm.trans (h.trans hfd'))

/-- What a call of `accept` does: a connection is made, a descriptor is lost, or there is none. -/
theorem accepts_cases {o : AcceptOutcome} (hstep : g.accepts o = some g') :
    ∃ listener, g.listener.accepts o = some listener ∧
      (0 ≤ o.acceptFd → g.opened o.acceptFd.toNat = false) ∧
      ((∃ loop fd, g.listener.gives o = some (loop, fd) ∧ g' = { g with
          listener := listener
          loops := Function.update g.loops loop ((g.loops loop).handNewConn fd)
          reqInfo := some (loop, (g.loops loop).made)
          opened := Function.update g.opened fd true }) ∨
        (g.listener.gives o = none ∧ 0 ≤ o.acceptFd ∧ g' = { g with
          listener := listener
          opened := Function.update g.opened o.acceptFd.toNat true
          lost := g.lost ++ [o.acceptFd.toNat] }) ∨
        g.listener.gives o = none ∧ g' = { g with listener := listener }) := by
  simp only [accepts, Option.ite_none_right_eq_some, Option.map_eq_some_iff] at hstep
  obtain ⟨hfree, listener, hlistener, rfl⟩ := hstep
  refine ⟨listener, hlistener, hfree.2, ?_⟩
  cases hgives : g.listener.gives o with
  | some q => exact Or.inl ⟨q.1, q.2, rfl, rfl⟩
  | none =>
      dsimp only
      split_ifs with hlost
      · exact Or.inr (Or.inl ⟨rfl, hlost.1, rfl⟩)
      · exact Or.inr (Or.inr ⟨rfl, rfl⟩)

theorem gives_cases {l : Listener} {o : AcceptOutcome} {loop fd : Nat} (h : l.gives o = some (loop, fd)) :
    loop = l.server.eventLoopThreadPool.next ∧ o.acceptFd.toNat = fd ∧ 0 < fd ∧ fd < Worker.MAXFDS ∧
      0 ≤ o.acceptFd := by
  simp only [Listener.gives, Option.ite_none_right_eq_some, Option.some.injEq, Prod.mk.injEq] at h
  obtain ⟨⟨hpos, hmax, -⟩, rfl, rfl⟩ := h
  have hmax' : Server.MAXFDS = 100000 := rfl
  refine ⟨rfl, rfl, by omega, ?_, by omega⟩
  rw [Worker.MAXFDS]
  omega

theorem acceptOne_numThreads (s : Server) (o : AcceptOutcome) :
    (s.acceptOne o).1.eventLoopThreadPool.numThreads = s.eventLoopThreadPool.numThreads := by
  unfold Server.acceptOne
  split_ifs <;> rfl

theorem listener_numThreads {l l' : Listener} {a : ListenStep} (hstep : l.step a = some l') :
    l'.server.eventLoopThreadPool.numThreads = l.server.eventLoopThreadPool.numThreads := by
  cases a with
  | arrives =>
      cases hstep
      rfl
  | reports revents =>
      obtain ⟨-, -, -, rfl⟩ := Listener.reports_cases hstep
      rfl
  | accepts o =>
      obtain ⟨-, rfl⟩ := Listener.accepts_cases hstep
      exact acceptOne_numThreads l.server o
  | updates =>
      obtain ⟨-, hserver, -⟩ := Listener.updates_cases hstep
      rw [hserver, l.server.handThisConn_connections.1]

/-- A step of the listening thread that changes nothing but its own state. -/
theorem setListener_inv (hg : g.Inv u) {listener : Listener}
    (hthreads : listener.server.eventLoopThreadPool.numThreads =
      g.listener.server.eventLoopThreadPool.numThreads) : Inv u { g with listener := listener } :=
  { hg with numThreads := hthreads.trans hg.numThreads }

/-- The loop may be handed a descriptor that was not open. -/
theorem accept_guard (hg : g.Inv u) {loop fd : Nat} (hloop : loop < u.pool.numThreads) (hpos : 0 < fd)
    (hmax : fd < Worker.MAXFDS) (hclosed : g.opened fd = false) :
    (g.loops loop).accept fd = some ((g.loops loop).handNewConn fd) := by
  refine if_pos ⟨hpos, hmax, fun hwakeup => ?_, fun id hid hlive hfd => ?_⟩
  · have hopened := (hg.opened fd).mpr (Or.inl (hwakeup ▸ hg.wakeupFds loop hloop ▸ u.wakeups loop hloop))
    rw [hclosed] at hopened
    cases hopened
  · have hopened := (hg.opened fd).mpr (Or.inr (Or.inr ⟨loop, hloop, id, ⟨hid, hlive⟩, hfd⟩))
    rw [hclosed] at hopened
    cases hopened

theorem made_inv (hg : g.Inv u) {loop fd : Nat} (hloop : loop < u.pool.numThreads) (hpos : 0 < fd)
    (hmax : fd < Worker.MAXFDS) (hclosed : g.opened fd = false) :
    Inv u { g with
      loops := Function.update g.loops loop ((g.loops loop).handNewConn fd)
      reqInfo := some (loop, (g.loops loop).made)
      opened := Function.update g.opened fd true } := by
  obtain ⟨log, he⟩ := hg.enrolled loop hloop
  have haccept := accept_guard hg hloop hpos hmax hclosed
  have hself : Function.update g.loops loop ((g.loops loop).handNewConn fd) loop =
      (g.loops loop).handNewConn fd := Function.update_self ..
  have hother {l : Nat} (hl : l ≠ loop) :
      Function.update g.loops loop ((g.loops loop).handNewConn fd) l = g.loops l :=
    Function.update_of_ne hl ..
  have hunused {l : Nat} (hl : l < u.pool.numThreads) {id : Nat} (hid : (g.loops l).Live id) :
      ((g.loops l).objects id).conn.http.fd ≠ fd := fun h => by
    have hopened := (hg.opened fd).mpr (Or.inr (Or.inr ⟨l, hl, id, hid, h⟩))
    rw [hclosed] at hopened
    cases hopened
  -- a live connection is the new one, or one of before
  have hcases {l id : Nat} (hid : (Function.update g.loops loop ((g.loops loop).handNewConn fd) l).Live id) :
      (l = loop ∧ ((Function.update g.loops loop ((g.loops loop).handNewConn fd) l).objects id).conn.http.fd =
        fd) ∨ ((g.loops l).Live id ∧
      ((Function.update g.loops loop ((g.loops loop).handNewConn fd) l).objects id).conn.http.fd =
        ((g.loops l).objects id).conn.http.fd) := by
    by_cases hl : l = loop
    · subst hl
      rw [hself] at hid ⊢
      rcases Worker.live_of_handNewConn hid with rfl | ⟨hne, hold⟩
      · rw [Worker.handNewConn_new]
        exact Or.inl ⟨rfl, rfl⟩
      · rw [Worker.handNewConn_other _ hne]
        exact Or.inr ⟨hold, rfl⟩
    · rw [hother hl] at hid ⊢
      exact Or.inr ⟨hid, rfl⟩
  have hkept {l id : Nat} (hid : (g.loops l).Live id) :
      (Function.update g.loops loop ((g.loops loop).handNewConn fd) l).Live id ∧
        ((Function.update g.loops loop ((g.loops loop).handNewConn fd) l).objects id).conn.http.fd =
          ((g.loops l).objects id).conn.http.fd := by
    by_cases hl : l = loop
    · subst hl
      rw [hself, Worker.handNewConn_other _ hid.1.ne]
      exact ⟨Worker.handNewConn_live fd hid, rfl⟩
    · rw [hother hl]
      exact ⟨hid, rfl⟩
  refine ⟨hg.numThreads, fun l hl => ?_, fun l hl => ?_, fun l id h => ?_, fun k => ?_, fun l hl id hid => ?_,
    fun l hl l' hl' id id' hid hid' h => ?_, hg.misclosed⟩
  · by_cases hne : l = loop
    · subst hne
      exact ⟨_, hself.symm ▸ Worker.step_enrolled (a := .accept fd) he haccept⟩
    · simpa only [hother hne] using hg.enrolled l hl
  · by_cases hne : l = loop
    · subst hne
      exact (congrArg (fun w => w.wakeupChannel.fd) hself).trans (hg.wakeupFds l hl)
    · simpa only [hother hne] using hg.wakeupFds l hl
  · cases h
    exact hloop
  · have hopened : Function.update g.opened fd true k = true ↔ k = fd ∨ g.opened k = true := by
      by_cases hk : k = fd
      · simp [hk]
      · simp [hk]
    rw [hopened, hg.opened]
    constructor
    · rintro (rfl | hreserved | hlost | ⟨l, hl, id, hid, rfl⟩)
      · refine Or.inr (Or.inr ⟨loop, hloop, (g.loops loop).made, ?_, ?_⟩)
        · dsimp only
          rw [hself]
          exact ⟨Nat.lt_succ_self _, by rw [Worker.handNewConn_new]⟩
        · dsimp only
          rw [hself, Worker.handNewConn_new]
          rfl
      · exact Or.inl hreserved
      · exact Or.inr (Or.inl hlost)
      · exact Or.inr (Or.inr ⟨l, hl, id, hkept hid⟩)
    · rintro (hreserved | hlost | ⟨l, hl, id, hid, rfl⟩)
      · exact Or.inr (Or.inl hreserved)
      · exact Or.inr (Or.inr (Or.inl hlost))
      · rcases hcases hid with ⟨-, hfd⟩ | ⟨hold, hfd⟩
        · exact Or.inl hfd
        · exact Or.inr (Or.inr (Or.inr ⟨l, hl, id, hold, hfd.symm⟩))
  · rcases hcases hid with ⟨-, hfd⟩ | ⟨hold, hfd⟩
    · rw [hfd]
      have hnot : ¬ (u.reserved fd = true ∨ fd ∈ g.lost) := fun h => by
        have hopened := (hg.opened fd).mpr (h.imp_right Or.inl)
        rw [hclosed] at hopened
        cases hopened
      exact ⟨by simpa using fun h => hnot (Or.inl h), fun h => hnot (Or.inr h)⟩
    · rw [hfd]
      exact hg.apart l hl id hold
  · rcases hcases hid with ⟨rfl, hfd⟩ | ⟨hold, hfd⟩ <;> rcases hcases hid' with ⟨rfl, hfd'⟩ | ⟨hold', hfd'⟩
    · rfl
    · exact absurd (hfd'.symm.trans (h.symm.trans hfd)) (hunused hl' hold')
    · exact absurd (hfd.symm.trans (h.trans hfd')) (hunused hl hold)
    · exact hg.distinct l hl l' hl' id id' hold hold' (hfd.symm.trans (h.trans hfd'))

theorem lost_inv (hg : g.Inv u) {fd : Nat} (hclosed : g.opened fd = false) :
    Inv u { g with opened := Function.update g.opened fd true, lost := g.lost ++ [fd] } := by
  refine { hg with
    opened := fun k => ?_
    apart := fun l hl id hid => ?_ }
  · have hopened : Function.update g.opened fd true k = true ↔ k = fd ∨ g.opened k = true := by
      by_cases hk : k = fd
      · simp [hk]
      · simp [hk]
    rw [hopened, hg.opened, List.mem_append, List.mem_singleton]
    tauto
  · obtain ⟨hreserved, hlost⟩ := hg.apart l hl id hid
    refine ⟨hreserved, fun hmem => ?_⟩
    rcases List.mem_append.mp hmem with hmem | hmem
    · exact hlost hmem
    · have hopened := (hg.opened _).mpr (Or.inr (Or.inr ⟨l, hl, id, hid, rfl⟩))
      rw [List.mem_singleton.mp hmem, hclosed] at hopened
      cases hopened

theorem accepts_inv (hg : g.Inv u) {o : AcceptOutcome} (hstep : g.accepts o = some g') : g'.Inv u := by
  obtain ⟨listener, hlistener, hclosed, hcases⟩ := accepts_cases hstep
  have hthreads := listener_numThreads (a := .accepts o) hlistener
  rcases hcases with ⟨loop, fd, hgives, rfl⟩ | ⟨-, hfd, rfl⟩ | ⟨-, rfl⟩
  · obtain ⟨rfl, rfl, hpos, hmax, hfd⟩ := gives_cases hgives
    have hloop := hg.numThreads ▸ g.listener.server.eventLoopThreadPool.next_lt
    exact setListener_inv (made_inv hg hloop hpos hmax (hclosed hfd)) hthreads
  · exact setListener_inv (lost_inv hg (hclosed hfd)) hthreads
  · exact setListener_inv hg hthreads

theorem releases_cases (hstep : g.releases = some g') : ∃ loop id w, g.reqInfo = some (loop, id) ∧
    (g.loops loop).step (.acceptorReleases id) = some w ∧ g' = { g.setLoop loop w with reqInfo := none } := by
  unfold releases at hstep
  split at hstep
  · rename_i loop id hheld
    obtain ⟨w, hw, rfl⟩ := Option.map_eq_some_iff.mp hstep
    exact ⟨loop, id, w, hheld, hw, rfl⟩
  · cases hstep

theorem works_cases {loop : Nat} {a : WorkerStep} (hstep : g.works loop a = some g') :
    loop < g.listener.server.eventLoopThreadPool.numThreads ∧ a.Own ∧
      ∃ w, (g.loops loop).step a = some w ∧ g' = g.setLoop loop w := by
  unfold works at hstep
  split_ifs at hstep with hown
  obtain ⟨w, hw, rfl⟩ := Option.map_eq_some_iff.mp hstep
  exact ⟨hown.1, hown.2, w, hw, rfl⟩

theorem step_inv {a : LoopsStep} (hg : g.Inv u) (hstep : g.step a = some g') : g'.Inv u := by
  cases a with
  | arrives =>
      cases hstep
      exact setListener_inv hg rfl
  | reports revents =>
      obtain ⟨listener, hlistener, rfl⟩ := Option.map_eq_some_iff.mp hstep
      exact setListener_inv hg (listener_numThreads (a := .reports revents) hlistener)
  | accepts o => exact accepts_inv hg hstep
  | releases =>
      obtain ⟨loop, id, w, hheld, hw, rfl⟩ := releases_cases hstep
      exact { setLoop_inv hg (hg.holder loop id hheld) hw rfl with holder := fun _ _ h => nomatch h }
  | updates =>
      obtain ⟨listener, hlistener, rfl⟩ := Option.map_eq_some_iff.mp hstep
      exact setListener_inv hg (listener_numThreads (a := .updates) hlistener)
  | works loop a =>
      obtain ⟨hloop, hown, w, hw, rfl⟩ := works_cases hstep
      exact setLoop_inv hg (hg.numThreads ▸ hloop) hw (Worker.own_arrivals hown)

theorem start_inv (u : ServerSetup) : (start u).Inv u := by
  have hcreated (loop : Nat) : (Worker.created (u.wakeupFds loop) (u.ctlOk loop)).made = 0 ∧
      (Worker.created (u.wakeupFds loop) (u.ctlOk loop)).wakeupChannel.fd = u.wakeupFds loop := by
    cases u.ctlOk loop <;> exact ⟨rfl, rfl⟩
  have hdead (loop id : Nat) : ¬ ((start u).loops loop).Live id := fun h => by
    have hmade : id < (Worker.created (u.wakeupFds loop) (u.ctlOk loop)).made := h.1
    rw [(hcreated loop).1] at hmade
    exact Nat.not_lt_zero id hmade
  refine ⟨rfl, fun loop _ => ⟨[], Worker.created_enrolled _ _⟩, fun loop _ => (hcreated loop).2,
    fun _ _ => (nomatch ·), fun fd => ?_, fun loop _ id h => absurd h (hdead loop id),
    fun loop _ _ _ id _ h => absurd h (hdead loop id), rfl⟩
  constructor
  · exact Or.inl
  · rintro (h | h | ⟨loop, -, id, h, -⟩)
    · exact h
    · cases h
    · exact absurd h (hdead loop id)

theorem run_inv {as : List LoopsStep} (hrun : Run step (fun _ _ => True) (start u) as g) : g.Inv u :=
  hrun.invariant (fun _ _ _ _ hstep hg => step_inv hg hstep) (start_inv u)

/-- **Whose descriptor it is.** In every run of the server, in whatever order its threads take their steps, a
descriptor that is open is one the server has opened for itself, one that the listening thread has lost, or
that of a single live connection of a single loop; and no descriptor is closed that is not open. -/
theorem run_descriptors {as : List LoopsStep} (hrun : Run step (fun _ _ => True) (start u) as g) :
    (∀ fd, g.opened fd = true ↔ u.reserved fd = true ∨ fd ∈ g.lost ∨ ∃ loop < u.pool.numThreads, ∃ id,
        (g.loops loop).Live id ∧ ((g.loops loop).objects id).conn.http.fd = fd) ∧
      (∀ loop < u.pool.numThreads, ∀ id, (g.loops loop).Live id →
        u.reserved ((g.loops loop).objects id).conn.http.fd = false ∧
          ((g.loops loop).objects id).conn.http.fd ∉ g.lost ∧
          ∀ loop' < u.pool.numThreads, ∀ id', (g.loops loop').Live id' →
            ((g.loops loop').objects id').conn.http.fd = ((g.loops loop).objects id).conn.http.fd →
              loop' = loop ∧ id' = id) ∧
      g.misclosed = [] := by
  have hg := run_inv hrun
  refine ⟨hg.opened, fun loop hloop id hid => ?_, hg.misclosed⟩
  obtain ⟨hreserved, hlost⟩ := hg.apart loop hloop id hid
  refine ⟨hreserved, hlost, fun loop' hloop' id' hid' h => ?_⟩
  obtain rfl := hg.distinct loop' hloop' loop hloop id' id hid' hid h
  obtain ⟨log, he⟩ := hg.enrolled loop' hloop'
  exact ⟨rfl, he.sound.distinct hid' hid h⟩

/-- Two loops that are woken by the descriptors 4 and 5. -/
def twoLoops : ServerSetup where
  pool := ⟨2, 0, by decide⟩
  listenFd := 3
  wakeupFds loop := loop + 4
  ctlOk _ := true
  reserved fd := fd < 6
  wakeups := fun loop hloop => by
    have hlt : loop < 2 := hloop
    simpa using Nat.add_lt_add_right hlt 4

/-- The first connection is closed by its loop, and the second, with the same descriptor, is given to the
other. -/
def reuse : List LoopsStep :=
  [.arrives, .arrives, .reports EPOLLIN, .accepts ⟨6, true⟩, .releases, .works 0 (.poll [(4, EPOLLIN)]),
    .works 0 (.handle ⟨someHost, [], [], 0, true⟩), .works 0 .swapFunctors, .works 0 (.functor 0 true),
    .works 0 .endFunctors, .works 0 (.sweep 0 1 true), .works 0 (.poll [(6, EPOLLIN)]),
    .works 0 (.handle ⟨someHost, [.eof], [], 2, true⟩), .accepts ⟨6, true⟩, .releases,
    .accepts ⟨-1, true⟩, .updates]

theorem run_descriptors_reuse :
    ∃ g : ServerLoops, ((g.loops 0).objects 0).destroyed = true ∧ (g.loops 1).Live 0 ∧
      ((g.loops 1).objects 0).conn.http.fd = 6 ∧ g.opened 6 = true ∧ g.misclosed = [] := by
  have hexec : (exec (checked step fun _ _ => True) (start twoLoops) reuse).map
      (fun g => (((g.loops 0).objects 0).destroyed, decide ((g.loops 1).Live 0),
        ((g.loops 1).objects 0).conn.http.fd)) = some (true, true, 6) := by
    decide +kernel
  obtain ⟨g, ht, hends⟩ := Option.map_eq_some_iff.mp hexec
  simp only [Prod.mk.injEq, decide_eq_true_eq] at hends
  obtain ⟨hdestroyed, hlive, hfd⟩ := hends
  obtain ⟨hopened, -, hmisclosed⟩ := run_descriptors (run_of_exec_checked ht)
  refine ⟨g, hdestroyed, hlive, hfd, (hopened 6).mpr ?_, hmisclosed⟩
  exact Or.inr (Or.inr ⟨1, Nat.one_lt_two, 0, hlive, hfd⟩)

/-! ### The loops, each by itself -/

/-- The steps of the loop in a step of the server. -/
def workerSteps (loop : Nat) (g : ServerLoops) : LoopsStep → List WorkerStep
  | .accepts o =>
      match g.listener.gives o with
      | some (l, fd) => if l = loop then [.accept fd] else []
      | none => []
  | .releases =>
      match g.reqInfo with
      | some (l, id) => if l = loop then [.acceptorReleases id] else []
      | none => []
  | .works l a => if l = loop then [a] else []
  | .arrives | .reports _ | .updates => []

/-- A step of one loop is a step of that loop, and of no other. -/
theorem setLoop_seen (hg : g.Inv u) {l loop : Nat} (hl : l < u.pool.numThreads) {a : WorkerStep} {w : Worker}
    (hstep : (g.loops l).step a = some w) :
    Run Worker.step (fun _ _ => True) (g.loops loop) (if l = loop then [a] else [])
      ((g.setLoop l w).loops loop) := by
  rw [setLoop_eq hg hl]
  split_ifs with h
  · subst h
    have hself : Function.update g.loops l w l = w := Function.update_self ..
    exact .single trivial (hstep.trans (congrArg some hself.symm))
  · exact .unseen (Function.update_of_ne (fun h' => h h'.symm) ..).symm

theorem loop_projects {loop : Nat} : Projects step (fun _ _ => True) (Inv u) Worker.step
    (fun _ _ => True) (fun g => g.loops loop) (workerSteps loop) where
  keeps := fun _ _ _ _ hstep hg => step_inv hg hstep
  seen := by
    intro g a g' _ hstep hg
    cases a with
    | arrives =>
        cases hstep
        exact .nil _
    | reports revents =>
        obtain ⟨listener, -, rfl⟩ := Option.map_eq_some_iff.mp hstep
        exact .nil _
    | accepts o =>
        obtain ⟨listener, -, hclosed, ⟨l, fd, hgives, rfl⟩ | ⟨hgives, -, rfl⟩ | ⟨hgives, rfl⟩⟩ :=
          accepts_cases hstep
        · obtain ⟨hl, hfd, hpos, hmax, hnonneg⟩ := gives_cases hgives
          have hl' : l < u.pool.numThreads := by
            rw [hl, ← hg.numThreads]
            exact g.listener.server.eventLoopThreadPool.next_lt
          have haccept := accept_guard hg hl' hpos hmax (hfd ▸ hclosed hnonneg)
          simp only [workerSteps, hgives]
          split_ifs with h
          · subst h
            have hself : Function.update g.loops l ((g.loops l).handNewConn fd) l =
                (g.loops l).handNewConn fd := Function.update_self ..
            exact .single trivial (haccept.trans (congrArg some hself.symm))
          · exact .unseen (Function.update_of_ne (fun h' => h h'.symm) ..).symm
        · simp only [workerSteps, hgives]
          exact .nil _
        · simp only [workerSteps, hgives]
          exact .nil _
    | releases =>
        obtain ⟨l, id, w, hheld, hw, rfl⟩ := releases_cases hstep
        simp only [workerSteps, hheld]
        exact setLoop_seen hg (hg.holder l id hheld) hw
    | updates =>
        obtain ⟨listener, -, rfl⟩ := Option.map_eq_some_iff.mp hstep
        exact .nil _
    | works l a =>
        obtain ⟨hl, -, w, hw, rfl⟩ := works_cases hstep
        exact setLoop_seen hg (hg.numThreads ▸ hl) hw

/-- **Each loop runs as a worker.** In a run of the server, the steps of each of its loops and those of the
listening thread on it are a run of a worker; so what holds of every run of a worker holds of each loop, in
whatever order the threads take their steps. -/
theorem run_loop {as : List LoopsStep} (hrun : Run step (fun _ _ => True) (start u) as g) (loop : Nat) :
    Run Worker.step (fun _ _ => True) (Worker.created (u.wakeupFds loop) (u.ctlOk loop))
        (emitted step (workerSteps loop) (start u) as) (g.loops loop) ∧
      ∀ P : Worker → Prop, (∀ bs w, Run Worker.step (fun _ _ => True)
        (Worker.created (u.wakeupFds loop) (u.ctlOk loop)) bs w → P w) → P (g.loops loop) :=
  ⟨loop_projects.run hrun (start_inv u), fun _ hP => loop_projects.transfer hP hrun (start_inv u)⟩

theorem run_loop_reuse :
    ∃ g : ServerLoops, (g.loops 0).made = 1 ∧ (g.loops 0).misuse = false := by
  have hexec : (exec (checked step fun _ _ => True) (start twoLoops) reuse).map (fun g => (g.loops 0).made) =
      some 1 := by
    decide +kernel
  obtain ⟨g, ht, hmade⟩ := Option.map_eq_some_iff.mp hexec
  refine ⟨g, hmade, (run_loop (run_of_exec_checked ht) 0).2 (fun w => w.misuse = false) fun bs w hrun => ?_⟩
  exact (Worker.run_sound hrun).unharmed

/-! ### Who serves whom -/

/-- The steps of the listening thread. -/
def listenSteps (_ : ServerLoops) : LoopsStep → List ListenStep
  | .arrives => [.arrives]
  | .reports revents => [.reports revents]
  | .accepts o => [.accepts o]
  | .updates => [.updates]
  | .releases | .works _ _ => []

theorem setLoop_listener (hg : g.Inv u) {loop : Nat} (hloop : loop < u.pool.numThreads) (w : Worker) :
    (g.setLoop loop w).listener = g.listener := by
  rw [setLoop_eq hg hloop]

theorem listener_projects : Projects step (fun _ _ => True) (Inv u) Listener.step (fun _ _ => True)
    (fun g => g.listener) listenSteps where
  keeps := fun _ _ _ _ hstep hg => step_inv hg hstep
  seen := by
    intro g a g' _ hstep hg
    cases a with
    | arrives =>
        cases hstep
        exact .single trivial rfl
    | reports revents =>
        obtain ⟨listener, hlistener, rfl⟩ := Option.map_eq_some_iff.mp hstep
        exact .single trivial hlistener
    | accepts o =>
        obtain ⟨listener, hlistener, -, ⟨l, fd, -, rfl⟩ | ⟨-, -, rfl⟩ | ⟨-, rfl⟩⟩ := accepts_cases hstep
        all_goals exact .single trivial hlistener
    | releases =>
        obtain ⟨l, id, w, hheld, -, rfl⟩ := releases_cases hstep
        exact .unseen (setLoop_listener hg (hg.holder l id hheld) w).symm
    | updates =>
        obtain ⟨listener, hlistener, rfl⟩ := Option.map_eq_some_iff.mp hstep
        exact .single trivial hlistener
    | works l a =>
        obtain ⟨hl, -, w, -, rfl⟩ := works_cases hstep
        exact .unseen (setLoop_listener hg (hg.numThreads ▸ hl) w).symm

/-- The descriptors of the connections that were queued for the loop. -/
def placedOn (g : ServerLoops) (loop : Nat) : List Nat :=
  (g.listener.server.placed.filter fun q => decide (q.1 = loop)).map Prod.snd

theorem length_placedOn (g : ServerLoops) (loop : Nat) :
    (g.placedOn loop).length = Rotation.load loop g.listener.server.placed := by
  rw [placedOn, List.length_map, Rotation.load, List.countP_eq_length_filter]

/-- Every loop has the connections that were queued for it. -/
def Matched (u : ServerSetup) (g : ServerLoops) : Prop :=
  ∀ loop < u.pool.numThreads, (g.loops loop).connections = g.placedOn loop

theorem setLoop_matched (hg : g.Inv u) (hmatched : g.Matched u) {l : Nat} (hl : l < u.pool.numThreads)
    {a : WorkerStep} {w : Worker} (hstep : (g.loops l).step a = some w) (harrivals : (g.loops l).arrivals a = []) :
    (g.setLoop l w).Matched u := by
  obtain ⟨log, he⟩ := hg.enrolled l hl
  rw [setLoop_eq hg hl]
  intro loop hloop
  refine Eq.trans ?_ (hmatched loop hloop)
  by_cases h : loop = l
  · subst h
    dsimp only
    rw [Function.update_self]
    exact Worker.step_connections he hstep harrivals
  · dsimp only
    rw [Function.update_of_ne h]

theorem setListener_matched (hmatched : g.Matched u) {listener : Listener}
    (hplaced : listener.server.placed = g.listener.server.placed) :
    Matched u { g with listener := listener } := by
  intro loop hloop
  rw [placedOn, hplaced]
  exact hmatched loop hloop

theorem accepts_matched (hmatched : g.Matched u) {o : AcceptOutcome} (hstep : g.accepts o = some g') :
    g'.Matched u := by
  obtain ⟨listener, hlistener, -, hcases⟩ := accepts_cases hstep
  obtain ⟨-, rfl⟩ := Listener.accepts_cases hlistener
  have hplaced := g.listener.acceptOne_placed o
  rcases hcases with ⟨l, fd, hgives, rfl⟩ | ⟨hgives, -, rfl⟩ | ⟨hgives, rfl⟩
  · intro loop hloop
    rw [hgives, Option.toList_some] at hplaced
    rw [placedOn]
    dsimp only
    rw [hplaced, List.filter_append, List.map_append]
    by_cases h : loop = l
    · subst h
      rw [Function.update_self, Worker.handNewConn_connections, hmatched loop hloop]
      simp only [placedOn, decide_true, List.filter_cons_of_pos, List.filter_nil, List.map_cons, List.map_nil]
    · have hnone : [(l, fd)].filter (fun q => decide (q.1 = loop)) = [] :=
        List.filter_cons_of_neg (by simpa using fun h' => h h'.symm)
      rw [Function.update_of_ne h, hnone, List.map_nil, List.append_nil]
      exact hmatched loop hloop
  all_goals
    rw [hgives, Option.toList_none, List.append_nil] at hplaced
    exact setListener_matched hmatched hplaced

theorem step_matched {a : LoopsStep} (hg : g.Inv u) (hmatched : g.Matched u) (hstep : g.step a = some g') :
    g'.Matched u := by
  cases a with
  | arrives =>
      cases hstep
      exact setListener_matched hmatched rfl
  | reports revents =>
      obtain ⟨listener, hlistener, rfl⟩ := Option.map_eq_some_iff.mp hstep
      obtain ⟨-, -, -, rfl⟩ := Listener.reports_cases hlistener
      exact setListener_matched hmatched rfl
  | accepts o => exact accepts_matched hmatched hstep
  | releases =>
      obtain ⟨loop, id, w, hheld, hw, rfl⟩ := releases_cases hstep
      have hset := setLoop_matched hg hmatched (hg.holder loop id hheld) hw rfl
      exact hset
  | updates =>
      obtain ⟨listener, hlistener, rfl⟩ := Option.map_eq_some_iff.mp hstep
      obtain ⟨-, hserver, -⟩ := Listener.updates_cases hlistener
      refine setListener_matched hmatched ?_
      rw [Server.placed, hserver, g.listener.server.handThisConn_connections.2.2]
      rfl
  | works loop a =>
      obtain ⟨hloop, hown, w, hw, rfl⟩ := works_cases hstep
      exact setLoop_matched hg hmatched (hg.numThreads ▸ hloop) hw (Worker.own_arrivals hown)

theorem start_matched (u : ServerSetup) : (start u).Matched u := by
  intro loop _
  have hmade : (Worker.created (u.wakeupFds loop) (u.ctlOk loop)).made = 0 := by
    cases u.ctlOk loop <;> rfl
  have hnone : (Worker.created (u.wakeupFds loop) (u.ctlOk loop)).connections = [] := by
    rw [Worker.connections, hmade]
    rfl
  exact hnone

/-- **Every connection has its loop.** In every run of the server the connections of each loop are those that
the listening thread has queued for it, in their order: none is lost between the threads, served twice or
served by another loop. The loops have got their connections in turn, so that one has at most one more than
another, not counting the descriptors for which there is no connection. -/
theorem run_connections {as : List LoopsStep} (hrun : Run step (fun _ _ => True) (start u) as g) :
    (∀ loop < u.pool.numThreads, (g.loops loop).connections = g.placedOn loop) ∧
      g.listener.server.placed.Sublist
        (Rotation.turns u.pool.numThreads u.pool.next g.listener.server.accepted) ∧
      ∀ loop loop', loop < u.pool.numThreads → loop' < u.pool.numThreads →
        (g.loops loop).made ≤ (g.loops loop').made +
          (g.listener.server.accepted.length - g.listener.server.queued.length) + 1 := by
  have hmatched : g.Matched u := (hrun.invariant (I := fun g => g.Inv u ∧ g.Matched u)
    (fun _ _ _ _ hstep h => ⟨step_inv h.1 hstep, step_matched h.1 h.2 hstep⟩)
    ⟨start_inv u, start_matched u⟩).2
  have hrotates := Listener.run_rotates (listener_projects.run hrun (start_inv u))
  refine ⟨hmatched, hrotates.placed, fun loop loop' hloop hloop' => ?_⟩
  have hmade (l : Nat) (hl : l < u.pool.numThreads) :
      (g.loops l).made = Rotation.load l g.listener.server.placed := by
    rw [← Worker.length_connections, hmatched l hl, length_placedOn]
  have hlength : g.listener.server.placed.length = g.listener.server.queued.length := List.length_map ..
  rw [hmade loop hloop, hmade loop' hloop', ← hlength]
  exact Rotation.load_le_of_sublist hloop hloop' hrotates.placed

theorem run_connections_reuse :
    ∃ g : ServerLoops, (g.loops 0).connections = [6] ∧ (g.loops 1).connections = [6] ∧
      g.listener.server.placed = [(0, 6), (1, 6)] := by
  have hexec : (exec (checked step fun _ _ => True) (start twoLoops) reuse).map
      (fun g => g.listener.server.placed) = some [(0, 6), (1, 6)] := by
    decide +kernel
  obtain ⟨g, ht, hplaced⟩ := Option.map_eq_some_iff.mp hexec
  obtain ⟨hmatched, -⟩ := run_connections (run_of_exec_checked ht)
  refine ⟨g, (hmatched 0 Nat.zero_lt_two).trans ?_, (hmatched 1 Nat.one_lt_two).trans ?_, hplaced⟩
  · rw [placedOn, hplaced]
    rfl
  · rw [placedOn, hplaced]
    rfl

end ServerLoops

end WebServer
