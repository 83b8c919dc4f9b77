import Mathlib.Data.List.AList
import WebServer.HttpHandleConn
import WebServer.LoopWakeup

/-! A worker: the poller with its tables and its timers, the connections it serves, and the loop around
them, as one machine. A connection lives as long as a table entry, a timer node, a functor or the
listening thread refers to it, and the last of these references to go destroys it. The channels call
back into their connection without such a reference; a call into a destroyed one is a fault. -/

namespace WebServer

/-- A channel of the poller: the wakeup channel, or that of a connection. -/
inductive ChannelRef where
  | wakeup
  | http (id : Nat)
  deriving DecidableEq

structure TimerNode where
  deleted : Bool
  expiredTime : Nat
  /-- `m_SPHttpData`. -/
  requestData : Option Nat
  deriving DecidableEq

/-- An `HttpData` with its channel, its link to a timer node, and what happened to it. -/
structure HttpObject where
  conn : Conn
  /-- `m_timer`. -/
  timer : Option Nat
  /-- `newEvent` was called for it, whatever became of its `EPOLL_CTL_ADD`. -/
  registered : Bool
  /-- `epoll_del` was called. -/
  removed : Bool
  destroyed : Bool

/-- A table by descriptor, or by the number of a timer node. -/
def Table (α : Type) := AList (fun _ : Nat => α)

namespace Table

variable {α : Type}

def empty : Table α := (∅ : AList fun _ => α)

def get (t : Table α) (k : Nat) : Option α := AList.lookup k t

def set (t : Table α) (k : Nat) (a : α) : Table α := AList.insert k a t

def reset (t : Table α) (k : Nat) : Table α := AList.erase k t

def toList (t : Table α) : List (Nat × α) := t.entries.map fun e => (e.1, e.2)

@[simp] theorem get_set_self (t : Table α) (k : Nat) (a : α) : (t.set k a).get k = some a :=
  AList.lookup_insert t

theorem get_set_of_ne (t : Table α) {k k' : Nat} (h : k' ≠ k) (a : α) : (t.set k a).get k' = t.get k' :=
  AList.lookup_insert_ne h

@[simp] theorem get_reset_self (t : Table α) (k : Nat) : (t.reset k).get k = none := AList.lookup_erase k t

theorem get_reset_of_ne (t : Table α) {k k' : Nat} (h : k' ≠ k) : (t.reset k).get k' = t.get k' :=
  AList.lookup_erase_ne h

theorem mem_toList {t : Table α} {k : Nat} {a : α} : (k, a) ∈ t.toList ↔ t.get k = some a := by
  simp only [toList, List.mem_map, Prod.mk.injEq]
  constructor
  · rintro ⟨⟨_, _⟩, he, rfl, rfl⟩
    exact AList.mem_lookup_iff.mpr he
  · exact fun h => ⟨⟨k, a⟩, AList.mem_lookup_iff.mp h, rfl, rfl⟩

end Table

inductive WorkerPc where
  | poll
  /-- In the loop over the channels that are ready. -/
  | dispatch
  /-- In `doPendingFunctors`. -/
  | functors
  /-- In `handleExpiredEvent`. -/
  | sweep
  deriving DecidableEq

structure Worker where
  wakeupChannel : Channel
  objects : Nat → HttpObject
  /-- How many connections there have been. -/
  made : Nat
  fd2chan : Table ChannelRef
  fd2http : Table Nat
  /-- `timerNodeQueue`, by the number of the node. -/
  timers : Table TimerNode
  timersMade : Nat
  /-- The events the kernel has a descriptor registered for. -/
  interest : Nat → Option EventMask
  /-- The connections the listening thread still refers to. -/
  acceptors : List Nat
  pendingFunctors : List Nat
  /-- The functors swapped out, which go when the last of them was called. -/
  functors : List Nat
  called : Nat
  ready : List ChannelRef
  pc : WorkerPc
  /-- A callback was called on a destroyed connection. -/
  misuse : Bool

/-- What the system calls answer, and the clock. -/
structure Io where
  host : Host
  reads : List ReadOutcome
  writes : List WriteOutcome
  now : Nat
  ctlOk : Bool

inductive LoopFault where
  | destroyed
  | handler (f : Fault)
  deriving DecidableEq

namespace Worker

def Live (s : Worker) (id : Nat) : Prop := id < s.made ∧ (s.objects id).destroyed = false

instance (s : Worker) (id : Nat) : Decidable (s.Live id) := inferInstanceAs (Decidable (_ ∧ _))

def Owned (s : Worker) (id : Nat) : Prop :=
  (∃ e ∈ s.fd2http.toList, e.2 = id) ∨ (∃ e ∈ s.timers.toList, e.2.requestData = some id) ∨
    id ∈ s.functors ∨ id ∈ s.pendingFunctors ∨ id ∈ s.acceptors

instance (s : Worker) (id : Nat) : Decidable (s.Owned id) :=
  inferInstanceAs (Decidable ((∃ e ∈ _, _) ∨ (∃ e ∈ _, _) ∨ _ ∨ _ ∨ _))

def setObject (s : Worker) (id : Nat) (o : HttpObject) : Worker :=
  { s with objects := Function.update s.objects id o }

def setConn (s : Worker) (id : Nat) (c : Conn) : Worker :=
  s.setObject id { s.objects id with conn := c }

@[simp] theorem setObject_self (s : Worker) (id : Nat) (o : HttpObject) : (s.setObject id o).objects id = o :=
  Function.update_self ..

theorem setObject_other (s : Worker) {id j : Nat} (hj : j ≠ id) (o : HttpObject) :
    (s.setObject id o).objects j = s.objects j := Function.update_of_ne hj ..

@[simp] theorem setConn_self (s : Worker) (id : Nat) (c : Conn) :
    (s.setConn id c).objects id = { s.objects id with conn := c } := setObject_self ..

theorem setConn_other (s : Worker) {id j : Nat} (hj : j ≠ id) (c : Conn) :
    (s.setConn id c).objects j = s.objects j := setObject_other s hj _

/-- `~HttpData`. -/
def destroy (s : Worker) (id : Nat) : Worker :=
  { s.setObject id { s.objects id with destroyed := true } with
    interest := Function.update s.interest (s.objects id).conn.http.fd none }

/-- A reference to the connection has gone. -/
def release (s : Worker) (id : Nat) : Worker := if s.Owned id then s else s.destroy id

def releaseOption (s : Worker) : Option Nat → Worker
  | some id => s.release id
  | none => s

/-- `TimerManager::addTimer`. -/
def addTimer (s : Worker) (id : Nat) (timeout : Int) (now : Nat) : Worker :=
  { s.setObject id { s.objects id with timer := some s.timersMade } with
    timers := s.timers.set s.timersMade ⟨false, now + timeout.toNat, some id⟩
    timersMade := s.timersMade + 1 }

theorem addTimer_self (s : Worker) (id : Nat) (timeout : Int) (now : Nat) :
    (s.addTimer id timeout now).objects id = { s.objects id with timer := some s.timersMade } :=
  setObject_self ..

theorem addTimer_other (s : Worker) {id j : Nat} (hj : j ≠ id) (timeout : Int) (now : Nat) :
    (s.addTimer id timeout now).objects j = s.objects j := setObject_other s hj _

/-- The block that `HttpData::reset` and `seperateTimer` share: it clears the linked node, while there
is one, and the link. -/
def clearTimer (s : Worker) (id : Nat) : Worker :=
  match (s.objects id).timer with
  | none => s
  | some nid =>
      match s.timers.get nid with
      | none => s
      | some node =>
          releaseOption { s.setObject id { s.objects id with timer := none } with
            timers := s.timers.set nid { node with requestData := none, deleted := true } }
            node.requestData

theorem clearTimer_unlinked {s : Worker} {id : Nat} (hlink : (s.objects id).timer = none) :
    s.clearTimer id = s := by
  rw [clearTimer, hlink]

theorem clearTimer_linked {s : Worker} {id nid : Nat} {node : TimerNode}
    (hlink : (s.objects id).timer = some nid) (hget : s.timers.get nid = some node) :
    s.clearTimer id = releaseOption { s.setObject id { s.objects id with timer := none } with
      timers := s.timers.set nid { node with requestData := none, deleted := true } } node.requestData := by
  simp only [clearTimer, hlink, hget]

/-- Without a linked node nothing is cleared; else the node is, and the link. -/
theorem clearTimer_cases (s : Worker) (id : Nat) :
    ((∀ nid node, (s.objects id).timer = some nid → s.timers.get nid ≠ some node) ∧ s.clearTimer id = s) ∨
      ∃ nid node, (s.objects id).timer = some nid ∧ s.timers.get nid = some node ∧
        s.clearTimer id = releaseOption { s.setObject id { s.objects id with timer := none } with
          timers := s.timers.set nid { node with requestData := none, deleted := true } }
          node.requestData := by
  cases hlink : (s.objects id).timer with
  | none => exact Or.inl ⟨fun nid node h => (nomatch h), clearTimer_unlinked hlink⟩
  | some nid =>
      cases hget : s.timers.get nid with
      | none =>
          refine Or.inl ⟨?_, by simp only [clearTimer, hlink, hget]⟩
          intro k node h hnode
          cases h
          cases hget.symm.trans hnode
      | some node => exact Or.inr ⟨nid, node, rfl, hget, clearTimer_linked hlink hget⟩

def chan (s : Worker) : ChannelRef → Channel
  | .wakeup => s.wakeupChannel
  | .http id => (s.objects id).conn.chan

def setChan (s : Worker) : ChannelRef → Channel → Worker
  | .wakeup, ch => { s with wakeupChannel := ch }
  | .http id, ch => s.setConn id { (s.objects id).conn with chan := ch }

/-- `Channel::getHolder`; the wakeup channel has none. -/
def getHolder (s : Worker) : ChannelRef → Option Nat
  | .wakeup => none
  | .http id => if s.Live id then some id else none

/-- `m_fd2chan[fd].reset(); m_fd2http[fd].reset();` -/
def resetSlots (s : Worker) (fd : Nat) : Worker :=
  releaseOption { s with fd2chan := s.fd2chan.reset fd, fd2http := s.fd2http.reset fd }
    (s.fd2http.get fd)

/-- `m_fd2http[fd] = request->getHolder(); m_fd2chan[fd] = request;` -/
def setSlots (s : Worker) (fd : Nat) (request : ChannelRef) : Worker :=
  let fd2http :=
    match s.getHolder request with
    | some id => s.fd2http.set fd id
    | none => s.fd2http.reset fd
  releaseOption { s with fd2chan := s.fd2chan.set fd request, fd2http := fd2http }
    (s.fd2http.get fd)

/-- `Epoll::add_timer`. -/
def epollAddTimer (s : Worker) (request : ChannelRef) (timeout : Int) (now : Nat) : Worker :=
  match s.getHolder request with
  | some id => s.addTimer id timeout now
  | none => s

/-- `Epoll::epoll_add`. -/
def epollAdd (s : Worker) (request : ChannelRef) (timeout : Int) (now : Nat) (ctlOk : Bool) : Worker :=
  let fd := (s.chan request).fd
  let s := if 0 < timeout then s.epollAddTimer request timeout now else s
  let s := s.setSlots fd request
  let ch := (s.chan request).equalAndUpdateLastEvents.2
  let s := s.setChan request ch
  if ctlOk then { s with interest := Function.update s.interest fd (some ch.events) }
  else s.resetSlots fd

/-- `Epoll::epoll_mod`. -/
def epollMod (s : Worker) (request : ChannelRef) (timeout : Int) (now : Nat) (ctlOk : Bool) : Worker :=
  let fd := (s.chan request).fd
  let s := if 0 < timeout then s.epollAddTimer request timeout now else s
  let (same, ch) := (s.chan request).equalAndUpdateLastEvents
  let s := s.setChan request ch
  if same then s
  else if ctlOk then { s with interest := Function.update s.interest fd (some ch.events) }
  else s.resetSlots fd

/-- `Epoll::epoll_del` of the channel of a connection. -/
def epollDel (s : Worker) (id : Nat) (ctlOk : Bool) : Worker :=
  let fd := (s.chan (.http id)).fd
  let s := s.setObject id { s.objects id with removed := true }
  let s := if ctlOk then { s with interest := Function.update s.interest fd none } else s
  s.resetSlots fd

/-- The loop of `Epoll::getEventsReqeust`. -/
def getEventsReqeust : List (Nat × EventMask) → Worker → Worker
  | [], s => s
  | (fd, revents) :: events, s =>
      match s.fd2chan.get fd with
      | some request =>
          let s := s.setChan request { s.chan request with revents := revents, events := 0 }
          getEventsReqeust events { s with ready := s.ready ++ [request] }
      | none => getEventsReqeust events s

/-! ### The handlers -/

/-- `HttpData::handleClose`. -/
def handleClose (s : Worker) (id : Nat) (ctlOk : Bool) : Worker :=
  epollDel (s.setConn id { (s.objects id).conn with http.connectionState := .disconnected }) id ctlOk

/-- `HttpData::newEvent`. -/
def newEvent (s : Worker) (id : Nat) (now : Nat) (ctlOk : Bool) : Worker :=
  let s := s.setConn id { (s.objects id).conn with chan.events := DEFAULT_EVENT }
  let s := s.epollAdd (.http id) DEFAULT_EXPIRED_TIME now ctlOk
  s.setObject id { s.objects id with registered := true }

/-- A call of a handler of the connection. -/
def call (id : Nat) (io : Io) (s : Worker) (k : Call) : Except LoopFault Worker :=
  if s.Live id then
    match k with
    | .clearTimer => .ok (s.clearTimer id)
    | .handleError _ _ => .ok s
    | .updatePoller timeout => .ok (s.epollMod (.http id) timeout io.now io.ctlOk)
    | .handleClose => .ok (s.handleClose id io.ctlOk)
  else .error .destroyed

/-- A callback of the channel: the handler, and the calls it has made. -/
def callback (id : Nat) (io : Io) (handler : Conn → Except Fault Conn) (s : Worker) :
    Except LoopFault Worker :=
  if s.Live id then
    match handler (s.objects id).conn with
    | .ok c => (c.calls.drop (s.objects id).conn.calls.length).foldlM (call id io) (s.setConn id c)
    | .error f => .error (.handler f)
  else .error .destroyed

def clearEvents (s : Worker) (request : ChannelRef) : Worker :=
  s.setChan request { s.chan request with events := 0 }

/-- `handleEvents` of the wakeup channel, which has no write handler. -/
def handleWakeup (s : Worker) (io : Io) : Worker :=
  Id.run (WebServer.handleEvents (m := Id) s.wakeupChannel.revents (clearEvents · .wakeup)
    (fun s => { s with wakeupChannel.events := EventLoop.wakeupEvents }) id
    (fun s => s.epollMod .wakeup 0 io.now io.ctlOk) s)

/-- The connection meets the answers of the system calls. -/
def meet (s : Worker) (id : Nat) (io : Io) : Worker :=
  s.setConn id { (s.objects id).conn with
    sock := { (s.objects id).conn.sock with reads := io.reads, writes := io.writes } }

/-- `Channel::handleEvents`. -/
def handleEvents (s : Worker) (io : Io) : ChannelRef → Except LoopFault Worker
  | .wakeup => .ok (s.handleWakeup io)
  | .http id =>
      WebServer.handleEvents (s.objects id).conn.chan.revents (clearEvents · (.http id))
        (callback id io (handleRead io.host)) (callback id io fun c => .ok (handleWrite c))
        (callback id io fun c => .ok (handleConn c)) (s.meet id io)

/-! ### The loop -/

def MAXFDS : Nat := 100000

/-- After the constructor of `EventLoop`, which adds the wakeup channel to the poller. -/
def created (wakeupFd : Nat) (ctlOk : Bool) : Worker :=
  epollAdd
    { wakeupChannel := ⟨wakeupFd, EventLoop.wakeupEvents, 0, 0⟩
      objects := fun _ => ⟨Conn.fresh 0, none, false, false, false⟩
      made := 0
      fd2chan := .empty
      fd2http := .empty
      timers := .empty
      timersMade := 0
      interest := fun _ => none
      acceptors := []
      pendingFunctors := []
      functors := []
      called := 0
      ready := []
      pc := .poll
      misuse := false } .wakeup 0 0 ctlOk

/-- A round of `Server::handNewConn`, in the listening thread. -/
def handNewConn (s : Worker) (acceptFd : Nat) : Worker :=
  { s.setObject s.made ⟨Conn.fresh acceptFd, none, false, false, false⟩ with
    made := s.made + 1
    acceptors := s.made :: s.acceptors
    pendingFunctors := s.pendingFunctors ++ [s.made] }

/-- `accept` returns a descriptor that is not open: not that of a connection, nor `m_wakeupFd`. -/
def accept (s : Worker) (acceptFd : Nat) : Option Worker :=
  if 0 < acceptFd ∧ acceptFd < MAXFDS ∧ acceptFd ≠ s.wakeupChannel.fd ∧
      ∀ id < s.made, (s.objects id).destroyed = false → (s.objects id).conn.http.fd ≠ acceptFd then
    some (s.handNewConn acceptFd)
  else none

/-- The listening thread leaves the scope of `req_info`. -/
def acceptorReleases (s : Worker) (id : Nat) : Option Worker :=
  if id ∈ s.acceptors then some (release { s with acceptors := s.acceptors.erase id } id) else none

/-- `epoll_wait` returns, and `poll` with it unless no channel is left of the batch. -/
def poll (s : Worker) (events : List (Nat × EventMask)) : Option Worker :=
  if s.pc = .poll ∧ (events.map Prod.fst).Nodup then
    let s := getEventsReqeust events { s with ready := [] }
    some { s with pc := if s.ready = [] then .poll else .dispatch }
  else none

/-- `handleEvents` of the next channel; an exception of a handler ends the loop. -/
def handle (s : Worker) (io : Io) : Option Worker :=
  match s.pc, s.ready with
  | .dispatch, request :: rest =>
      match s.handleEvents io request with
      | .ok s' => some { s' with ready := rest }
      | .error .destroyed => some { s with ready := rest, misuse := true }
      | .error (.handler _) => none
  | _, _ => none

/-- The swap at the head of `doPendingFunctors`. -/
def swapFunctors (s : Worker) : Option Worker :=
  if s.pc = .dispatch ∧ s.ready = [] then
    some { s with functors := s.pendingFunctors, pendingFunctors := [], called := 0, pc := .functors }
  else none

/-- The next functor, a call of `newEvent`. -/
def functor (s : Worker) (now : Nat) (ctlOk : Bool) : Option Worker :=
  match s.pc, s.functors[s.called]? with
  | .functors, some id => some { s.newEvent id now ctlOk with called := s.called + 1 }
  | _, _ => none

/-- The end of `doPendingFunctors`, where the functors go. -/
def endFunctors (s : Worker) : Option Worker :=
  if s.pc = .functors ∧ s.called = s.functors.length then
    some { s.functors.foldl release { s with functors := [] } with pc := .sweep }
  else none

/-- The last reference to a timer node has gone: `~TimerNode`, and the end of its `m_SPHttpData`. -/
def dropTimer (s : Worker) (nid : Nat) (node : TimerNode) (ctlOk : Bool) : Worker :=
  match node.requestData with
  | some id =>
      let s := s.handleClose id ctlOk
      release { s with timers := s.timers.reset nid } id
  | none => { s with timers := s.timers.reset nid }

/-- One round of `handleExpiredEvent`, with a first node `nid` of the queue. -/
def sweep (s : Worker) (nid : Nat) (now : Nat) (ctlOk : Bool) : Option Worker :=
  match s.pc, s.timers.get nid with
  | .sweep, some node =>
      if ∀ e ∈ s.timers.toList, node.expiredTime ≤ e.2.expiredTime then
        if node.deleted ∨ node.expiredTime ≤ now then some (s.dropTimer nid node ctlOk)
        else some { s with pc := .poll }
      else none
  | _, _ => none

/-- `handleExpiredEvent` has emptied the queue. -/
def endSweep (s : Worker) : Option Worker :=
  if s.pc = .sweep ∧ s.timers.toList = [] then some { s with pc := .poll } else none

end Worker

inductive WorkerStep where
  | accept (fd : Nat)
  | acceptorReleases (id : Nat)
  | poll (events : List (Nat × EventMask))
  | handle (io : Io)
  | swapFunctors
  | functor (now : Nat) (ctlOk : Bool)
  | endFunctors
  | sweep (nid : Nat) (now : Nat) (ctlOk : Bool)
  | endSweep

def Worker.step (s : Worker) : WorkerStep → Option Worker
  | .accept fd => s.accept fd
  | .acceptorReleases id => s.acceptorReleases id
  | .poll events => s.poll events
  | .handle io => s.handle io
  | .swapFunctors => s.swapFunctors
  | .functor now ctlOk => s.functor now ctlOk
  | .endFunctors => s.endFunctors
  | .sweep nid now ctlOk => s.sweep nid now ctlOk
  | .endSweep => s.endSweep

namespace Worker

variable {s t : Worker}

theorem accept_cases {acceptFd : Nat} (hstep : s.accept acceptFd = some t) :
    acceptFd ≠ s.wakeupChannel.fd ∧ (∀ id < s.made, (s.objects id).destroyed = false →
      (s.objects id).conn.http.fd ≠ acceptFd) ∧ t = s.handNewConn acceptFd := by
  simp only [accept, Option.ite_none_right_eq_some, Option.some.injEq] at hstep
  obtain ⟨⟨-, -, hwakeup, hopen⟩, rfl⟩ := hstep
  exact ⟨hwakeup, hopen, rfl⟩

theorem acceptorReleases_cases {id : Nat} (hstep : s.acceptorReleases id = some t) :
    id ∈ s.acceptors ∧ t = release { s with acceptors := s.acceptors.erase id } id := by
  simp only [acceptorReleases, Option.ite_none_right_eq_some, Option.some.injEq] at hstep
  obtain ⟨hid, rfl⟩ := hstep
  exact ⟨hid, rfl⟩

theorem poll_cases {events : List (Nat × EventMask)} (hstep : s.poll events = some t) :
    s.pc = .poll ∧ (events.map Prod.fst).Nodup ∧ t = { getEventsReqeust events { s with ready := [] } with
      pc := if (getEventsReqeust events { s with ready := [] }).ready = [] then .poll else .dispatch } := by
  simp only [poll, Option.ite_none_right_eq_some, Option.some.injEq] at hstep
  obtain ⟨⟨hpc, hfds⟩, rfl⟩ := hstep
  exact ⟨hpc, hfds, rfl⟩

theorem swapFunctors_cases (hstep : s.swapFunctors = some t) : s.pc = .dispatch ∧ s.ready = [] ∧
    t = { s with functors := s.pendingFunctors, pendingFunctors := [], called := 0, pc := .functors } := by
  simp only [swapFunctors, Option.ite_none_right_eq_some, Option.some.injEq] at hstep
  obtain ⟨⟨hpc, hready⟩, rfl⟩ := hstep
  exact ⟨hpc, hready, rfl⟩

theorem functor_cases {now : Nat} {ctlOk : Bool} (hstep : s.functor now ctlOk = some t) :
    ∃ id, s.pc = .functors ∧ s.functors[s.called]? = some id ∧
      t = { s.newEvent id now ctlOk with called := s.called + 1 } := by
  unfold functor at hstep
  split at hstep
  · rename_i id hpc hget
    cases hstep
    exact ⟨id, hpc, hget, rfl⟩
  · cases hstep

theorem endFunctors_cases (hstep : s.endFunctors = some t) : s.pc = .functors ∧
    t = { s.functors.foldl release { s with functors := [] } with pc := .sweep } := by
  simp only [endFunctors, Option.ite_none_right_eq_some, Option.some.injEq] at hstep
  obtain ⟨⟨hpc, -⟩, rfl⟩ := hstep
  exact ⟨hpc, rfl⟩

/-- The sweep drops a first node that is deleted or due, and ends at one that is neither. -/
theorem sweep_cases {nid now : Nat} {ctlOk : Bool} (hstep : s.sweep nid now ctlOk = some t) :
    ∃ node, s.pc = .sweep ∧ s.timers.get nid = some node ∧
      (∀ e ∈ s.timers.toList, node.expiredTime ≤ e.2.expiredTime) ∧
        ((node.deleted ∨ node.expiredTime ≤ now) ∧ t = s.dropTimer nid node ctlOk ∨
          ¬ (node.deleted ∨ node.expiredTime ≤ now) ∧ t = { s with pc := .poll }) := by
  unfold sweep at hstep
  split at hstep
  · rename_i node hpc hnode
    split_ifs at hstep with hfirst hdue
    · cases hstep
      exact ⟨node, hpc, hnode, hfirst, Or.inl ⟨hdue, rfl⟩⟩
    · cases hstep
      exact ⟨node, hpc, hnode, hfirst, Or.inr ⟨hdue, rfl⟩⟩
  · cases hstep

theorem endSweep_cases (hstep : s.endSweep = some t) :
    s.pc = .sweep ∧ s.timers.toList = [] ∧ t = { s with pc := .poll } := by
  simp only [endSweep, Option.ite_none_right_eq_some, Option.some.injEq] at hstep
  obtain ⟨⟨hpc, hempty⟩, rfl⟩ := hstep
  exact ⟨hpc, hempty, rfl⟩

end Worker

end WebServer
