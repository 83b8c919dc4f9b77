import WebServer.MainOptions
import WebServer.UtilListen
import WebServer.ServerLoops

/-! The way of `main` to its loop: the options, the main loop, the listening socket, and one thread after the
other, each of which makes its own loop while `startLoop` waits for it. A message that is logged on the way is
left out. Where `main` arrives, the whole server begins with what is open then. -/

namespace WebServer

open Runs

/-- `m_epollFd` and `m_wakeupFd` of a loop, and whether its wakeup channel could be added. -/
structure LoopFds where
  epollFd : Nat
  wakeupFd : Nat
  ctlOk : Bool
  deriving DecidableEq

def LoopFds.made (l : LoopFds) : List Nat := [l.epollFd, l.wakeupFd]

/-- `EventLoop::EventLoop`, with the constructor of its poller, and `createEventFd`. -/
def newEventLoop (k : Kernel) (p : Process) : Except Halt (LoopFds × Process) :=
  let (epollFd, p) := p.make k .epoll
  if 0 < epollFd then
    let (evtfd, p) := p.make k .event
    if evtfd < 0 then .error .aborted
    else
      let (ctlOk, p) := p.call k
      .ok (⟨epollFd.toNat, evtfd.toNat, ctlOk⟩, p)
  else .error .assertion

/-- `EventLoopThreadPool::start`, for so many threads. Where `pthread_create` fails, `startLoop` never
returns. -/
def startLoops (k : Kernel) : Nat → Process → Except Halt (List LoopFds × Process)
  | 0, p => .ok ([], p)
  | n + 1, p =>
      let (created, p) := p.call k
      if created then do
        let (loop, p) ← newEventLoop k p
        let (loops, p) ← startLoops k n p
        return (loop :: loops, p)
      else .error .waits

/-- `Server::Server`, with the constructor of its thread pool. -/
def newServer (k : Kernel) (threadNum port : Int) (p : Process) : Except Halt (Int × Process) :=
  if threadNum ≤ 0 then .error .aborted
  else
    let (listenFd, p) := socketBindListen k port p
    let p := handleForSigpipe k p
    let (rt, p) := setSocketNonBlocking k listenFd p
    if rt < 0 then .error .aborted else .ok (listenFd, p)

/-- The program at the head of `mainLoop.loop()`. -/
structure Started where
  settings : Settings
  mainLoop : LoopFds
  listenFd : Nat
  loops : List LoopFds
  /-- Whether the listening channel could be added to the poller. -/
  added : Bool
  process : Process

/-- The descriptors made on the way, in their order. -/
def Started.made (s : Started) : List Nat :=
  s.mainLoop.made ++ [s.listenFd] ++ s.loops.flatMap LoopFds.made

def main (k : Kernel) (posixlyCorrect : Bool) (words : List Bytes) (p : Process) : Except Halt Started := do
  let settings ← Settings.read posixlyCorrect words
  let (mainLoop, p) ← newEventLoop k p
  let (listenFd, p) ← newServer k settings.threadNum settings.port p
  let (loops, p) ← startLoops k settings.threadNum.toNat p
  let (added, p) := p.call k
  return ⟨settings, mainLoop, listenFd.toNat, loops, added, p⟩

variable {k : Kernel} {p q : Process}

theorem newEventLoop_opens {loop : LoopFds} (h : newEventLoop k p = .ok (loop, q)) :
    Opens p loop.made q ∧ q.fds loop.wakeupFd = some .event := by
  unfold newEventLoop at h
  dsimp only at h
  rcases make_cases k .epoll p with ⟨hfailed, -⟩ | ⟨epollFd, hepoll, hunused, hfds⟩
  · rw [if_neg (by omega)] at h
    cases h
  have hopens := opens_update hunused hfds
  split_ifs at h with hpos hevent
  rcases make_cases k .event (p.make k .epoll).2 with ⟨hfailed, -⟩ | ⟨evtfd, hmade, hunused', hfds'⟩
  · omega
  obtain ⟨rfl, rfl⟩ := Prod.mk.inj (Except.ok.inj h)
  have hopens' := hopens.trans (opens_update hunused' hfds')
  simp only [hepoll, hmade, LoopFds.made, Int.toNat_natCast]
  refine ⟨hopens'.trans (Opens.of_eq rfl), ?_⟩
  show (((p.make k .epoll).2.make k .event).2.fds evtfd) = some .event
  rw [hfds', Function.update_self]

theorem startLoops_opens {n : Nat} : ∀ {p : Process} {loops : List LoopFds}, startLoops k n p = .ok (loops, q) →
    loops.length = n ∧ Opens p (loops.flatMap LoopFds.made) q ∧
      ∀ loop ∈ loops, q.fds loop.wakeupFd = some .event := by
  induction n with
  | zero =>
      intro p loops h
      obtain ⟨rfl, rfl⟩ := Prod.mk.inj (Except.ok.inj h)
      exact ⟨rfl, Opens.of_eq rfl, fun loop hloop => by cases hloop⟩
  | succ n ih =>
      intro p loops h
      rw [startLoops] at h
      dsimp only at h
      split_ifs at h
      obtain ⟨⟨loop, r⟩, hloop, h⟩ := Stages.bind_eq_ok h
      obtain ⟨⟨later, t⟩, hlater, h⟩ := Stages.bind_eq_ok h
      obtain ⟨rfl, rfl⟩ := Prod.mk.inj (Except.ok.inj h)
      obtain ⟨hopens, hevent⟩ := newEventLoop_opens hloop
      obtain ⟨hlength, hrest, hevents⟩ := ih hlater
      refine ⟨congrArg (· + 1) hlength, ?_, ?_⟩
      · have hcreated : Opens p [] (p.call k).2 := Opens.of_eq rfl
        exact (hcreated.trans hopens).trans hrest
      · intro other hother
        rcases List.mem_cons.mp hother with rfl | hin
        · exact hrest.kept hevent
        · exact hevents other hin

theorem newServer_opens {threadNum port listenFd : Int} (h : newServer k threadNum port p = .ok (listenFd, q)) :
    0 < threadNum ∧ Opens p [listenFd.toNat] q ∧
      q.fds listenFd.toNat = some (.socket ⟨true, some port, true, true⟩) := by
  unfold newServer at h
  dsimp only at h
  split_ifs at h with hnone hrt
  obtain ⟨rfl, rfl⟩ := Prod.mk.inj (Except.ok.inj h)
  rcases socketBindListen_cases k port p with ⟨hfailed, -⟩ | ⟨fd, hmade, hunused, -, -, hfds⟩
  · rw [hfailed] at hrt
    exact absurd (setSocketNonBlocking_neg k _) hrt
  rw [hmade] at hrt ⊢
  have hsocket : (handleForSigpipe k (socketBindListen k port p).2).fds fd =
      some (.socket ⟨true, some port, true, false⟩) := by
    rw [handleForSigpipe_fds, hfds, Function.update_self]
  have hset := (setSocketNonBlocking_cases k hsocket).resolve_left hrt
  rw [handleForSigpipe_fds, hfds, Function.update_idem] at hset
  rw [Int.toNat_natCast]
  refine ⟨by omega, opens_update hunused hset, ?_⟩
  rw [hset, Function.update_self]

/-- The setup the whole server begins with: the loops in their order, and what is open. -/
structure Started.Sets (s : Started) (u : ServerSetup) : Prop where
  added : s.added = true
  numThreads : u.pool.numThreads = s.loops.length
  next : u.pool.next = 0
  listenFd : u.listenFd = s.listenFd
  loops : ∀ i (h : i < s.loops.length), u.wakeupFds i = s.loops[i].wakeupFd ∧ u.ctlOk i = s.loops[i].ctlOk
  reserved : ∀ fd, u.reserved fd = (s.process.fds fd).isSome

variable {posixlyCorrect : Bool} {words : List Bytes} {s : Started}

theorem main_cases (h : main k posixlyCorrect words p = .ok s) :
    Settings.read posixlyCorrect words = .ok s.settings ∧ 0 < s.settings.threadNum ∧
      (s.loops.length : Int) = s.settings.threadNum ∧ Opens p s.made s.process ∧
      s.process.fds s.listenFd = some (.socket ⟨true, some s.settings.port, true, true⟩) ∧
      ∀ loop ∈ s.loops, s.process.fds loop.wakeupFd = some .event := by
  obtain ⟨settings, hread, h⟩ := Stages.bind_eq_ok h
  obtain ⟨⟨mainLoop, q⟩, hmain, h⟩ := Stages.bind_eq_ok h
  obtain ⟨⟨listenFd, r⟩, hserver, h⟩ := Stages.bind_eq_ok h
  obtain ⟨⟨loops, t⟩, hloops, h⟩ := Stages.bind_eq_ok h
  obtain rfl := (Except.ok.inj h).symm
  obtain ⟨hmade, -⟩ := newEventLoop_opens hmain
  obtain ⟨hthreads, hlisten, hsocket⟩ := newServer_opens hserver
  obtain ⟨hlength, hopens, hevents⟩ := startLoops_opens hloops
  have hadded : Opens t [] (t.call k).2 := Opens.of_eq rfl
  refine ⟨hread, hthreads, ?_, ?_, hadded.kept (hopens.kept hsocket), fun loop hloop => ?_⟩
  · show (loops.length : Int) = settings.threadNum
    omega
  · have hall := ((hmade.trans hlisten).trans hopens).trans hadded
    rwa [List.append_nil] at hall
  · exact hadded.kept (hevents loop hloop)

theorem exists_sets (h : main k posixlyCorrect words p = .ok s) (hadded : s.added = true) : ∃ u, s.Sets u := by
  obtain ⟨-, hthreads, hlength, -, -, hevents⟩ := main_cases h
  refine ⟨⟨⟨s.loops.length, 0, by omega⟩, s.listenFd, fun i => (s.loops.map LoopFds.wakeupFd).getD i 0,
    fun i => (s.loops.map LoopFds.ctlOk).getD i false, fun fd => (s.process.fds fd).isSome, ?_⟩,
    hadded, rfl, rfl, rfl, ?_, fun _ => rfl⟩
  · intro i hi
    have hlt : i < s.loops.length := hi
    simp only [List.getD_eq_getElem?_getD, List.getElem?_map, List.getElem?_eq_getElem hlt, Option.map_some,
      Option.getD_some]
    rw [hevents _ (List.getElem_mem hlt)]
    rfl
  · intro i hi
    simp [hi]

/-- **From the command line to the runs of the server.** When `main` comes to its loop, it has as many loops as
the command line asks for, a name the log file can have, and a socket that listens on the port 6598 and does not
block; all descriptors made on the way are different, and were not in use. In every run of the server from
there they stay open, and none of them is ever given to a connection. -/
theorem main_serves (h : main k posixlyCorrect words p = .ok s) :
    (0 < s.settings.threadNum ∧ (s.loops.length : Int) = s.settings.threadNum ∧
      1 < s.settings.logPath.length ∧
      s.process.fds s.listenFd = some (.socket ⟨true, some 6598, true, true⟩)) ∧
      Opens p s.made s.process ∧ (s.added = true → ∃ u, s.Sets u) ∧
      ∀ u as g, s.Sets u → Run ServerLoops.step (fun _ _ => True) (ServerLoops.start u) as g →
        ∀ fd ∈ s.made, g.opened fd = true ∧ ∀ loop < s.loops.length, ∀ id, (g.loops loop).Live id →
          ((g.loops loop).objects id).conn.http.fd ≠ fd := by
  obtain ⟨hread, hthreads, hlength, hopens, hsocket, -⟩ := main_cases h
  have hport : s.settings.port = 6598 := by rw [(Settings.read_ok_iff.mp hread).2]
  refine ⟨⟨hthreads, hlength, Settings.logPath_long hread, hport ▸ hsocket⟩, hopens, exists_sets h, ?_⟩
  intro u as g hsets hrun fd hfd
  have hreserved : u.reserved fd = true := by
    rw [hsets.reserved]
    exact Option.isSome_iff_ne_none.mpr (hopens.used fd hfd)
  obtain ⟨hopened, hlive, -⟩ := ServerLoops.run_descriptors hrun
  refine ⟨(hopened fd).mpr (Or.inl hreserved), fun loop hloop id hid heq => ?_⟩
  rw [← hsets.numThreads] at hloop
  rw [← heq, (hlive loop hloop id hid).1] at hreserved
  cases hreserved

/-- A kernel that hands out the next descriptor each time, and grants every call. -/
def counting : Kernel where
  makes n fds := if fds (n + 3) = none then some (n + 3) else none
  makes_free n fds fd h := by
    obtain ⟨hfree, hsome⟩ := Option.ite_none_right_eq_some.mp h
    cases hsome
    exact hfree
  grants _ := true

/-- Three descriptors are in use when the program starts. -/
def threeOpen : Process := ⟨fun fd => if fd < 3 then some .other else none, 0, false⟩

/-- Two threads are asked for. -/
theorem main_serves_two : ∃ (s : Started) (u : ServerSetup), s.made = [3, 4, 6, 14, 15, 18, 19] ∧ s.Sets u ∧
    s.process.fds 6 = some (.socket ⟨true, some 6598, true, true⟩) ∧
    (ServerLoops.start u).opened 6 = true := by
  have hexec : (main counting false [bytes "-t", bytes "2"] threeOpen).toOption.map
      (fun s => (s.made, s.listenFd, s.added)) = some ([3, 4, 6, 14, 15, 18, 19], 6, true) := by
    decide
  obtain ⟨s, hs, hfields⟩ := Option.map_eq_some_iff.mp hexec
  have hok : main counting false [bytes "-t", bytes "2"] threeOpen = .ok s := by
    cases hmain : main counting false [bytes "-t", bytes "2"] threeOpen with
    | error e => simp [hmain, Except.toOption] at hs
    | ok t => simpa [hmain, Except.toOption] using hs
  simp only [Prod.mk.injEq] at hfields
  obtain ⟨hmade, hlisten, hadded⟩ := hfields
  obtain ⟨⟨-, -, -, hsocket⟩, -, hsets, hruns⟩ := main_serves hok
  obtain ⟨u, hu⟩ := hsets hadded
  refine ⟨s, u, hmade, hu, hlisten ▸ hsocket, ?_⟩
  exact (hruns u [] _ hu (.nil _) 6 (by simp [hmade])).1

end WebServer
