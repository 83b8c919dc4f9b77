import WebServer.Rotation
import WebServer.ServerListen

/-! The loops get their connections in turn. `getNextLoop` is called once for every descriptor that `accept`
returns, before it is known whether there will be a connection for it, so the descriptors that are turned
away have their turns as well. -/

namespace WebServer

open Runs Rotation

/-- The loop and the descriptor of each connection queued. -/
def Server.placed (s : Server) : List (Nat × Nat) := s.queued.map fun q => (q.1, q.2.http.fd)

/-- The server has handed out what it accepted in turn, starting with the next loop of `pool`. -/
structure Server.Rotates (pool : EventLoopThreadPool) (s : Server) : Prop where
  numThreads : s.eventLoopThreadPool.numThreads = pool.numThreads
  next : s.eventLoopThreadPool.next = (pool.next + s.accepted.length) % pool.numThreads
  placed : s.placed.Sublist (turns pool.numThreads pool.next s.accepted)

namespace Server

variable {pool : EventLoopThreadPool} {s t : Server}

/-- A step that leaves the pool and the connections alone. -/
theorem Rotates.of_eq (h : s.Rotates pool) (hpool : t.eventLoopThreadPool = s.eventLoopThreadPool)
    (haccepted : t.accepted = s.accepted) (hqueued : t.queued = s.queued) : t.Rotates pool := by
  refine ⟨hpool ▸ h.numThreads, ?_, ?_⟩
  · rw [hpool, haccepted]
    exact h.next
  · rw [Server.placed, hqueued, haccepted]
    exact h.placed

theorem handThisConn_connections (s : Server) :
    s.handThisConn.eventLoopThreadPool = s.eventLoopThreadPool ∧ s.handThisConn.accepted = s.accepted ∧
      s.handThisConn.queued = s.queued := by
  unfold handThisConn
  dsimp only
  split_ifs <;> exact ⟨rfl, rfl, rfl⟩

theorem turned_rotates (h : s.Rotates pool) (acceptFd : Nat) : (s.turned acceptFd).Rotates pool := by
  refine ⟨h.numThreads, ?_, h.placed.trans ?_⟩
  · have hturn : (s.turned acceptFd).eventLoopThreadPool.next =
        (s.eventLoopThreadPool.next + 1) % s.eventLoopThreadPool.numThreads := rfl
    have haccepted : (s.turned acceptFd).accepted = s.accepted ++ [acceptFd] := rfl
    rw [hturn, haccepted, h.next, h.numThreads, Nat.mod_add_mod, List.length_append, List.length_singleton,
      Nat.add_assoc]
  · have haccepted : (s.turned acceptFd).accepted = s.accepted ++ [acceptFd] := rfl
    rw [haccepted, turns_concat]
    exact List.sublist_append_left _ _

theorem acceptOne_rotates (h : s.Rotates pool) (o : AcceptOutcome) : (s.acceptOne o).1.Rotates pool := by
  have hturned := turned_rotates h o.acceptFd.toNat
  unfold acceptOne
  split_ifs
  · exact hturned.of_eq rfl rfl rfl
  · refine ⟨hturned.numThreads, hturned.next, ?_⟩
    have hplaced : placed { s.turned o.acceptFd.toNat with
        queued := s.queued ++ [(s.eventLoopThreadPool.getNextLoop.1, Conn.fresh o.acceptFd.toNat)] } =
        s.placed ++ [((pool.next + s.accepted.length) % pool.numThreads, o.acceptFd.toNat)] := by
      rw [← h.next]
      exact List.map_append
    have haccepted : (s.turned o.acceptFd.toNat).accepted = s.accepted ++ [o.acceptFd.toNat] := rfl
    rw [hplaced, haccepted, turns_concat]
    exact h.placed.append_right _
  · exact hturned
  · exact h.of_eq rfl rfl rfl

end Server

namespace Listener

variable {l l' : Listener} {pool : EventLoopThreadPool}

theorem step_rotates {a : ListenStep} (h : l.server.Rotates pool) (hstep : l.step a = some l') :
    l'.server.Rotates pool := by
  cases a with
  | arrives =>
      cases hstep
      exact h
  | reports revents =>
      obtain ⟨-, -, -, rfl⟩ := reports_cases hstep
      exact h.of_eq rfl rfl rfl
  | accepts o =>
      obtain ⟨-, rfl⟩ := accepts_cases hstep
      exact Server.acceptOne_rotates h o
  | updates =>
      obtain ⟨-, hserver, -⟩ := updates_cases hstep
      obtain ⟨hpool, haccepted, hqueued⟩ := l.server.handThisConn_connections
      rw [hserver]
      exact h.of_eq hpool haccepted hqueued

theorem start_rotates (listenFd : Nat) (pool : EventLoopThreadPool) :
    (start listenFd pool).server.Rotates pool :=
  ⟨rfl, (Nat.mod_eq_of_lt pool.next_lt).symm, List.Sublist.refl _⟩

theorem run_rotates {listenFd : Nat} {as : List ListenStep}
    (hrun : Run step (fun _ _ => True) (start listenFd pool) as l) : l.server.Rotates pool :=
  hrun.invariant (fun _ _ _ _ hstep h => step_rotates h hstep) (start_rotates listenFd pool)

/-- **The loops take turns.** The connections queued are among the descriptors accepted, each on the loop
whose turn it was, in their order. So of two loops one has at most one connection more than the other, not
counting those descriptors that have got none. -/
theorem run_turns {listenFd : Nat} {as : List ListenStep}
    (hrun : Run step (fun _ _ => True) (start listenFd pool) as l) :
    l.server.placed.Sublist (turns pool.numThreads pool.next l.server.accepted) ∧
      ∀ loop loop', loop < pool.numThreads → loop' < pool.numThreads →
        load loop l.server.placed ≤
          load loop' l.server.placed + (l.server.accepted.length - l.server.queued.length) + 1 := by
  have hplaced := (run_rotates hrun).placed
  refine ⟨hplaced, fun loop loop' hloop hloop' => ?_⟩
  have hlength : l.server.placed.length = l.server.queued.length := List.length_map ..
  exact hlength ▸ load_le_of_sublist hloop hloop' hplaced

/-- Three connections for two loops; a descriptor beyond `MAXFDS` has had its turn. -/
theorem run_turns_three :
    ∃ l : Listener, l.server.placed = [(0, 7), (0, 8), (1, 9)] ∧
      l.server.placed.Sublist (turns 2 0 [7, 100000, 8, 9]) := by
  have hexec : (exec (checked step fun _ _ => True) (start 3 ⟨2, 0, by decide⟩) [.arrives, .arrives, .arrives,
      .arrives, .reports EPOLLIN, .accepts ⟨7, true⟩, .accepts ⟨100000, true⟩, .accepts ⟨8, true⟩,
        .accepts ⟨9, true⟩]).map (fun l => (l.server.placed, l.server.accepted)) =
          some ([(0, 7), (0, 8), (1, 9)], [7, 100000, 8, 9]) := by
    decide
  obtain ⟨l, hl, hends⟩ := Option.map_eq_some_iff.mp hexec
  obtain ⟨hplaced, haccepted⟩ : _ ∧ _ := by simpa only [Prod.mk.injEq] using hends
  exact ⟨l, hplaced, haccepted ▸ (run_turns (run_of_exec_checked hl)).1⟩

end Listener

end WebServer
