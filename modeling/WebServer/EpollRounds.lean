import Mathlib.Data.List.MinMax
import WebServer.EpollRefusals
import WebServer.EpollSweep
import WebServer.RunsProgress

/-! A round of the loop, from one `epoll_wait` to the next. Each channel handled and each functor called
starts at most one timer, and each round of the sweep drops one, so a round comes to its end. Whatever the
system calls answer, the thread can take its next step, unless that is to handle a channel whose input is not
heard. -/

namespace WebServer

open Runs Stages

namespace Table

variable {α : Type}

def keys (t : Table α) : List Nat := AList.keys t

def size (t : Table α) : Nat := t.keys.length

theorem keys_set (t : Table α) (k : Nat) (a : α) : (t.set k a).keys = k :: t.keys.erase k :=
  AList.keys_insert t

theorem keys_reset (t : Table α) (k : Nat) : (t.reset k).keys = t.keys.erase k := AList.keys_erase k t

theorem mem_keys {t : Table α} {k : Nat} {a : α} (hget : t.get k = some a) : k ∈ t.keys :=
  AList.mem_keys.mp (AList.lookup_isSome.mp (Option.isSome_iff_exists.mpr ⟨a, hget⟩))

theorem size_set_le (t : Table α) (k : Nat) (a : α) : (t.set k a).size ≤ t.size + 1 := by
  rw [size, keys_set, List.length_cons]
  exact Nat.succ_le_succ List.length_erase_le

theorem size_reset_of_get {t : Table α} {k : Nat} {b : α} (hget : t.get k = some b) :
    (t.reset k).size + 1 = t.size := by
  have hmem := mem_keys hget
  have hpos := List.length_pos_of_mem hmem
  rw [size, size, keys_reset, List.length_erase_of_mem hmem]
  omega

theorem size_set_of_get {t : Table α} {k : Nat} {b : α} (hget : t.get k = some b) (a : α) :
    (t.set k a).size = t.size := by
  have hreset := size_reset_of_get hget
  rw [size, keys_reset] at hreset
  rw [size, keys_set, List.length_cons]
  exact hreset

end Table

/-- A step of the thread behind `epoll_wait`, whose calls answer as `io` does. -/
def WorkerStep.Serves (io : Io) : WorkerStep → Prop
  | .accept _ | .acceptorReleases _ | .poll _ => False
  | .handle io' => io' = io
  | .functor now ctlOk | .sweep _ now ctlOk => now = io.now ∧ ctlOk = io.ctlOk
  | .swapFunctors | .endFunctors | .endSweep => True

namespace Worker

variable {s t u : Worker}

/-- A bound on the steps of the thread up to its next `epoll_wait`. -/
def work (s : Worker) : Nat :=
  match s.pc with
  | .poll => 0
  | .dispatch => 2 * s.ready.length + 2 * s.uncalled.length + s.timers.size + 3
  | .functors => 2 * (s.functors.length - s.called) + s.timers.size + 2
  | .sweep => s.timers.size + 1

theorem work_dispatch (hpc : s.pc = .dispatch) :
    s.work = 2 * s.ready.length + 2 * s.uncalled.length + s.timers.size + 3 := by
  rw [work, hpc]

theorem work_functors (hpc : s.pc = .functors) :
    s.work = 2 * (s.functors.length - s.called) + s.timers.size + 2 := by
  rw [work, hpc]

theorem work_sweep (hpc : s.pc = .sweep) : s.work = s.timers.size + 1 := by
  rw [work, hpc]

theorem clearTimer_size (s : Worker) (id : Nat) : (s.clearTimer id).timers.size = s.timers.size := by
  rcases clearTimer_cases s id with ⟨-, hsame⟩ | ⟨nid, node, -, hget, hcleared⟩
  · rw [hsame]
  · rw [hcleared, releaseOption_timers]
    exact Table.size_set_of_get hget _

theorem startTimer_size (s : Worker) (request : ChannelRef) (timeout : Int) (now : Nat) :
    (s.startTimer request timeout now).timers.size ≤ s.timers.size + 1 := by
  rcases startTimer_cases s request timeout now with hsame | ⟨id, -, hadded⟩
  · rw [hsame]
    exact Nat.le_succ _
  · rw [hadded]
    exact Table.size_set_le _ _ _

theorem epollMod_size (s : Worker) (request : ChannelRef) (timeout : Int) (now : Nat) (ctlOk : Bool) :
    (s.epollMod request timeout now ctlOk).timers.size ≤ s.timers.size + 1 := by
  have hstarted := startTimer_size s request timeout now
  rw [epollMod_eq]
  dsimp only
  split_ifs
  · rw [noteEvents, setChan_timers]
    exact hstarted
  · rw [epollCtl_timers, noteEvents, setChan_timers]
    exact hstarted

theorem newEvent_size (s : Worker) (id now : Nat) (ctlOk : Bool) :
    (s.newEvent id now ctlOk).timers.size ≤ s.timers.size + 1 := by
  have hstarted := startTimer_size (s.setConn id { (s.objects id).conn with chan.events := DEFAULT_EVENT })
    (.http id) DEFAULT_EXPIRED_TIME now
  have hadded : (s.newEvent id now ctlOk).timers = ((s.setConn id { (s.objects id).conn with
      chan.events := DEFAULT_EVENT }).startTimer (.http id) DEFAULT_EXPIRED_TIME now).timers := by
    unfold newEvent
    simp only [epollAdd_eq]
    rw [show ∀ (w : Worker) (o : HttpObject), (w.setObject id o).timers = w.timers from fun _ _ => rfl,
      epollCtl_timers, noteEvents, setChan_timers, setSlots, releaseOption_timers]
  rw [hadded]
  exact hstarted

theorem dropTimer_size {nid : Nat} {node : TimerNode} (hget : s.timers.get nid = some node) (ctlOk : Bool) :
    (s.dropTimer nid node ctlOk).timers.size + 1 = s.timers.size := by
  rw [dropTimer_timers]
  exact Table.size_reset_of_get hget

/-- The events of a channel start at most one timer. -/
theorem handleEvents_size (hs : s.Inv) {request : ChannelRef}
    (hslot : s.fd2chan.get (s.chan request).fd = some request) (io : Io) :
    Safe Unharmed (fun u => u.timers.size ≤ s.timers.size + 1) (s.handleEvents io request) := by
  cases request with
  | wakeup => exact (congrArg Table.size (handleWakeup_timers s io)).le.trans (Nat.le_succ _)
  | http id =>
      have hserving : Serving id s s := ⟨hs, (hs.paired _ id).mp hslot, .refl [] s⟩
      refine handleEvents_rule (P := fun t => t.timers.size = s.timers.size) hserving (fun _ _ _ h _ => h)
        (fun t _ h => (clearTimer_size t id).trans h) (fun t ht h => ?_)
        (fun t _ h => h.le.trans (Nat.le_succ _)) rfl
      have hseparated : (t.separated id).timers.size = s.timers.size := (clearTimer_size _ id).trans h
      rcases callback_handleConn_cases io ht with ⟨-, hrun⟩ | ⟨timeout, -, -, hrun⟩ | ⟨-, hrun⟩
      all_goals rw [hrun]
      · exact hseparated.le.trans (Nat.le_succ _)
      · exact hseparated ▸ epollMod_size (t.separated id) (.http id) timeout io.now io.ctlOk
      · exact (congrArg Table.size (handleClose_timers _ id io.ctlOk)).le.trans
          (hseparated.le.trans (Nat.le_succ _))

theorem step_work {a : WorkerStep} {log : List Nat} {io : Io} (he : Enrolled log s) (ha : a.Serves io)
    (hstep : s.step a = some t) : t.work < s.work := by
  have hcalls := step_calls he.sound he.tidy he.paced hstep
  cases a with
  | accept fd => exact ha.elim
  | acceptorReleases id => exact ha.elim
  | poll events => exact ha.elim
  | handle io' =>
      have huncalled : t.uncalled = s.uncalled := by
        simpa only [arrivals, begins, List.append_nil, List.nil_append] using hcalls.order.symm
      obtain ⟨request, rest, u, hpc, hready, hslot, hrun, rfl⟩ := handle_cases he.sound hstep
      have hserved := handleEvents_served he.sound.inv hslot io'
      have hsize := handleEvents_size he.sound.inv hslot io'
      rw [hrun] at hserved hsize
      have hpc' : Worker.pc { u with ready := rest } = .dispatch := hserved.frame.pc.trans hpc
      have hsize' : u.timers.size ≤ s.timers.size + 1 := hsize
      rw [work_dispatch hpc, work_dispatch hpc', huncalled, hready, List.length_cons]
      dsimp only
      omega
  | swapFunctors =>
      obtain ⟨hpc, hready, rfl⟩ := swapFunctors_cases hstep
      have hnone : s.functors = [] := he.paced.idle (by simp [hpc])
      rw [work_dispatch hpc, work_functors rfl, uncalled, hnone, List.drop_nil, List.nil_append]
      dsimp only
      omega
  | functor now ctlOk =>
      obtain ⟨id, hpc, hget, rfl⟩ := functor_cases hstep
      obtain ⟨hlt, -⟩ := List.getElem?_eq_some_iff.mp hget
      have hpc' : Worker.pc { s.newEvent id now ctlOk with called := s.called + 1 } = .functors :=
        (newEvent_frame s id now ctlOk).pc.trans hpc
      have hfunctors := (queue_eq (newEvent_steady s id now ctlOk).queue).1
      have hsize := newEvent_size s id now ctlOk
      rw [work_functors hpc, work_functors hpc']
      dsimp only
      rw [hfunctors]
      omega
  | endFunctors =>
      obtain ⟨hpc, rfl⟩ := endFunctors_cases hstep
      have hsize : (s.functors.foldl release { s with functors := [] }).timers.size = s.timers.size :=
        congrArg Table.size (foldl_release_timers s.functors { s with functors := [] })
      rw [work_functors hpc, work_sweep rfl]
      dsimp only
      omega
  | sweep nid now ctlOk =>
      obtain ⟨node, hpc, hnode, -, ⟨-, rfl⟩ | ⟨-, rfl⟩⟩ := sweep_cases hstep
      · obtain ⟨touched, hframe⟩ := dropTimer_frame s nid node ctlOk
        have hsize := dropTimer_size hnode ctlOk
        rw [work_sweep hpc, work_sweep (hframe.pc.trans hpc)]
        omega
      · rw [work_sweep hpc]
        exact Nat.succ_pos _
  | endSweep =>
      obtain ⟨hpc, -, rfl⟩ := endSweep_cases hstep
      rw [work_sweep hpc]
      exact Nat.succ_pos _

/-- The queue has a first node unless it is empty. -/
theorem exists_first {timers : Table TimerNode} (hsome : timers.toList ≠ []) :
    ∃ nid node, timers.get nid = some node ∧
      ∀ e ∈ timers.toList, node.expiredTime ≤ e.2.expiredTime := by
  cases hfirst : timers.toList.argmin fun e => e.2.expiredTime with
  | none => exact absurd (List.argmin_eq_none.mp hfirst) hsome
  | some e =>
      refine ⟨e.1, e.2, Table.mem_toList.mp (List.argmin_mem hfirst), fun e' he' => ?_⟩
      exact List.le_of_mem_argmin (f := fun e : Nat × TimerNode => e.2.expiredTime) he' hfirst

/-- If a channel is next, its input is heard. -/
def Hears (s : Worker) (io : Io) : Prop :=
  s.pc = .dispatch → ∀ request rest, s.ready = request :: rest → s.Heard io request

/-- In the midst of a round the thread has a next step, unless an input is not heard. -/
theorem Refuses.goesOn {log : List Nat} {io : Io} (h : s.Refuses) (he : Enrolled log s) (hpc : s.pc ≠ .poll)
    (hears : s.Hears io) : ∃ a t, a.Serves io ∧ s.step a = some t := by
  cases hpc' : s.pc with
  | poll => exact absurd hpc' hpc
  | dispatch =>
      cases hready : s.ready with
      | nil => exact ⟨.swapFunctors, _, trivial, if_pos ⟨hpc', hready⟩⟩
      | cons request rest =>
          obtain ⟨u, hu⟩ := (h.handle_iff he hpc' hready io).mpr (hears hpc' request rest hready)
          exact ⟨.handle io, u, rfl, hu⟩
  | functors =>
      rcases (he.paced.called hpc').lt_or_eq with hlt | hend
      · refine ⟨.functor io.now io.ctlOk, { s.newEvent s.functors[s.called] io.now io.ctlOk with
          called := s.called + 1 }, ⟨rfl, rfl⟩, ?_⟩
        simp only [step, functor, hpc', List.getElem?_eq_getElem hlt]
      · exact ⟨.endFunctors, _, trivial, if_pos ⟨hpc', hend⟩⟩
  | sweep =>
      by_cases hnone : s.timers.toList = []
      · exact ⟨.endSweep, _, trivial, if_pos ⟨hpc', hnone⟩⟩
      · obtain ⟨nid, node, hnode, hfirst⟩ := exists_first hnone
        by_cases hdue : node.deleted ∨ node.expiredTime ≤ io.now
        · refine ⟨.sweep nid io.now io.ctlOk, s.dropTimer nid node io.ctlOk, ⟨rfl, rfl⟩, ?_⟩
          simp only [step, sweep, hpc', hnode, if_pos hfirst, if_pos hdue]
        · refine ⟨.sweep nid io.now io.ctlOk, { s with pc := .poll }, ⟨rfl, rfl⟩, ?_⟩
          simp only [step, sweep, hpc', hnode, if_pos hfirst, if_neg hdue]

/-- With a channel left the only step is to handle it. -/
theorem Refuses.hears {log : List Nat} {a : WorkerStep} {io : Io} (h : s.Refuses) (he : Enrolled log s)
    (ha : a.Serves io) (hstep : s.step a = some t) : s.Hears io := by
  intro hpc request rest hready
  cases a with
  | accept fd => exact ha.elim
  | acceptorReleases id => exact ha.elim
  | poll events => exact ha.elim
  | handle io' =>
      obtain rfl : io' = io := ha
      exact (h.handle_iff he hpc hready io').mp ⟨t, hstep⟩
  | swapFunctors =>
      obtain ⟨-, hnone, -⟩ := swapFunctors_cases hstep
      rw [hready] at hnone
      cases hnone
  | functor now ctlOk =>
      obtain ⟨id, hpc', -⟩ := functor_cases hstep
      cases hpc.symm.trans hpc'
  | endFunctors =>
      obtain ⟨hpc', -⟩ := endFunctors_cases hstep
      cases hpc.symm.trans hpc'
  | sweep nid now ctlOk =>
      obtain ⟨node, hpc', -⟩ := sweep_cases hstep
      cases hpc.symm.trans hpc'
  | endSweep =>
      obtain ⟨hpc', -⟩ := endSweep_cases hstep
      cases hpc.symm.trans hpc'

theorem round_descends : Descends step (fun _ a => ∃ io, a.Serves io)
    (fun s => (∃ log, Enrolled log s) ∧ s.Refuses) work where
  keeps := fun _ _ _ _ hstep ⟨⟨_, he⟩, h⟩ => ⟨⟨_, step_enrolled he hstep⟩, step_refuses he h hstep⟩
  lowers := fun _ _ _ ⟨_, ha⟩ hstep ⟨⟨_, he⟩, _⟩ => step_work he ha hstep

/-- **A round of the loop ends**, whatever the clients send and the system calls answer: from every state of
a run the thread is back at `epoll_wait`, or at a channel whose input is not heard, after a number of steps for
which there is a bound, and at no other place it cannot take its next step. -/
theorem run_round {wakeupFd : Nat} {ctlOk : Bool} {as : List WorkerStep}
    (hrun : Run step (fun _ _ => True) (created wakeupFd ctlOk) as t) :
    (∀ bs u, Run step (fun _ a => ∃ io, a.Serves io) t bs u → bs.length ≤ t.work ∧
        (u.pc ≠ .poll → ∀ io, (∃ a v, a.Serves io ∧ u.step a = some v) ↔ u.Hears io)) ∧
      ∀ env : Worker → Io, ∃ bs u, Run step (fun s a => a.Serves (env s)) t bs u ∧
        (u.pc = .poll ∨ ¬ u.Hears (env u)) := by
  have ht : (∃ log, Enrolled log t) ∧ t.Refuses := ⟨⟨_, (run_refuses hrun).1⟩, (run_refuses hrun).2⟩
  refine ⟨fun bs u hround => ⟨round_descends.length_le hround ht, fun hpc io => ?_⟩, fun env => ?_⟩
  · obtain ⟨⟨log, he⟩, h⟩ : (∃ log, Enrolled log u) ∧ u.Refuses := hround.invariant round_descends.keeps ht
    exact ⟨fun ⟨a, v, ha, hstep⟩ => h.hears he ha hstep, h.goesOn he hpc⟩
  · have hdescends : Descends step (fun s a => a.Serves (env s))
        (fun s => (∃ log, Enrolled log s) ∧ s.Refuses) work := round_descends.mono fun s _ ha => ⟨env s, ha⟩
    obtain ⟨bs, u, hround, -, hend⟩ := hdescends.reaches (fun s => s.pc = .poll ∨ ¬ s.Hears (env s))
      (fun s ⟨⟨log, he⟩, h⟩ hgoal => by
        obtain ⟨hpc, hears⟩ := not_or.mp hgoal
        exact h.goesOn he hpc (not_not.mp hears)) t ht
    exact ⟨bs, u, hround, hend⟩

/-- The connection of the first round has a timer that its second round leaves in the queue. -/
theorem run_round_second :
    ∃ t : Worker, t.pc = .dispatch ∧ t.work = 6 ∧
      ∀ bs u, Run step (fun _ a => ∃ io, a.Serves io) t bs u → bs.length ≤ 6 := by
  have hexec : (exec (checked step fun _ _ => True) (created 3 true) [.accept 5, .acceptorReleases 0,
      .poll [(3, EPOLLIN)], .handle ⟨someHost, [], [], 0, true⟩, .swapFunctors, .functor 0 true,
        .endFunctors, .sweep 0 1 true, .poll [(5, EPOLLOUT)]]).map (fun t => (t.pc, t.work)) =
          some (.dispatch, 6) := by
    decide +kernel
  obtain ⟨t, ht, hends⟩ := Option.map_eq_some_iff.mp hexec
  obtain ⟨hpc, hwork⟩ : _ ∧ _ := by simpa only [Prod.mk.injEq] using hends
  obtain ⟨hround, -⟩ := run_round (run_of_exec_checked ht)
  exact ⟨t, hpc, hwork, fun bs u hrest => hwork ▸ (hround bs u hrest).1⟩

end Worker

end WebServer
