import WebServer.EpollTimers

/-! When the timers are swept. `poll` returns only with a channel that is ready, so between two calls of
`epoll_wait` there is a sweep just if the first has reported a descriptor that has a table entry; a sweep
ends when no timer that has expired is left. -/

namespace WebServer

open Runs Stages

/-- A call of `epoll_wait`. -/
def WorkerStep.waits : WorkerStep → Bool
  | .poll _ => true
  | _ => false

/-- A step of `handleExpiredEvent`. -/
def WorkerStep.sweeps : WorkerStep → Bool
  | .sweep _ _ _ => true
  | .endSweep => true
  | _ => false

/-- The clock, where the step reads it for `isValid`. -/
def WorkerStep.reading : WorkerStep → Option Nat
  | .sweep _ now _ => some now
  | _ => none

namespace Worker

variable {s t u v w : Worker}

theorem getEventsReqeust_ready (events : List (Nat × EventMask)) (s : Worker) :
    (getEventsReqeust events s).ready = s.ready ++ events.filterMap fun e => s.fd2chan.get e.1 := by
  induction events generalizing s with
  | nil => exact (List.append_nil _).symm
  | cons event events ih =>
      obtain ⟨fd, revents⟩ := event
      cases hget : s.fd2chan.get fd with
      | none =>
          rw [getEventsReqeust_empty hget, ih, List.filterMap_cons_none (by exact hget)]
      | some request =>
          have hchan (k : Nat) : (s.found request revents).fd2chan.get k = s.fd2chan.get k :=
            (found_frame s request revents).fd2chan k List.not_mem_nil
          rw [getEventsReqeust_found hget, ih, found_ready, List.append_assoc,
            List.filterMap_cons_some (by exact hget)]
          simp only [hchan, List.singleton_append]

/-- `poll` goes on to wait unless a channel is ready. -/
theorem poll_pc {events : List (Nat × EventMask)} (hstep : s.poll events = some t) :
    t.pc = .poll ↔ ∀ e ∈ events, s.fd2chan.get e.1 = none := by
  obtain ⟨-, -, rfl⟩ := poll_cases hstep
  have hready := getEventsReqeust_ready events { s with ready := [] }
  simp only [List.nil_append] at hready
  have hnone : (getEventsReqeust events { s with ready := [] }).ready = [] ↔
      ∀ e ∈ events, s.fd2chan.get e.1 = none := by
    rw [hready, List.filterMap_eq_nil_iff]
  rw [← hnone]
  simp only []
  split_ifs with hempty
  · exact iff_of_true rfl hempty
  · exact iff_of_false (by decide) hempty

theorem poll_waits {events : List (Nat × EventMask)} (hstep : s.poll events = some t) : s.pc = .poll :=
  (poll_cases hstep).1

theorem accept_frame {fd : Nat} (hstep : s.accept fd = some t) :
    t.pc = s.pc ∧ t.ready = s.ready ∧ t.timers = s.timers := by
  obtain ⟨-, -, rfl⟩ := accept_cases hstep
  exact ⟨rfl, rfl, rfl⟩

theorem acceptorReleases_frame {id : Nat} (hstep : s.acceptorReleases id = some t) :
    t.pc = s.pc ∧ t.ready = s.ready ∧ t.timers = s.timers := by
  obtain ⟨-, rfl⟩ := acceptorReleases_cases hstep
  have hframe := release_frame { s with acceptors := s.acceptors.erase id } id
  exact ⟨hframe.pc, hframe.ready, releaseOption_timers _ (some id)⟩

/-- While the loop is about to wait, nothing but the listening thread moves. -/
theorem step_waiting {a : WorkerStep} (hwaits : a.waits = false) (hpc : s.pc = .poll)
    (hstep : s.step a = some t) : t.pc = .poll ∧ a.sweeps = false := by
  cases a with
  | accept fd => exact ⟨(accept_frame hstep).1.trans hpc, rfl⟩
  | acceptorReleases id => exact ⟨(acceptorReleases_frame hstep).1.trans hpc, rfl⟩
  | poll events => cases hwaits
  | handle io => simp [step, handle, hpc] at hstep
  | swapFunctors => simp [step, swapFunctors, hpc] at hstep
  | functor now ctlOk => simp [step, functor, hpc] at hstep
  | endFunctors => simp [step, endFunctors, hpc] at hstep
  | sweep nid now ctlOk => simp [step, sweep, hpc] at hstep
  | endSweep => simp [step, endSweep, hpc] at hstep

/-- The loop does not come back to waiting but by a sweep. -/
theorem step_busy {a : WorkerStep} (hs : s.Sound) (hpc : s.pc ≠ .poll) (hstep : s.step a = some t)
    (hsweeps : ¬ a.sweeps = true) : t.pc ≠ .poll := by
  cases a with
  | accept fd => exact (accept_frame hstep).1 ▸ hpc
  | acceptorReleases id => exact (acceptorReleases_frame hstep).1 ▸ hpc
  | poll events => exact absurd (poll_waits hstep) hpc
  | handle io =>
      obtain ⟨request, rest, u, -, -, hslot, hrun, rfl⟩ := handle_cases hs hstep
      have hserved := handleEvents_served hs.inv hslot io
      rw [hrun] at hserved
      exact hserved.frame.pc ▸ hpc
  | swapFunctors =>
      obtain ⟨-, -, rfl⟩ := swapFunctors_cases hstep
      show WorkerPc.functors ≠ .poll
      decide
  | functor now ctlOk =>
      obtain ⟨id, -, -, rfl⟩ := functor_cases hstep
      rw [(newEvent_frame s id now ctlOk).pc]
      exact hpc
  | endFunctors =>
      obtain ⟨-, rfl⟩ := endFunctors_cases hstep
      show WorkerPc.sweep ≠ .poll
      decide
  | sweep nid now ctlOk => exact absurd rfl hsweeps
  | endSweep => exact absurd rfl hsweeps

theorem run_waiting {bs : List WorkerStep} (hrun : Run step (fun _ b => b.waits = false) s bs t)
    (hpc : s.pc = .poll) : ∀ b ∈ bs, b.sweeps = false := by
  induction hrun with
  | nil => simp
  | cons hwaits hstep _ ih =>
      obtain ⟨hnext, hsweeps⟩ := step_waiting hwaits hpc hstep
      intro b hb
      rcases List.mem_cons.mp hb with rfl | hb
      · exact hsweeps
      · exact ih hnext b hb

/-- Between two calls of `epoll_wait` the timers are swept just if the first has found a channel. -/
theorem swept_iff {events events' : List (Nat × EventMask)} {bs : List WorkerStep} (hu : u.Sound)
    (hpoll : s.poll events = some u) (hrun : Run step (fun _ b => b.waits = false) u bs v)
    (hnext : v.poll events' = some w) :
    (∃ b ∈ bs, b.sweeps = true) ↔ ∃ e ∈ events, s.fd2chan.get e.1 ≠ none := by
  have hpc := poll_pc hpoll
  have hv : v.pc = .poll := poll_waits hnext
  constructor
  · rintro ⟨b, hb, hsweeps⟩
    by_contra hnone
    have hall : ∀ e ∈ events, s.fd2chan.get e.1 = none := by simpa using hnone
    rw [run_waiting hrun (hpc.mpr hall) b hb] at hsweeps
    cases hsweeps
  · rintro ⟨e, he, hentry⟩
    have hbusy : u.pc ≠ .poll := fun h => hentry (hpc.mp h e he)
    have hkeep (s : Worker) (a : WorkerStep) (t : Worker) (_ : a.waits = false) (hstep : s.step a = some t)
        (h : s.Sound ∧ s.pc ≠ .poll) (hsweeps : ¬ a.sweeps = true) : t.Sound ∧ t.pc ≠ .poll :=
      ⟨step_sound h.1 hstep, step_busy h.1 h.2 hstep hsweeps⟩
    exact hrun.leaves hkeep ⟨hu, hbusy⟩ fun h => h.2 hv

theorem release_timers (s : Worker) (id : Nat) : (s.release id).timers = s.timers :=
  releaseOption_timers s (some id)

theorem foldl_release_timers (ids : List Nat) (s : Worker) : (ids.foldl release s).timers = s.timers := by
  induction ids generalizing s with
  | nil => rfl
  | cons id ids ih => exact (ih (s.release id)).trans (release_timers s id)

theorem dropTimer_timers (s : Worker) (nid : Nat) (node : TimerNode) (ctlOk : Bool) :
    (s.dropTimer nid node ctlOk).timers = s.timers.reset nid := by
  unfold dropTimer
  split
  · dsimp only
    rw [release_timers, handleClose_timers]
  · rfl

theorem setChan_timers (s : Worker) (request : ChannelRef) (ch : Channel) :
    (s.setChan request ch).timers = s.timers := by
  cases request <;> rfl

theorem epollCtl_timers (s : Worker) (fd : Nat) (events : EventMask) (ctlOk : Bool) :
    (s.epollCtl fd events ctlOk).timers = s.timers := by
  unfold epollCtl resetSlots
  split_ifs
  · rfl
  · exact releaseOption_timers _ _

theorem noteEvents_timers (s : Worker) (request : ChannelRef) : (s.noteEvents request).timers = s.timers :=
  setChan_timers s request _

/-- A new timer leaves the nodes there are alone. -/
theorem startTimer_keeps (hs : s.Inv) {nid : Nat} {node : TimerNode} (hnode : s.timers.get nid = some node)
    (request : ChannelRef) (timeout : Int) (now : Nat) :
    (s.startTimer request timeout now).timers.get nid = some node := by
  have hne : nid ≠ s.timersMade := (hs.numbered nid node hnode).ne
  rcases startTimer_cases s request timeout now with hsame | ⟨id, -, hadded⟩
  · rwa [hsame]
  · rw [hadded]
    exact (Table.get_set_of_ne _ hne _).trans hnode

theorem epollMod_keeps (hs : s.Inv) {nid : Nat} {node : TimerNode} (hnode : s.timers.get nid = some node)
    (request : ChannelRef) (timeout : Int) (now : Nat) (ctlOk : Bool) :
    (s.epollMod request timeout now ctlOk).timers.get nid = some node := by
  have hstarted := startTimer_keeps hs hnode request timeout now
  rw [epollMod_eq]
  dsimp only
  split_ifs
  · rw [noteEvents_timers]
    exact hstarted
  · rw [epollCtl_timers, noteEvents_timers]
    exact hstarted

theorem newEvent_keeps (hs : s.Inv) {nid : Nat} {node : TimerNode} (hnode : s.timers.get nid = some node)
    (id now : Nat) (ctlOk : Bool) : (s.newEvent id now ctlOk).timers.get nid = some node := by
  have hsame : SameRefs s (s.setConn id { (s.objects id).conn with chan.events := DEFAULT_EVENT }) :=
    setConn_same s id rfl rfl
  have hstarted := startTimer_keeps (hsame.inv hs) hnode (.http id) DEFAULT_EXPIRED_TIME now
  show ((s.setConn id { (s.objects id).conn with chan.events := DEFAULT_EVENT }).epollAdd (.http id)
    DEFAULT_EXPIRED_TIME now ctlOk).timers.get nid = some node
  rw [epollAdd_eq]
  dsimp only
  rw [epollCtl_timers, noteEvents_timers, setSlots, releaseOption_timers]
  exact hstarted

theorem handleWakeup_timers (s : Worker) (io : Io) : (s.handleWakeup io).timers = s.timers := by
  refine handleWakeup_rule (P := fun t => t.timers = s.timers) (fun _ _ _ h => h) (fun t h => ?_) rfl
  have hnone : t.startTimer .wakeup 0 io.now = t := if_neg (by decide)
  rw [epollMod_eq, hnone]
  dsimp only
  split_ifs
  · exact (noteEvents_timers t .wakeup).trans h
  · exact (epollCtl_timers _ _ _ _).trans ((noteEvents_timers t .wakeup).trans h)

/-- A connection clears no node but its own. -/
theorem clearTimer_keeps (hs : s.Inv) {nid id : Nat} {node : TimerNode} (hnode : s.timers.get nid = some node)
    (hdata : node.requestData = some id) {j : Nat} (hj : j ≠ id) :
    (s.clearTimer j).timers.get nid = some node := by
  rcases clearTimer_cases s j with ⟨-, hsame⟩ | ⟨k, other, hlink, -, hcleared⟩
  · rwa [hsame]
  have hk : nid ≠ k := by
    rintro rfl
    rcases hs.links j nid node hlink hnode with hnone | hsome
    · rw [hnone] at hdata
      cases hdata
    · exact hj (Option.some.inj (hsome.symm.trans hdata))
  rw [hcleared, releaseOption_timers]
  exact (Table.get_set_of_ne _ hk _).trans hnode

/-- The events of another channel leave the node of a connection alone. -/
theorem handleEvents_keeps (hs : s.Inv) {nid id : Nat} {node : TimerNode}
    (hnode : s.timers.get nid = some node) (hdata : node.requestData = some id) {request : ChannelRef}
    (hslot : s.fd2chan.get (s.chan request).fd = some request) (hother : request ≠ .http id) (io : Io) :
    Safe Unharmed (fun u => u.timers.get nid = some node) (s.handleEvents io request) := by
  cases request with
  | wakeup =>
      show (s.handleWakeup io).timers.get nid = some node
      rw [handleWakeup_timers]
      exact hnode
  | http j =>
      have hj : j ≠ id := fun h => hother (congrArg ChannelRef.http h)
      have hstart : Serving j s s := ⟨hs, (hs.paired _ j).mp hslot, .refl [] s⟩
      refine handleEvents_rule (P := fun u => u.timers.get nid = some node) hstart
        (fun _ _ _ h _ => h) (fun t ht h => clearTimer_keeps ht.inv h hdata hj) (fun t ht h => ?_)
        (fun _ _ h => h) hnode
      have hseparated : (t.separated j).timers.get nid = some node := by
        obtain ⟨hhttp, hchan, -⟩ := handleConn_calls (t.objects j).conn
        exact clearTimer_keeps (ht.setConn hhttp hchan).inv h hdata hj
      rcases callback_handleConn_cases io ht with ⟨-, hrun⟩ | ⟨timeout, -, -, hrun⟩ | ⟨-, hrun⟩
      all_goals rw [hrun]
      · exact hseparated
      · exact epollMod_keeps ht.separated.inv hseparated (.http j) timeout io.now io.ctlOk
      · show ((t.separated j).handleClose j io.ctlOk).timers.get nid = some node
        rw [handleClose_timers]
        exact hseparated

/-- The loop is on its way to the sweep or in it, and the node holds a connection that is not to be
handled any more. -/
structure Due (nid id : Nat) (node : TimerNode) (s : Worker) : Prop where
  sound : s.Sound
  busy : s.pc ≠ .poll
  handled : .http id ∉ s.ready
  node : s.timers.get nid = some node

/-- A sweep takes the nodes by their deadlines: it goes on as long as one is due. -/
theorem sweep_due {nid id nid' now : Nat} {node : TimerNode} {ctlOk : Bool} (h : Due nid id node s)
    (hdata : node.requestData = some id) (hdue : node.expiredTime ≤ now)
    (hstep : s.sweep nid' now ctlOk = some t) :
    Due nid id node t ∨ id ∈ s.expires (.sweep nid' now ctlOk) := by
  have hsound := sweep_sound h.sound hstep
  obtain ⟨first, -, hfirst, hmin, hcases⟩ := sweep_cases hstep
  have hle : first.expiredTime ≤ node.expiredTime := hmin _ (Table.mem_toList.mpr h.node)
  have hexpired : first.expiredTime ≤ now := hle.trans hdue
  obtain ⟨-, rfl⟩ | ⟨hend, -⟩ := hcases
  · by_cases hnid : nid' = nid
    · subst hnid
      obtain rfl := Option.some.inj (hfirst.symm.trans h.node)
      apply Or.inr
      simp [expires, hfirst, hexpired, hdata]
    · obtain ⟨touched, hframe⟩ := dropTimer_frame s nid' first ctlOk
      refine Or.inl ⟨hsound, hframe.pc ▸ h.busy, hframe.ready ▸ h.handled, ?_⟩
      rw [dropTimer_timers, Table.get_reset_of_ne _ (Ne.symm hnid)]
      exact h.node
  · exact absurd (Or.inr hexpired) hend

/-- **The node stays, or the step closes its connection.** -/
theorem step_due {nid id : Nat} {node : TimerNode} {a : WorkerStep} (h : Due nid id node s)
    (hdata : node.requestData = some id) (hdue : ∀ now, a.reading = some now → node.expiredTime ≤ now)
    (hstep : s.step a = some t) : Due nid id node t ∨ id ∈ s.expires a := by
  have hsound := step_sound h.sound hstep
  cases a with
  | accept fd =>
      obtain ⟨hpc, hready, htimers⟩ := accept_frame hstep
      exact Or.inl ⟨hsound, hpc ▸ h.busy, hready ▸ h.handled, htimers ▸ h.node⟩
  | acceptorReleases j =>
      obtain ⟨hpc, hready, htimers⟩ := acceptorReleases_frame hstep
      exact Or.inl ⟨hsound, hpc ▸ h.busy, hready ▸ h.handled, htimers ▸ h.node⟩
  | poll events => exact absurd (poll_waits hstep) h.busy
  | handle io =>
      have hbusy := step_busy h.sound h.busy hstep Bool.false_ne_true
      obtain ⟨request, rest, u, -, hready, hslot, hrun, rfl⟩ := handle_cases h.sound hstep
      have hother : request ≠ .http id := fun heq => h.handled (heq ▸ hready ▸ List.mem_cons_self)
      have hkept := handleEvents_keeps h.sound.inv h.node hdata hslot hother io
      rw [hrun] at hkept
      exact Or.inl ⟨hsound, hbusy, fun hid => h.handled (hready ▸ List.mem_cons_of_mem _ hid), hkept⟩
  | swapFunctors =>
      have hbusy := step_busy h.sound h.busy hstep Bool.false_ne_true
      obtain ⟨-, -, rfl⟩ := swapFunctors_cases hstep
      exact Or.inl ⟨hsound, hbusy, h.handled, h.node⟩
  | functor now ctlOk =>
      have hbusy := step_busy h.sound h.busy hstep Bool.false_ne_true
      obtain ⟨j, -, -, rfl⟩ := functor_cases hstep
      have hframe := newEvent_frame s j now ctlOk
      exact Or.inl ⟨hsound, hbusy, hframe.ready ▸ h.handled, newEvent_keeps h.sound.inv h.node j now ctlOk⟩
  | endFunctors =>
      have hbusy := step_busy h.sound h.busy hstep Bool.false_ne_true
      obtain ⟨-, rfl⟩ := endFunctors_cases hstep
      obtain ⟨-, hframe⟩ := foldl_release_calm s.functors { s with functors := [] }
      have hready : (s.functors.foldl release { s with functors := [] }).ready = s.ready := hframe.ready
      refine Or.inl ⟨hsound, hbusy, fun hid => h.handled (hready.subst (motive := (_ ∈ ·)) hid), ?_⟩
      show (s.functors.foldl release { s with functors := [] }).timers.get nid = some node
      rw [foldl_release_timers]
      exact h.node
  | sweep nid' now ctlOk => exact sweep_due h hdata (hdue now rfl) hstep
  | endSweep =>
      obtain ⟨-, hempty, -⟩ := endSweep_cases hstep
      have hmem := Table.mem_toList.mpr h.node
      simp [hempty] at hmem

/-- **When timers are swept.** After a call of `epoll_wait` the loop sweeps its timers before the next call
just if the first has reported a descriptor with a table entry. Where it does, the sweep closes every
connection whose timer node has a deadline that the clock has reached by then, if the node is still there
when the event of the connection, if any, has been handled. -/
theorem run_swept {wakeupFd : Nat} {ctlOk : Bool} {as bs : List WorkerStep}
    {events events' : List (Nat × EventMask)}
    (hrun : Run step (fun _ _ => True) (created wakeupFd ctlOk) as s) (hpoll : s.poll events = some u)
    (hround : Run step (fun _ b => b.waits = false) u bs v) (hnext : v.poll events' = some w) :
    ((∃ b ∈ bs, b.sweeps = true) ↔ ∃ e ∈ events, s.fd2chan.get e.1 ≠ none) ∧
      ∀ cs ds t nid node id, bs = cs ++ ds → Run step (fun _ _ => True) u cs t → t.pc ≠ .poll →
        .http id ∉ t.ready → t.timers.get nid = some node → node.requestData = some id →
        (∀ d ∈ ds, ∀ now, d.reading = some now → node.expiredTime ≤ now) → id ∈ emitted step expires t ds := by
  have hu : u.Sound := poll_sound (run_sound hrun) hpoll
  refine ⟨swept_iff hu hpoll hround hnext, ?_⟩
  rintro cs ds t nid node id rfl hcs hbusy hhandled hnode hdata hclock
  obtain ⟨t', hcs', hds⟩ := hround.split
  obtain rfl := hcs.unique hcs'
  have ht : t.Sound := hcs.invariant (fun _ _ _ _ hstep h => step_sound h hstep) hu
  have hend : Due nid id node v ∨ id ∈ emitted step expires t ds :=
    (hds.labelled hclock).holds_until (fun _ _ _ hok hstep h => step_due h hdata hok.2 hstep)
      ⟨ht, hbusy, hhandled, hnode⟩
  exact hend.resolve_left fun h => h.busy (poll_waits hnext)

/-- A connection is added, and its deadline of two seconds is not met yet. -/
def idleStart : List WorkerStep :=
  [.accept 5, .acceptorReleases 0, .poll [(3, EPOLLIN)], .handle ⟨someHost, [], [], 0, true⟩,
    .swapFunctors, .functor 0 true, .endFunctors, .sweep 0 1 true]

/-- The deadline passes; the next event for the worker leads to the sweep that closes the connection. -/
theorem run_swept_wakeup :
    ∃ u : Worker, ∃ ds : List WorkerStep, (∃ d ∈ ds, d.sweeps = true) ∧ 0 ∈ emitted step expires u ds := by
  have hexec : ∃ s u v w : Worker, exec (checked step fun _ _ => True) (created 3 true) idleStart = some s ∧
      s.poll [(3, EPOLLIN)] = some u ∧ exec (checked step fun _ b => b.waits = false) u
        [.handle ⟨someHost, [], [], 9000, true⟩, .swapFunctors, .endFunctors, .sweep 0 9000 true,
          .endSweep] = some v ∧ v.poll [] = some w ∧ s.fd2chan.get 3 = some .wakeup ∧ u.pc = .dispatch ∧
            u.ready = [.wakeup] ∧ u.timers.get 0 = some ⟨false, 2000, some 0⟩ :=
    ⟨_, _, _, _, rfl, rfl, rfl, rfl, rfl, rfl, rfl, rfl⟩
  obtain ⟨s, u, v, w, hs, hpoll, hround, hnext, hentry, hpc, hready, hnode⟩ := hexec
  obtain ⟨hswept, hcloses⟩ := run_swept (run_of_exec_checked hs) hpoll (run_of_exec_checked hround) hnext
  refine ⟨u, _, hswept.mpr ⟨(3, EPOLLIN), List.mem_cons_self, by rw [hentry]; simp⟩, ?_⟩
  refine hcloses [] _ u 0 ⟨false, 2000, some 0⟩ 0 rfl (.nil u) (by rw [hpc]; decide) (by simp [hready]) hnode
    rfl ?_
  simp [WorkerStep.reading]

/-- Two calls of `epoll_wait` that find no channel, and nothing in between. -/
theorem run_unswept :
    ¬ ∀ (as bs : List WorkerStep) (events events' : List (Nat × EventMask)) (s u v w : Worker),
      Run step (fun _ _ => True) (created 3 true) as s → s.poll events = some u →
      Run step (fun _ b => b.waits = false) u bs v → v.poll events' = some w →
      ∃ b ∈ bs, b.sweeps = true := by
  intro hclaim
  have hexec : ∃ s u w : Worker, exec (checked step fun _ _ => True) (created 3 true) idleStart = some s ∧
      s.poll [] = some u ∧ u.poll [] = some w := ⟨_, _, _, rfl, rfl, rfl⟩
  obtain ⟨s, u, w, hs, hpoll, hnext⟩ := hexec
  obtain ⟨b, hb, -⟩ := hclaim _ [] [] [] s u u w (run_of_exec_checked hs) hpoll (.nil u) hnext
  cases hb

end Worker

end WebServer
