import WebServer.EpollLeaks
import WebServer.EpollRefusals
import WebServer.EpollSweep

/-! Connections that go quiet. From its `newEvent` until it is removed from the poller a connection has a live
timer node: its events end with a new timer or with `handleClose`, since there never is any output for which
`handleConn` would leave it without one. So a connection whose events do not come is closed by a sweep that
finds its deadline passed, and not before. -/

namespace WebServer

open Runs Stages

/-- Unless output is awaited, `handleConn` makes a call behind the end of the timer. -/
theorem handleConn_calls_ne {c : Conn} (h : ¬ c.Draining) :
    (handleConn c).calls ≠ c.calls ++ [.clearTimer] := by
  by_cases hconn : c.http.error = false ∧ c.http.connectionState = .connected
  · obtain ⟨timeout, -, hcalls, -⟩ := handleConn_connected hconn.1 hconn.2
    rw [hcalls]
    simp
  · rw [handleConn_closes hconn h]
    simp

namespace Worker

variable {s t u : Worker}

/-- The channel whose events the step handles. -/
def handled (s : Worker) : WorkerStep → Option ChannelRef
  | .handle _ => s.ready.head?
  | _ => none

theorem dropTimer_removed {nid id : Nat} {node : TimerNode} (hdata : node.requestData = some id)
    (ctlOk : Bool) : ((s.dropTimer nid node ctlOk).objects id).removed = true := by
  have hcalm := release_calm { s.handleClose id ctlOk with
    timers := (s.handleClose id ctlOk).timers.reset nid } id
  simp only [dropTimer, hdata]
  rw [hcalm.removed id List.not_mem_nil]
  exact handleClose_removed s id ctlOk

/-- The node of a connection stays in the queue but for the events of the connection, and for a sweep that
finds the node deleted or due, and closes the connection. -/
theorem step_node {nid id : Nat} {node : TimerNode} {a : WorkerStep} (hs : s.Sound)
    (hnode : s.timers.get nid = some node) (hdata : node.requestData = some id)
    (hother : s.handled a ≠ some (.http id)) (hstep : s.step a = some t) :
    t.timers.get nid = some node ∨
      (∃ now, a.reading = some now ∧ (node.deleted ∨ node.expiredTime ≤ now)) ∧
        (t.objects id).removed = true := by
  cases a with
  | accept fd =>
      obtain ⟨-, -, htimers⟩ := accept_frame hstep
      exact Or.inl (htimers ▸ hnode)
  | acceptorReleases j =>
      obtain ⟨-, -, htimers⟩ := acceptorReleases_frame hstep
      exact Or.inl (htimers ▸ hnode)
  | poll events =>
      obtain ⟨-, -, rfl⟩ := poll_cases hstep
      refine Or.inl ?_
      show (getEventsReqeust events { s with ready := [] }).timers.get nid = some node
      refine getEventsReqeust_rule (P := fun u => u.timers.get nid = some node) (fun u request revents hu => ?_)
        events hnode
      show (u.setChan request _).timers.get nid = some node
      rw [setChan_timers]
      exact hu
  | handle io =>
      obtain ⟨request, rest, u, -, hready, hslot, hrun, rfl⟩ := handle_cases hs hstep
      have hne : request ≠ .http id := by
        rintro rfl
        exact hother (by rw [handled, hready]; rfl)
      have hkept := handleEvents_keeps hs.inv hnode hdata hslot hne io
      rw [hrun] at hkept
      exact Or.inl hkept
  | swapFunctors =>
      obtain ⟨-, -, rfl⟩ := swapFunctors_cases hstep
      exact Or.inl hnode
  | functor now ctlOk =>
      obtain ⟨j, -, -, rfl⟩ := functor_cases hstep
      exact Or.inl (newEvent_keeps hs.inv hnode j now ctlOk)
  | endFunctors =>
      obtain ⟨-, rfl⟩ := endFunctors_cases hstep
      refine Or.inl ?_
      show (s.functors.foldl release { s with functors := [] }).timers.get nid = some node
      rw [foldl_release_timers]
      exact hnode
  | sweep nid' now ctlOk =>
      obtain ⟨first, -, hfirst, -, ⟨hdue, rfl⟩ | ⟨-, rfl⟩⟩ := sweep_cases hstep
      · by_cases hnid : nid' = nid
        · subst hnid
          obtain rfl := Option.some.inj (hfirst.symm.trans hnode)
          exact Or.inr ⟨⟨now, rfl, hdue⟩, dropTimer_removed hdata ctlOk⟩
        · refine Or.inl ?_
          rw [dropTimer_timers, Table.get_reset_of_ne _ (Ne.symm hnid)]
          exact hnode
      · exact Or.inl hnode
  | endSweep =>
      obtain ⟨-, -, rfl⟩ := endSweep_cases hstep
      exact Or.inl hnode

/-- **The events of a connection** that has a timer end with a timer, or with its removal. -/
theorem handleEvents_tended {id : Nat} (hs : Serving id s s) (hc : Refusing (s.objects id).conn)
    (herror : (s.objects id).conn.http.error = false) (hheld : s.Held id) (io : Io) :
    Safe Unharmed (fun u => (u.objects id).removed = true ∨ u.Held id)
      (s.handleEvents io (.http id)) := by
  have hmeet : Declined id s (s.meet id io) :=
    Declined.setConn ⟨hs, hc⟩ (meet_tame _ io) ⟨hc.unanswered, hc.outBuffer, hc.silent, hc.refused⟩
  have hstart : Declined id s ((s.meet id io).clearEvents (.http id)) := by
    obtain ⟨hunanswered, hout, hsilent, hrefused⟩ := hmeet.refusing
    exact hmeet.setConn (clearEvents_tame _) ⟨hunanswered, hout, hsilent, hrefused⟩
  have herrorStart : (((s.meet id io).clearEvents (.http id)).objects id).conn.http.error = false := by
    show (((s.meet id io).setConn id _).objects id).conn.http.error = false
    rw [setConn_conn]
    show ((s.meet id io).objects id).conn.http.error = false
    rw [meet, setConn_conn]
    exact herror
  have heventsStart : (((s.meet id io).clearEvents (.http id)).objects id).conn.chan.events = 0 := by
    show (((s.meet id io).setConn id _).objects id).conn.chan.events = 0
    rw [setConn_conn]
  have hcleared (u : Worker) (_ : Serving id s u)
      (h : (u.objects id).conn.http.outBuffer = [] ∧ (u.objects id).conn.chan.events = 0) :
      ((u.clearTimer id).objects id).conn.http.outBuffer = [] ∧
        ((u.clearTimer id).objects id).conn.chan.events = 0 := by
    rw [clearTimer_conn]
    exact h
  unfold handleEvents
  refine handleEvents_steps
    (P := fun u => Declined id s u ∧ (u.objects id).conn.http.error = false ∧
      (u.objects id).conn.chan.events = 0 ∧ u.Held id)
    (R := fun u => Serving id s u ∧ (u.objects id).conn.http.outBuffer = [] ∧
      (u.objects id).conn.chan.events = 0)
    (fun _ u hu => ?_) (fun _ u hu => ⟨hu.1.serving, hu.1.refusing.outBuffer, hu.2.2.1⟩) (fun u hu => ?_)
    (fun u hu => ?_) (fun _ u hu => Or.inr hu.2.2.2) ⟨hstart, herrorStart, heventsStart, hheld⟩
  · refine callback_leads io (fun _ _ => handleRead_tame) (fun d hread _ => ?_) hcleared hu.1.serving
    obtain ⟨hd, hchan⟩ := handleRead_refusing hu.1.refusing hu.2.1 hread
    rw [setConn_conn, hchan]
    exact ⟨hd.outBuffer, hu.2.2.1⟩
  · refine callback_returns io rfl (handleWrite_tame _) ?_ hcleared hu.1
    rw [setConn_conn, handleWrite_empty hu.2.1]
    exact hu.2
  · have hdone : ¬ (u.objects id).conn.Draining := by
      rintro ⟨-, -, hawaits⟩
      rw [hu.2.2] at hawaits
      exact EventMask.not_zero_has _ hawaits
    have hseparated := hu.1.separated
    rcases callback_handleConn_cases io hu.1 with ⟨hcalls, -⟩ | ⟨timeout, htimeout, -, hrun⟩ | ⟨-, hrun⟩
    · exact absurd hcalls (handleConn_calls_ne hdone)
    · rw [hrun]
      exact Or.inr (epollMod_timed hseparated.inv hseparated.live htimeout io.now io.ctlOk).held
    · rw [hrun]
      exact Or.inl (handleClose_removed _ id io.ctlOk)

/-- The connections in the care of the poller have a timer. -/
def Tended (s : Worker) : Prop :=
  ∀ id < s.made, (s.objects id).registered = true → (s.objects id).removed = false → s.Held id

theorem newEvent_held (hs : s.Inv) {id : Nat} (hid : s.Live id) (now : Nat) (ctlOk : Bool) :
    (s.newEvent id now ctlOk).Held id := by
  have hsame : SameRefs s (s.setConn id { (s.objects id).conn with chan.events := DEFAULT_EVENT }) :=
    setConn_same s id rfl rfl
  exact (epollAdd_timed (hsame.inv hs) ((hsame.live id).mpr hid) (show 0 < DEFAULT_EXPIRED_TIME by decide)
    now ctlOk).held

theorem step_tended {log : List Nat} {a : WorkerStep} (he : Enrolled log s) (hr : s.Refuses) (h : s.Tended)
    (hstep : s.step a = some t) : t.Tended := by
  intro id hid hregistered hremoved
  rcases (step_calls he.sound he.tidy he.paced hstep).fresh hstep hid with hold | ⟨fd, rfl, rfl, rfl⟩
  · rcases (step_registered he.sound hold hstep).mp hregistered with hbefore | hbegins
    · have hstays : (s.objects id).removed = false := by
        by_contra hgone
        have hages := step_lifelong ages_lifelong he.sound hold hstep
        rw [hages.removed (by simpa using hgone)] at hremoved
        cases hremoved
      obtain ⟨nid, node, hnode, hdata⟩ := h id hold hbefore hstays
      by_cases hown : s.handled a = some (.http id)
      · cases a with
        | handle io =>
            obtain ⟨request, rest, u, -, hready, hslot, hrun, rfl⟩ := handle_cases he.sound hstep
            rw [handled, hready] at hown
            obtain rfl := Option.some.inj hown
            have hserving : Serving id s s := ⟨he.sound.inv, (he.sound.inv.paired _ id).mp hslot, .refl [] s⟩
            have hend := handleEvents_tended hserving (hr.refusing id hold) (hr.unserved he hserving)
              ⟨nid, node, hnode, hdata⟩ io
            rw [hrun] at hend
            have hstill : (u.objects id).removed ≠ true := by simpa using hremoved
            exact hend.resolve_left hstill
        | _ => cases hown
      · rcases step_node he.sound hnode hdata hown hstep with hkept | ⟨-, hgone⟩
        · exact ⟨nid, node, hkept, hdata⟩
        · rw [hgone] at hremoved
          cases hremoved
    · cases a with
      | functor now ctlOk =>
          obtain ⟨j, -, hget, rfl⟩ := functor_cases hstep
          have hj : j = id := by
            simp only [begins, hget, Option.toList_some, List.mem_singleton] at hbegins
            exact hbegins.symm
          subst hj
          exact newEvent_held he.sound.inv (he.sound.inv.refs j (Or.inl (List.mem_of_getElem? hget))) now ctlOk
      | _ => cases hbegins
  · rw [s.handNewConn_new fd] at hregistered
    cases hregistered

theorem run_tended {wakeupFd : Nat} {ctlOk : Bool} {as : List WorkerStep}
    (hrun : Run step (fun _ _ => True) (created wakeupFd ctlOk) as t) :
    Enrolled (emitted step begins (created wakeupFd ctlOk) as) t ∧ t.Refuses ∧ t.Tended := by
  have hnone : (created wakeupFd ctlOk).made = 0 := by
    cases ctlOk <;> rfl
  have hend : Enrolled ([] ++ emitted step begins (created wakeupFd ctlOk) as) t ∧ t.Refuses ∧ t.Tended :=
    hrun.emitted_invariant (I := fun s log => Enrolled log s ∧ s.Refuses ∧ s.Tended)
      (fun _ _ _ _ _ hstep h => ⟨step_enrolled h.1 hstep, step_refuses h.1 h.2.1 hstep,
        step_tended h.1 h.2.1 h.2.2 hstep⟩)
      ⟨created_enrolled wakeupFd ctlOk, (run_refuses (.nil _)).2, fun id hid => absurd hid (by omega)⟩
  exact hend

/-- As long as no events of the connection are handled, its node stays, or the connection is removed. -/
theorem run_node {nid id : Nat} {node : TimerNode} {bs : List WorkerStep} (hs : s.Sound) (hid : id < s.made)
    (hnode : s.timers.get nid = some node) (hdata : node.requestData = some id)
    (hquiet : Run step (fun u a => u.handled a ≠ some (.http id)) s bs t) :
    t.Sound ∧ id < t.made ∧ (t.timers.get nid = some node ∨ (t.objects id).removed = true) := by
  refine hquiet.invariant (I := fun u => u.Sound ∧ id < u.made ∧
    (u.timers.get nid = some node ∨ (u.objects id).removed = true)) (fun u a v hother hstep h => ?_)
    ⟨hs, hid, Or.inl hnode⟩
  obtain ⟨hu, hlt, hcase⟩ := h
  refine ⟨step_sound hu hstep, hlt.trans_le (step_made hu hstep), ?_⟩
  rcases hcase with hkept | hremoved
  · exact (step_node hu hkept hdata hother hstep).imp_right fun h => h.2
  · exact Or.inr ((step_lifelong ages_lifelong hu hlt hstep).removed hremoved)

/-- A sweep that closes the connection. -/
theorem expires_removed {id : Nat} {a : WorkerStep} (hid : id ∈ s.expires a) (hstep : s.step a = some t) :
    (t.objects id).removed = true := by
  cases a with
  | sweep nid now ctlOk =>
      obtain ⟨node, -, hnode, -, ⟨hdue, rfl⟩ | ⟨hdue, -⟩⟩ := sweep_cases hstep
      · simp only [expires, hnode, if_pos hdue, Option.mem_toList] at hid
        exact dropTimer_removed hid ctlOk
      · simp only [expires, hnode, if_neg hdue, List.not_mem_nil] at hid
  | _ => cases hid

/-- A sweep that goes on with the deadline passed does not end before the connection is removed. -/
theorem run_due {nid id : Nat} {node : TimerNode} {bs : List WorkerStep} (hs : Due nid id node s)
    (hid : id < s.made) (hdata : node.requestData = some id)
    (hclock : ∀ b ∈ bs, ∀ now, b.reading = some now → node.expiredTime ≤ now)
    (hrun : Run step (fun _ _ => True) s bs t) : Due nid id node t ∨ (t.objects id).removed = true := by
  have hend : t.Sound ∧ id < t.made ∧ (Due nid id node t ∨ (t.objects id).removed = true) := by
    refine (hrun.labelled hclock).invariant (I := fun u => u.Sound ∧ id < u.made ∧
      (Due nid id node u ∨ (u.objects id).removed = true)) (fun u a v hok hstep h => ?_)
      ⟨hs.sound, hid, Or.inl hs⟩
    obtain ⟨hu, hlt, hcase⟩ := h
    refine ⟨step_sound hu hstep, hlt.trans_le (step_made hu hstep), ?_⟩
    rcases hcase with hdue | hremoved
    · exact (step_due hdue hdata hok.2 hstep).imp_right fun h => expires_removed h hstep
    · exact Or.inr ((step_lifelong ages_lifelong hu hlt hstep).removed hremoved)
  exact hend.2.2

/-- While no event of it is handled, the node of a connection stays until a sweep has read its deadline. -/
theorem quiet_early {nid id : Nat} {node : TimerNode} {bs : List WorkerStep} (hs : s.Sound)
    (hnode : s.timers.get nid = some node) (hdata : node.requestData = some id) (hlive : node.deleted = false)
    (hquiet : Run step (fun u a => u.handled a ≠ some (.http id)) s bs t) (hgone : t.timers.get nid ≠ some node) :
    ∃ now ∈ bs.filterMap WorkerStep.reading, node.expiredTime ≤ now := by
  have hreached : ∃ b ∈ bs, ∃ now, b.reading = some now ∧ node.expiredTime ≤ now := by
    refine hquiet.leaves (P := fun u => u.Sound ∧ u.timers.get nid = some node)
      (fun u a v hother hstep h hearly => ?_) ⟨hs, hnode⟩ fun h => hgone h.2
    refine ⟨step_sound h.1 hstep, (step_node h.1 h.2 hdata hother hstep).resolve_right ?_⟩
    rintro ⟨⟨now, hreading, hdeleted | hdue⟩, -⟩
    · rw [hlive] at hdeleted
      cases hdeleted
    · exact hearly ⟨now, hreading, hdue⟩
  obtain ⟨b, hb, now, hreading, hdue⟩ := hreached
  exact ⟨now, List.mem_filterMap.mpr ⟨b, hb, hreading⟩, hdue⟩

/-- The sweep that has read the deadline does not end before the connection is removed. -/
theorem quiet_swept {nid id now : Nat} {node : TimerNode} {bs : List WorkerStep} (hs : s.Sound)
    (hid : id < s.made) (hnode : s.timers.get nid = some node) (hdata : node.requestData = some id)
    (hquiet : Run step (fun u a => u.handled a ≠ some (.http id)) s bs t)
    (hclock : (bs.filterMap WorkerStep.reading).Pairwise (· ≤ ·))
    (hmem : now ∈ bs.filterMap WorkerStep.reading) (hdue : node.expiredTime ≤ now) (hpc : t.pc = .poll) :
    (t.objects id).removed = true := by
  obtain ⟨b, hb, hreading⟩ := List.mem_filterMap.mp hmem
  obtain ⟨cs, ds, rfl⟩ := List.append_of_mem hb
  obtain ⟨u, hcs, hds⟩ := hquiet.split
  obtain ⟨hu, hlt, hcase⟩ := run_node hs hid hnode hdata hcs
  rw [List.filterMap_append, List.filterMap_cons_some hreading, List.pairwise_append,
    List.pairwise_cons] at hclock
  -- behind the reading that has reached the deadline there are only later ones
  have hlater : ∀ d ∈ b :: ds, ∀ later, d.reading = some later → node.expiredTime ≤ later := by
    intro d hd later hlater
    rcases List.mem_cons.mp hd with rfl | hd
    · obtain rfl := Option.some.inj (hreading.symm.trans hlater)
      exact hdue
    · exact hdue.trans (hclock.2.1.1 later (List.mem_filterMap.mpr ⟨d, hd, hlater⟩))
  rcases hcase with hkept | hremoved
  · have hsweeps : u.pc = .sweep := by
      cases hds with
      | cons _ hstep _ =>
          cases b with
          | sweep nid' now' ctlOk' =>
              obtain ⟨-, hpc', -⟩ := sweep_cases hstep
              exact hpc'
          | _ => cases hreading
    have hready : u.ready = [] := hu.polled.idle (by simp [hsweeps])
    have hstart : Due nid id node u := ⟨hu, by simp [hsweeps], by simp [hready], hkept⟩
    exact (run_due hstart hlt hdata hlater (hds.mono fun _ _ _ => trivial)).resolve_left fun h => h.busy hpc
  · have hages := run_lifelong ages_lifelong hu hlt (hds.mono fun _ _ _ => trivial)
    exact hages.removed hremoved

/-- **Quiet connections are closed.** In every run of a worker each connection in the care of the poller has a
live timer. As long as none of its events are handled from there on, it is removed only by a sweep whose clock
has reached the deadline; and if the clock does not go back, a sweep that has reached it does not end before the
connection is removed, and destroyed, unless the listening thread has not let it go yet. -/
theorem run_idle {wakeupFd id : Nat} {ctlOk : Bool} {as : List WorkerStep}
    (hrun : Run step (fun _ _ => True) (created wakeupFd ctlOk) as s) (hid : id < s.made)
    (hregistered : (s.objects id).registered = true) (hcared : (s.objects id).removed = false) :
    ∃ nid node, (s.objects id).timer = some nid ∧ s.timers.get nid = some node ∧ node.deleted = false ∧
      ∀ bs t, Run step (fun u a => u.handled a ≠ some (.http id)) s bs t →
        ((t.objects id).removed = true → ∃ now ∈ bs.filterMap WorkerStep.reading, node.expiredTime ≤ now) ∧
          ((bs.filterMap WorkerStep.reading).Pairwise (· ≤ ·) →
            (∃ now ∈ bs.filterMap WorkerStep.reading, node.expiredTime ≤ now) → t.pc = .poll →
              (t.objects id).removed = true ∧ ((t.objects id).destroyed = true ∨ id ∈ t.acceptors)) := by
  obtain ⟨he, -, htended⟩ := run_tended hrun
  obtain ⟨nid, node, hnode, hdata⟩ := htended id hid hregistered hcared
  obtain ⟨hlive, hlink⟩ := he.tidy.linked nid node id hnode hdata
  refine ⟨nid, node, hlink, hnode, hlive, fun bs t hquiet => ?_⟩
  have hwhole : Run step (fun _ _ => True) (created wakeupFd ctlOk) (as ++ bs) t :=
    hrun.append (hquiet.mono fun _ _ _ => trivial)
  have ht := run_enrolled hwhole
  constructor
  · intro hremoved
    have hgone : t.timers.get nid ≠ some node := fun h =>
      (ht.tidy.retired id hremoved).2 ⟨nid, node, h, hdata⟩
    exact quiet_early he.sound hnode hdata hlive hquiet hgone
  · rintro hclock ⟨now, hmem, hdue⟩ hpc
    have hremoved := quiet_swept he.sound hid hnode hdata hquiet hclock hmem hdue hpc
    have hid' : id < t.made := (run_node he.sound hid hnode hdata hquiet).2.1
    exact ⟨hremoved, (run_leaks hwhole).2 (by simp [hpc]) id hid' hremoved⟩

/-- A connection whose client sends nothing is closed by the first sweep behind its deadline. -/
theorem run_idle_swept :
    ∃ t : Worker, (t.objects 0).removed = true ∧ (t.objects 0).destroyed = true := by
  have hexec : ∃ s : Worker, exec (checked step fun _ _ => True) (created 3 true) idleStart = some s ∧
      s.made = 1 ∧ (s.objects 0).registered = true ∧ (s.objects 0).removed = false ∧
        (s.objects 0).timer = some 0 ∧ s.timers.get 0 = some ⟨false, 2000, some 0⟩ ∧
          ∃ t, exec (checked step fun u a => u.handled a ≠ some (.http 0)) s [.poll [(3, EPOLLIN)],
            .handle ⟨someHost, [], [], 9000, true⟩, .swapFunctors, .endFunctors, .sweep 0 9000 true,
              .endSweep] = some t ∧ t.pc = .poll ∧ t.acceptors = [] :=
    ⟨_, rfl, rfl, rfl, rfl, rfl, rfl, _, rfl, rfl, rfl⟩
  obtain ⟨s, hs, hmade, hregistered, hcared, hlink, hnode, t, ht, hpc, hnone⟩ := hexec
  obtain ⟨nid, node, hlink', hnode', -, hquiet⟩ :=
    run_idle (run_of_exec_checked hs) (by omega) hregistered hcared
  obtain rfl := Option.some.inj (hlink'.symm.trans hlink)
  obtain rfl := Option.some.inj (hnode'.symm.trans hnode)
  obtain ⟨-, hcloses⟩ := hquiet _ t (run_of_exec_checked ht)
  have hreadings : [WorkerStep.poll [(3, EPOLLIN)], .handle ⟨someHost, [], [], 9000, true⟩,
      .swapFunctors, .endFunctors, .sweep 0 9000 true, .endSweep].filterMap WorkerStep.reading = [9000] := rfl
  rw [hreadings] at hcloses
  obtain ⟨hremoved, hgone⟩ :=
    hcloses (List.pairwise_singleton _ _) ⟨9000, List.mem_singleton_self _, by decide⟩ hpc
  exact ⟨t, hremoved, hgone.resolve_right (by simp [hnone])⟩

end Worker

end WebServer
