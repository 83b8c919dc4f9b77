import WebServer.EpollHistory

/-! No connection leaks. Whatever takes a reference to a connection away releases the connection, so each one
that nothing refers to has been destroyed. What was removed from the poller is then destroyed as soon as the
round of functors that registered it has ended and the listening thread has let it go. -/

namespace WebServer

open Runs Stages

namespace Worker

variable {s t u : Worker}

/-- Every connection that nothing refers to was destroyed, but for those whose release is due. -/
def CollectedBut (due : List Nat) (s : Worker) : Prop :=
  ∀ id < s.made, id ∉ due → ¬ s.Owned id → (s.objects id).destroyed = true

/-- The references of `s` but for those to the connections `lost` are references of `t`. -/
structure Loses (lost : List Nat) (s t : Worker) : Prop where
  made : t.made = s.made
  destroyed : ∀ id, (t.objects id).destroyed = (s.objects id).destroyed
  owned : ∀ id, id ∉ lost → s.Owned id → t.Owned id

theorem owned_iff (s : Worker) (id : Nat) : s.Owned id ↔ (∃ fd, s.fd2http.get fd = some id) ∨ s.Held id ∨
    id ∈ s.functors ∨ id ∈ s.pendingFunctors ∨ id ∈ s.acceptors := by
  unfold Owned Held
  simp only [Prod.exists, Table.mem_toList, exists_eq_right]

theorem Loses.collected {lost due : List Nat} (h : Loses lost s t) (hs : s.CollectedBut due) :
    t.CollectedBut (lost ++ due) := by
  intro id hid hout hfree
  rw [List.mem_append, not_or] at hout
  rw [h.destroyed]
  exact hs id (h.made ▸ hid) hout.2 fun howned => hfree (h.owned id hout.1 howned)

/-- The release of a connection makes up for the reference lost. -/
theorem release_collected {id : Nat} {due : List Nat} (hs : s.CollectedBut (id :: due)) :
    (s.release id).CollectedBut due := by
  unfold release
  split_ifs with howned
  · intro j hj hout hfree
    have hne : j ≠ id := fun h => hfree (h ▸ howned)
    exact hs j hj (by simp [hne, hout]) hfree
  · intro j hj hout hfree
    by_cases hne : j = id
    · subst hne
      exact congrArg HttpObject.destroyed (setObject_self s j { s.objects j with destroyed := true })
    · have hother : (s.destroy id).objects j = s.objects j := setObject_other s hne _
      rw [hother]
      exact hs j hj (by simp [hne, hout]) hfree

theorem releaseOption_collected {o : Option Nat} {due : List Nat} (hs : s.CollectedBut (o.toList ++ due)) :
    (s.releaseOption o).CollectedBut due := by
  cases o with
  | none => exact hs
  | some id => exact release_collected hs

theorem foldl_release_collected {ids : List Nat} (hs : s.CollectedBut ids) :
    (ids.foldl release s).CollectedBut [] := by
  induction ids generalizing s with
  | nil => exact hs
  | cons id ids ih => exact ih (release_collected hs)

theorem SameRefs.loses (h : SameRefs s t) : Loses [] s t where
  made := h.made
  destroyed id := (h.objects id).destroyed
  owned id _ howned := by
    rw [owned_iff] at howned ⊢
    rw [h.fd2http, h.held id, h.functors, h.pendingFunctors, h.acceptors]
    exact howned

theorem SameRefs.collected {due : List Nat} (h : SameRefs s t) (hs : s.CollectedBut due) :
    t.CollectedBut due := h.loses.collected hs

/-- A connection keeps its reference where a timer node is set, unless it was that of the node. -/
theorem setNode_loses {nid made : Nat} (node : TimerNode) {lost : List Nat}
    (hlost : ∀ old id, s.timers.get nid = some old → old.requestData = some id → id ∈ lost) :
    Loses lost s { s with timers := s.timers.set nid node, timersMade := made } where
  made := rfl
  destroyed _ := rfl
  owned id hout howned := by
    rw [owned_iff] at howned ⊢
    refine howned.imp_right fun h => h.imp_left ?_
    rintro ⟨k, old, hget, hdata⟩
    have hk : k ≠ nid := by
      rintro rfl
      exact hout (hlost old id hget hdata)
    exact ⟨k, old, (Table.get_set_of_ne _ hk _).trans hget, hdata⟩

theorem addTimer_collected (hs : s.Inv) {due : List Nat} (h : s.CollectedBut due) (id : Nat) (timeout : Int)
    (now : Nat) : (s.addTimer id timeout now).CollectedBut due := by
  have hnode : Loses [] s { s with
      timers := s.timers.set s.timersMade ⟨false, now + timeout.toNat, some id⟩
      timersMade := s.timersMade + 1 } := by
    apply setNode_loses
    intro old j hget _
    exact absurd (hs.numbered _ old hget) (lt_irrefl _)
  intro j hj hout hfree
  have hdestroyed := hnode.collected h j hj hout hfree
  by_cases hne : j = id
  · subst hne
    rw [addTimer_self]
    exact hdestroyed
  · rw [addTimer_other _ hne]
    exact hdestroyed

theorem startTimer_collected (hs : s.Inv) {due : List Nat} (h : s.CollectedBut due) (request : ChannelRef)
    (timeout : Int) (now : Nat) : (s.startTimer request timeout now).CollectedBut due := by
  rcases startTimer_cases s request timeout now with hsame | ⟨id, -, hadded⟩
  · rw [hsame]
    exact h
  · rw [hadded]
    exact addTimer_collected hs h id timeout now

/-- An entry of the table for a descriptor is set, or goes. -/
theorem setEntry_collected {due : List Nat} (h : s.CollectedBut due) (fd : Nat) {fd2chan : Table ChannelRef}
    {fd2http : Table Nat} (hkept : ∀ k, k ≠ fd → fd2http.get k = s.fd2http.get k) :
    (releaseOption { s with fd2chan := fd2chan, fd2http := fd2http } (s.fd2http.get fd)).CollectedBut due := by
  refine releaseOption_collected (Loses.collected ?_ h)
  refine ⟨rfl, fun _ => rfl, fun id hout howned => ?_⟩
  rw [owned_iff] at howned ⊢
  refine howned.imp_left ?_
  rintro ⟨k, hget⟩
  have hk : k ≠ fd := by
    rintro rfl
    exact hout (Option.mem_toList.mpr hget)
  exact ⟨k, (hkept k hk).trans hget⟩

theorem resetSlots_collected {due : List Nat} (h : s.CollectedBut due) (fd : Nat) :
    (s.resetSlots fd).CollectedBut due :=
  setEntry_collected h fd fun _ hk => Table.get_reset_of_ne _ hk

theorem setSlots_collected {due : List Nat} (h : s.CollectedBut due) (fd : Nat) (request : ChannelRef) :
    (s.setSlots fd request).CollectedBut due := by
  refine setEntry_collected h fd fun k hk => ?_
  cases s.getHolder request with
  | none => exact Table.get_reset_of_ne _ hk
  | some id => exact Table.get_set_of_ne _ hk id

theorem clearTimer_collected {due : List Nat} (h : s.CollectedBut due) (id : Nat) :
    (s.clearTimer id).CollectedBut due := by
  rcases clearTimer_cases s id with ⟨-, hsame⟩ | ⟨nid, node, -, hget, hcleared⟩
  · rw [hsame]
    exact h
  · rw [hcleared]
    refine releaseOption_collected ?_
    have hunlinked : SameRefs s (s.setObject id { s.objects id with timer := none }) :=
      setObject_same s id ⟨rfl, rfl, rfl, fun h => h⟩ (fun _ h => nomatch h) fun h => Or.inl h
    refine (setNode_loses _ ?_).collected (hunlinked.collected h)
    intro old j hold hdata
    obtain rfl := Option.some.inj (hget.symm.trans hold)
    exact Option.mem_toList.mpr hdata

theorem epollCtl_collected {due : List Nat} (h : s.CollectedBut due) (fd : Nat) (events : EventMask)
    (ctlOk : Bool) : (s.epollCtl fd events ctlOk).CollectedBut due := by
  unfold epollCtl
  split_ifs
  · exact h
  · exact resetSlots_collected h fd

theorem epollMod_collected (hs : s.Inv) {due : List Nat} (h : s.CollectedBut due) (request : ChannelRef)
    (timeout : Int) (now : Nat) (ctlOk : Bool) : (s.epollMod request timeout now ctlOk).CollectedBut due := by
  have hnoted := (noteEvents_same _ request).collected (startTimer_collected hs h request timeout now)
  rw [epollMod_eq]
  dsimp only
  split_ifs
  · exact hnoted
  · exact epollCtl_collected hnoted _ _ _

theorem newEvent_collected (hs : s.Inv) {due : List Nat} (h : s.CollectedBut due) {id : Nat} (hid : s.Live id)
    (now : Nat) (ctlOk : Bool) : (s.newEvent id now ctlOk).CollectedBut due := by
  have hsame : SameRefs s (s.setConn id { (s.objects id).conn with chan.events := DEFAULT_EVENT }) :=
    setConn_same s id rfl rfl
  have hstarted := startTimer_collected (hsame.inv hs) (hsame.collected h) (.http id) DEFAULT_EXPIRED_TIME now
  have hadded : (epollAdd (s.setConn id { (s.objects id).conn with chan.events := DEFAULT_EVENT }) (.http id)
      DEFAULT_EXPIRED_TIME now ctlOk).CollectedBut due := by
    rw [epollAdd_eq]
    exact epollCtl_collected ((noteEvents_same _ _).collected (setSlots_collected hstarted _ _)) _ _ _
  have htimed := epollAdd_timed (hsame.inv hs) ((hsame.live id).mpr hid)
    (show 0 < DEFAULT_EXPIRED_TIME by decide) now ctlOk
  refine SameRefs.collected ?_ hadded
  exact setObject_same _ id ⟨rfl, rfl, rfl, fun h => h⟩ (fun _ h => Or.inl h)
    fun _ => Or.inr ⟨htimed.live, htimed.held⟩

theorem handleClose_collected {due : List Nat} (h : s.CollectedBut due) (id : Nat) (ctlOk : Bool) :
    (s.handleClose id ctlOk).CollectedBut due := by
  have hset : SameRefs s (s.setConn id { (s.objects id).conn with
      http.connectionState := .disconnected }) := setConn_same s id rfl rfl
  have hmark (v : Worker) : SameRefs v (v.setObject id { v.objects id with removed := true }) :=
    setObject_same v id ⟨rfl, rfl, rfl, fun _ => rfl⟩ (fun _ h => Or.inl h) fun h => Or.inl h
  have hmarked := (hmark _).collected (hset.collected h)
  unfold handleClose epollDel
  dsimp only
  apply resetSlots_collected
  split_ifs
  · exact hmarked
  · exact hmarked

theorem dropTimer_collected (h : s.CollectedBut []) {nid : Nat} {node : TimerNode}
    (hnode : s.timers.get nid = some node) (ctlOk : Bool) : (s.dropTimer nid node ctlOk).CollectedBut [] := by
  have hreset (v : Worker) (hv : v.timers.get nid = some node) :
      Loses node.requestData.toList v { v with timers := v.timers.reset nid } := by
    refine ⟨rfl, fun _ => rfl, fun id hout howned => ?_⟩
    rw [owned_iff] at howned ⊢
    refine howned.imp_right fun h => h.imp_left ?_
    rintro ⟨k, old, hget, hdata⟩
    have hk : k ≠ nid := by
      rintro rfl
      obtain rfl := Option.some.inj (hv.symm.trans hget)
      exact hout (Option.mem_toList.mpr hdata)
    exact ⟨k, old, (Table.get_reset_of_ne _ hk).trans hget, hdata⟩
  unfold dropTimer
  cases hdata : node.requestData with
  | none =>
      have hend := (hreset s hnode).collected h
      rw [hdata] at hend
      exact hend
  | some id =>
      have hclosed : (s.handleClose id ctlOk).timers.get nid = some node := by
        rw [handleClose_timers]
        exact hnode
      have hend := (hreset _ hclosed).collected (handleClose_collected h id ctlOk)
      rw [hdata] at hend
      exact release_collected hend

theorem handleWakeup_collected (hs : s.Inv) (h : s.CollectedBut []) (io : Io) :
    (s.handleWakeup io).CollectedBut [] := by
  have hend : (s.handleWakeup io).Inv ∧ (s.handleWakeup io).CollectedBut [] := by
    refine handleWakeup_rule (P := fun v => v.Inv ∧ v.CollectedBut []) (fun v events _ hv => ?_)
      (fun v hv => ?_) ⟨hs, h⟩
    · have hsame : SameRefs v (v.setChan .wakeup { v.wakeupChannel with events := events }) :=
        setChan_same v .wakeup rfl
      exact ⟨hsame.inv hv.1, hsame.collected hv.2⟩
    · exact ⟨epollMod_wakeup_inv hv.1 io.now io.ctlOk, epollMod_collected hv.1 hv.2 .wakeup 0 io.now io.ctlOk⟩
  exact hend.2

theorem handleEvents_collected (hs : s.Inv) (h : s.CollectedBut []) {request : ChannelRef}
    (hslot : s.fd2chan.get (s.chan request).fd = some request) (io : Io) :
    Safe Unharmed (CollectedBut []) (s.handleEvents io request) := by
  cases request with
  | wakeup => exact handleWakeup_collected hs h io
  | http id =>
      have hstart : Serving id s s := ⟨hs, (hs.paired _ id).mp hslot, .refl [] s⟩
      have hset (v : Worker) (c : Conn) (hv : v.CollectedBut []) (hc : Tame (v.objects id).conn c) :
          (v.setConn id c).CollectedBut [] := (setConn_same v id hc.httpFd hc.chanFd).collected hv
      refine handleEvents_rule (P := CollectedBut []) hstart (fun v c _ hv hc => hset v c hv hc)
        (fun v _ hv => clearTimer_collected hv id) (fun v hv hcollected => ?_) (fun _ _ hv => hv)
        (hset _ _ (hset s _ h (meet_tame _ io)) (clearEvents_tame _))
      obtain ⟨hhttp, hchan, -, -⟩ := handleConn_calls (v.objects id).conn
      have hseparated : (v.separated id).CollectedBut [] :=
        clearTimer_collected ((setConn_same v id hhttp hchan).collected hcollected) id
      rcases callback_handleConn_cases io hv with ⟨-, hrun⟩ | ⟨timeout, -, -, hrun⟩ | ⟨-, hrun⟩
      all_goals rw [hrun]
      · exact hseparated
      · exact epollMod_collected hv.separated.inv hseparated (.http id) timeout io.now io.ctlOk
      · exact handleClose_collected hseparated id io.ctlOk

theorem handNewConn_collected (h : s.CollectedBut []) (fd : Nat) : (s.handNewConn fd).CollectedBut [] := by
  intro id hid hout hfree
  by_cases hnew : id = s.made
  · subst hnew
    exact absurd ((owned_iff _ _).mpr (Or.inr (Or.inr (Or.inr (Or.inr List.mem_cons_self))))) hfree
  · rw [s.handNewConn_other hnew fd]
    have hold : id < s.made := by
      have hlt : id < s.made + 1 := hid
      omega
    refine h id hold hout fun howned => hfree ?_
    rw [owned_iff] at howned ⊢
    refine howned.imp_right fun h' => h'.imp_right fun h' => h'.imp_right fun h' => ?_
    exact h'.imp (List.mem_append_left _) (List.mem_cons_of_mem _)

theorem step_collected {a : WorkerStep} (hs : s.Sound) (hpaced : s.Paced) (h : s.CollectedBut [])
    (hstep : s.step a = some t) : t.CollectedBut [] := by
  cases a with
  | accept fd =>
      obtain ⟨-, -, rfl⟩ := accept_cases hstep
      exact handNewConn_collected h fd
  | acceptorReleases id =>
      obtain ⟨-, rfl⟩ := acceptorReleases_cases hstep
      have hlost : Loses [id] s { s with acceptors := s.acceptors.erase id } := by
        refine ⟨rfl, fun _ => rfl, fun j hout howned => ?_⟩
        rw [owned_iff] at howned ⊢
        refine howned.imp_right fun h' => h'.imp_right fun h' => h'.imp_right fun h' => h'.imp_right ?_
        exact (List.mem_erase_of_ne (by simpa using hout)).mpr
      exact release_collected (hlost.collected h)
  | poll events =>
      obtain ⟨-, -, rfl⟩ := poll_cases hstep
      have hfound : (getEventsReqeust events { s with ready := [] }).CollectedBut [] := by
        refine getEventsReqeust_rule (P := CollectedBut []) (fun u request revents hu => ?_) events h
        have hsame : SameRefs u (u.setChan request { u.chan request with revents := revents, events := 0 }) :=
          setChan_same u request rfl
        exact hsame.collected hu
      exact hfound
  | handle io =>
      obtain ⟨request, rest, u, -, -, hslot, hrun, rfl⟩ := handle_cases hs hstep
      have hend := handleEvents_collected hs.inv h hslot io
      rw [hrun] at hend
      exact hend
  | swapFunctors =>
      obtain ⟨hpc, -, rfl⟩ := swapFunctors_cases hstep
      have hnone : s.functors = [] := hpaced.idle (by simp [hpc])
      have hlost : Loses [] s { s with
          functors := s.pendingFunctors, pendingFunctors := [], called := 0, pc := .functors } := by
        refine ⟨rfl, fun _ => rfl, fun id _ howned => ?_⟩
        rw [owned_iff] at howned ⊢
        refine howned.imp_right fun h' => h'.imp_right ?_
        rw [hnone]
        rintro (hcalled | hpending | haccepted)
        · cases hcalled
        · exact Or.inl hpending
        · exact Or.inr (Or.inr haccepted)
      exact hlost.collected h
  | functor now ctlOk =>
      obtain ⟨id, -, hget, rfl⟩ := functor_cases hstep
      exact newEvent_collected hs.inv h (hs.inv.refs id (Or.inl (List.mem_of_getElem? hget))) now ctlOk
  | endFunctors =>
      obtain ⟨-, rfl⟩ := endFunctors_cases hstep
      have hlost : Loses s.functors s { s with functors := [] } := by
        refine ⟨rfl, fun _ => rfl, fun id hout howned => ?_⟩
        rw [owned_iff] at howned ⊢
        refine howned.imp_right fun h' => h'.imp_right fun h' => Or.inr (h'.resolve_left hout)
      have hdue := hlost.collected h
      rw [List.append_nil] at hdue
      exact foldl_release_collected hdue
  | sweep nid now ctlOk =>
      obtain ⟨node, -, hnode, -, ⟨-, rfl⟩ | ⟨-, rfl⟩⟩ := sweep_cases hstep
      · exact dropTimer_collected h hnode ctlOk
      · exact h
  | endSweep =>
      obtain ⟨-, -, rfl⟩ := endSweep_cases hstep
      exact h

theorem run_collected {wakeupFd : Nat} {ctlOk : Bool} {as : List WorkerStep}
    (hrun : Run step (fun _ _ => True) (created wakeupFd ctlOk) as t) :
    Enrolled (emitted step begins (created wakeupFd ctlOk) as) t ∧ t.CollectedBut [] := by
  have hnone : (created wakeupFd ctlOk).made = 0 := by
    cases ctlOk <;> rfl
  have hend : Enrolled ([] ++ emitted step begins (created wakeupFd ctlOk) as) t ∧ t.CollectedBut [] :=
    hrun.emitted_invariant (I := fun s log => Enrolled log s ∧ s.CollectedBut [])
      (fun _ _ _ _ _ hstep h => ⟨step_enrolled h.1 hstep, step_collected h.1.sound h.1.paced h.2 hstep⟩)
      ⟨created_enrolled wakeupFd ctlOk, fun id hid => absurd hid (by omega)⟩
  exact hend

/-- Nothing but the listening thread refers to a connection that was removed, outside the functors. -/
theorem Enrolled.removed_owned {log : List Nat} (he : Enrolled log s) (hpc : s.pc ≠ .functors) {id : Nat}
    (hremoved : (s.objects id).removed = true) (howned : s.Owned id) : id ∈ s.acceptors := by
  obtain ⟨hslot, hheld⟩ := he.tidy.retired id hremoved
  rcases (owned_iff s id).mp howned with ⟨fd, hget⟩ | hheld' | hcalled | hpending | haccepted
  · obtain ⟨-, rfl⟩ := he.sound.inv.slots fd id hget
    exact absurd hget hslot
  · exact absurd hheld' hheld
  · rw [he.paced.idle hpc] at hcalled
    cases hcalled
  · have hwaits := (he.tidy.waits id (List.mem_append_right _ hpending)).2.2
    rw [hremoved] at hwaits
    cases hwaits
  · exact haccepted

/-- **No connection leaks.** In every run of a worker a connection was destroyed just if nothing refers to it.
Outside a round of functors, one that was removed from the poller was destroyed, unless the listening thread
has not let it go yet. -/
theorem run_leaks {wakeupFd : Nat} {ctlOk : Bool} {as : List WorkerStep}
    (hrun : Run step (fun _ _ => True) (created wakeupFd ctlOk) as t) :
    (∀ id < t.made, (t.objects id).destroyed = true ↔ ¬ t.Owned id) ∧
      (t.pc ≠ .functors → ∀ id < t.made, (t.objects id).removed = true →
        (t.objects id).destroyed = true ∨ id ∈ t.acceptors) := by
  obtain ⟨he, hcollected⟩ := run_collected hrun
  have hgone (id : Nat) (hid : id < t.made) (hfree : ¬ t.Owned id) : (t.objects id).destroyed = true :=
    hcollected id hid List.not_mem_nil hfree
  refine ⟨fun id hid => ⟨fun hdestroyed howned => ?_, hgone id hid⟩, fun hpc id hid hremoved => ?_⟩
  · have hlive : t.Live id := by
      rcases (owned_iff t id).mp howned with ⟨fd, hget⟩ | ⟨nid, node, hnode, hdata⟩ | hrefs
      · exact (he.sound.inv.slots fd id hget).1
      · exact he.sound.inv.holders nid node id hnode hdata
      · exact he.sound.inv.refs id hrefs
    rw [hlive.2] at hdestroyed
    cases hdestroyed
  · by_cases howned : t.Owned id
    · exact Or.inr (he.removed_owned hpc hremoved howned)
    · exact Or.inl (hgone id hid howned)

/-- The sweep closes a connection that the listening thread has let go: it is destroyed. -/
theorem run_leaks_swept :
    ∃ t : Worker, (t.objects 0).removed = true ∧ (t.objects 0).destroyed = true ∧ ¬ t.Owned 0 := by
  have hexec : ∃ t : Worker, exec (checked step fun _ _ => True) (created 3 true) [.accept 5,
      .acceptorReleases 0, .poll [(3, EPOLLIN)], .handle ⟨someHost, [], [], 0, true⟩, .swapFunctors,
        .functor 0 true, .endFunctors, .sweep 0 9000 true] = some t ∧ t.pc = .sweep ∧ t.made = 1 ∧
          t.acceptors = [] ∧ (t.objects 0).removed = true := ⟨_, rfl, rfl, rfl, rfl, rfl⟩
  obtain ⟨t, ht, hpc, hmade, hnone, hremoved⟩ := hexec
  obtain ⟨hiff, hgone⟩ := run_leaks (run_of_exec_checked ht)
  have hid : 0 < t.made := by omega
  have hdestroyed := (hgone (by rw [hpc]; decide) 0 hid hremoved).resolve_right (by simp [hnone])
  exact ⟨t, hremoved, hdestroyed, (hiff 0 hid).mp hdestroyed⟩

end Worker

end WebServer
