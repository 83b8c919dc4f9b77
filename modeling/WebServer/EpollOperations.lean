import WebServer.EpollOwnership

/-! The operations of the poller: each keeps the references to the connections, touches no table entry
but those of its own descriptor, and leaves the loop where it is. -/

namespace WebServer

namespace Worker

variable {s t u : Worker}

/-- The tables change at the descriptors `touched` only, and the loop is where it was. -/
structure Frame (touched : List Nat) (s s' : Worker) : Prop where
  fd2chan : ∀ k, k ∉ touched → s'.fd2chan.get k = s.fd2chan.get k
  fd2http : ∀ k, k ∉ touched → s'.fd2http.get k = s.fd2http.get k
  fds : ∀ request, (s'.chan request).fd = (s.chan request).fd
  made : s'.made = s.made
  ready : s'.ready = s.ready
  pc : s'.pc = s.pc
  misuse : s'.misuse = s.misuse

theorem Frame.refl (touched : List Nat) (s : Worker) : Frame touched s s :=
  ⟨fun _ _ => rfl, fun _ _ => rfl, fun _ => rfl, rfl, rfl, rfl, rfl⟩

theorem Frame.trans {touched : List Nat} (h : Frame touched s t) (h' : Frame touched t u) :
    Frame touched s u where
  fd2chan := fun k hk => (h'.fd2chan k hk).trans (h.fd2chan k hk)
  fd2http := fun k hk => (h'.fd2http k hk).trans (h.fd2http k hk)
  fds := fun request => (h'.fds request).trans (h.fds request)
  made := h'.made.trans h.made
  ready := h'.ready.trans h.ready
  pc := h'.pc.trans h.pc
  misuse := h'.misuse.trans h.misuse

theorem Frame.of_nil {touched : List Nat} (h : Frame [] s t) : Frame touched s t :=
  { h with
    fd2chan := fun k _ => h.fd2chan k List.not_mem_nil
    fd2http := fun k _ => h.fd2http k List.not_mem_nil }

theorem Frame.slot (h : Frame [] s t) {id : Nat} (hid : s.Slot id) : t.Slot id := by
  have hfd : (t.objects id).conn.chan.fd = (s.objects id).conn.chan.fd := h.fds (.http id)
  rw [Slot, hfd, h.fd2http _ List.not_mem_nil]
  exact hid

theorem setObject_frame (s : Worker) (id : Nat) {o : HttpObject}
    (hfd : o.conn.chan.fd = (s.objects id).conn.chan.fd) : Frame [] s (s.setObject id o) where
  fd2chan := fun _ _ => rfl
  fd2http := fun _ _ => rfl
  fds := fun request => by
    cases request with
    | wakeup => rfl
    | http j =>
        by_cases hj : j = id
        · subst hj
          simpa only [chan, setObject_self] using hfd
        · simp only [chan, setObject_other _ hj]
  made := rfl
  ready := rfl
  pc := rfl
  misuse := rfl

theorem setChan_frame (s : Worker) (request : ChannelRef) {ch : Channel}
    (hfd : ch.fd = (s.chan request).fd) : Frame [] s (s.setChan request ch) := by
  cases request with
  | wakeup =>
      refine { Frame.refl [] s with fds := fun request => ?_ }
      cases request with
      | wakeup => exact hfd
      | http id => rfl
  | http id => exact setObject_frame s id hfd

theorem release_frame (s : Worker) (id : Nat) : Frame [] s (s.release id) := by
  unfold release
  split_ifs
  · exact .refl [] s
  · have h := setObject_frame s id (o := { s.objects id with destroyed := true }) rfl
    exact { h with }

theorem releaseOption_frame (s : Worker) (o : Option Nat) : Frame [] s (s.releaseOption o) := by
  cases o with
  | none => exact .refl [] s
  | some id => exact release_frame s id

theorem resetSlots_frame (s : Worker) (fd : Nat) : Frame [fd] s (s.resetSlots fd) := by
  refine Frame.trans ?_ (releaseOption_frame _ _).of_nil
  exact { Frame.refl [fd] s with
    fd2chan := fun k hk => Table.get_reset_of_ne _ (List.ne_of_not_mem_cons hk)
    fd2http := fun k hk => Table.get_reset_of_ne _ (List.ne_of_not_mem_cons hk) }

theorem resetSlots_get (s : Worker) (fd : Nat) :
    (s.resetSlots fd).fd2chan.get fd = none ∧ (s.resetSlots fd).fd2http.get fd = none := by
  have hframe := releaseOption_frame { s with fd2chan := s.fd2chan.reset fd, fd2http := s.fd2http.reset fd }
    (s.fd2http.get fd)
  exact ⟨(hframe.fd2chan fd List.not_mem_nil).trans (Table.get_reset_self _ _),
    (hframe.fd2http fd List.not_mem_nil).trans (Table.get_reset_self _ _)⟩

theorem setSlots_frame (s : Worker) (fd : Nat) (request : ChannelRef) :
    Frame [fd] s (s.setSlots fd request) := by
  refine Frame.trans ?_ (releaseOption_frame _ _).of_nil
  refine { Frame.refl [fd] s with
    fd2chan := fun k hk => Table.get_set_of_ne _ (List.ne_of_not_mem_cons hk) _
    fd2http := fun k hk => ?_ }
  dsimp only
  split
  · exact Table.get_set_of_ne _ (List.ne_of_not_mem_cons hk) _
  · exact Table.get_reset_of_ne _ (List.ne_of_not_mem_cons hk)

theorem addTimer_frame (s : Worker) (id : Nat) (timeout : Int) (now : Nat) :
    Frame [] s (s.addTimer id timeout now) := by
  have h := setObject_frame s id (o := { s.objects id with timer := some s.timersMade }) rfl
  exact { h with }

theorem clearTimer_frame (s : Worker) (id : Nat) : Frame [] s (s.clearTimer id) := by
  have h := setObject_frame s id (o := { s.objects id with timer := none }) rfl
  rcases clearTimer_cases s id with ⟨-, hsame⟩ | ⟨nid, node, -, -, hcleared⟩
  · rw [hsame]
    exact .refl [] s
  · rw [hcleared]
    refine Frame.trans ?_ (releaseOption_frame _ _)
    exact { h with }

theorem setInterest_inv (hs : s.Inv) (interest : Nat → Option EventMask) :
    Inv { s with interest := interest } := { hs with }

theorem setInterest_frame (s : Worker) (interest : Nat → Option EventMask) :
    Frame [] s { s with interest := interest } := { Frame.refl [] s with }

/-- The second half of `EqualAndUpdateLastEvents`. -/
def noteEvents (s : Worker) (request : ChannelRef) : Worker :=
  s.setChan request (s.chan request).equalAndUpdateLastEvents.2

theorem noteEvents_same (s : Worker) (request : ChannelRef) : SameRefs s (s.noteEvents request) := by
  have hfd : (s.chan request).equalAndUpdateLastEvents.2.fd = (s.chan request).fd := rfl
  exact setChan_same s request hfd

theorem noteEvents_frame (s : Worker) (request : ChannelRef) : Frame [] s (s.noteEvents request) := by
  have hfd : (s.chan request).equalAndUpdateLastEvents.2.fd = (s.chan request).fd := rfl
  exact setChan_frame s request hfd

/-- The call of `epoll_ctl` at the end of `epoll_add` and `epoll_mod`, and what follows a failure. -/
def epollCtl (s : Worker) (fd : Nat) (events : EventMask) (ctlOk : Bool) : Worker :=
  if ctlOk then { s with interest := Function.update s.interest fd (some events) } else s.resetSlots fd

/-- The slots of a connection that a timer node holds go without it. -/
theorem resetSlots_eq (hs : s.Inv) {id : Nat} (hid : s.Live id) (hheld : s.Held id) :
    s.resetSlots (s.objects id).conn.chan.fd = { s with
      fd2chan := s.fd2chan.reset (s.objects id).conn.chan.fd
      fd2http := s.fd2http.reset (s.objects id).conn.chan.fd } := by
  unfold resetSlots
  cases h : s.fd2http.get (s.objects id).conn.chan.fd with
  | none => rfl
  | some j =>
      obtain rfl := hs.slot_eq hid h
      have hheld' : Held { s with
          fd2chan := s.fd2chan.reset (s.objects j).conn.chan.fd
          fd2http := s.fd2http.reset (s.objects j).conn.chan.fd } j := hheld
      exact if_pos hheld'.owned

/-- The connection is live, and a timer node holds it. -/
structure Timed (s : Worker) (id : Nat) : Prop where
  inv : s.Inv
  live : s.Live id
  held : s.Held id

theorem SameRefs.timed {s' : Worker} (h : SameRefs s s') {id : Nat} (hs : s.Timed id) : s'.Timed id :=
  ⟨h.inv hs.inv, (h.live id).mpr hs.live, (h.held id).mpr hs.held⟩

/-- A failure of `epoll_ctl` is harmless to a connection that a timer node holds. -/
theorem epollCtl_timed {id : Nat} (hs : s.Timed id) (events : EventMask) (ctlOk : Bool) :
    (s.epollCtl (s.objects id).conn.chan.fd events ctlOk).Timed id := by
  unfold epollCtl
  split_ifs
  · exact ⟨setInterest_inv hs.inv _, hs.live, hs.held⟩
  · refine ⟨resetSlots_inv hs.inv fun j h _ => ?_, ?_, ?_⟩
    · rw [hs.inv.slot_eq hs.live h]
      exact hs.held
    · rw [resetSlots_eq hs.inv hs.live hs.held]
      exact hs.live
    · rw [resetSlots_eq hs.inv hs.live hs.held]
      exact hs.held

theorem epollCtl_frame (s : Worker) (fd : Nat) (events : EventMask) (ctlOk : Bool) :
    Frame [fd] s (s.epollCtl fd events ctlOk) := by
  unfold epollCtl
  split_ifs
  · exact (setInterest_frame s _).of_nil
  · exact resetSlots_frame s fd

/-- The timer that `epoll_add` and `epoll_mod` begin with. -/
def startTimer (s : Worker) (request : ChannelRef) (timeout : Int) (now : Nat) : Worker :=
  if 0 < timeout then s.epollAddTimer request timeout now else s

/-- A timer is started for a live connection, or none is. -/
theorem startTimer_cases (s : Worker) (request : ChannelRef) (timeout : Int) (now : Nat) :
    s.startTimer request timeout now = s ∨
      ∃ id, s.Live id ∧ s.startTimer request timeout now = s.addTimer id timeout now := by
  unfold startTimer epollAddTimer
  split_ifs
  · cases request with
    | wakeup => exact Or.inl rfl
    | http id =>
        by_cases hid : s.Live id
        · rw [getHolder, if_pos hid]
          exact Or.inr ⟨id, hid, rfl⟩
        · rw [getHolder, if_neg hid]
          exact Or.inl rfl
  · exact Or.inl rfl

theorem startTimer_frame (s : Worker) (request : ChannelRef) (timeout : Int) (now : Nat) :
    Frame [] s (s.startTimer request timeout now) := by
  rcases startTimer_cases s request timeout now with hsame | ⟨id, -, hadded⟩
  · rw [hsame]
    exact .refl [] s
  · rw [hadded]
    exact addTimer_frame s id timeout now

theorem startTimer_live {id : Nat} (hid : s.Live id) {timeout : Int} (htimeout : 0 < timeout)
    (now : Nat) : s.startTimer (.http id) timeout now = s.addTimer id timeout now := by
  simp only [startTimer, if_pos htimeout, epollAddTimer, getHolder, if_pos hid]

theorem epollMod_eq (s : Worker) (request : ChannelRef) (timeout : Int) (now : Nat) (ctlOk : Bool) :
    s.epollMod request timeout now ctlOk =
      let t := s.startTimer request timeout now
      if (t.chan request).lastEvents == (t.chan request).events then t.noteEvents request
      else (t.noteEvents request).epollCtl (s.chan request).fd (t.chan request).events ctlOk := rfl

theorem epollAdd_eq (s : Worker) (request : ChannelRef) (timeout : Int) (now : Nat) (ctlOk : Bool) :
    s.epollAdd request timeout now ctlOk =
      let t := (s.startTimer request timeout now).setSlots (s.chan request).fd request
      (t.noteEvents request).epollCtl (s.chan request).fd (t.chan request).events ctlOk := rfl

theorem addTimer_timed (hs : s.Inv) {id : Nat} (hid : s.Live id) (timeout : Int) (now : Nat) :
    (s.addTimer id timeout now).Timed id := by
  refine ⟨addTimer_inv hs hid timeout now, ⟨hid.1, ?_⟩, s.timersMade, _, Table.get_set_self _ _ _, rfl⟩
  simp only [addTimer_self]
  exact hid.2

theorem epollMod_timed (hs : s.Inv) {id : Nat} (hid : s.Live id) {timeout : Int} (htimeout : 0 < timeout)
    (now : Nat) (ctlOk : Bool) : (s.epollMod (.http id) timeout now ctlOk).Timed id := by
  have hfd : (s.chan (.http id)).fd =
      (((s.addTimer id timeout now).noteEvents (.http id)).objects id).conn.chan.fd :=
    (((addTimer_frame s id timeout now).trans (noteEvents_frame _ (.http id))).fds (.http id)).symm
  have ht := (noteEvents_same _ (.http id)).timed (addTimer_timed hs hid timeout now)
  rw [epollMod_eq, startTimer_live hid htimeout]
  dsimp only
  split_ifs
  · exact ht
  · rw [hfd]
    exact epollCtl_timed ht _ ctlOk

theorem epollMod_frame (s : Worker) (request : ChannelRef) (timeout : Int) (now : Nat) (ctlOk : Bool) :
    Frame [(s.chan request).fd] s (s.epollMod request timeout now ctlOk) := by
  have hmid := (startTimer_frame s request timeout now).trans (noteEvents_frame _ request)
  rw [epollMod_eq]
  dsimp only
  split_ifs
  · exact hmid.of_nil
  · exact hmid.of_nil.trans (epollCtl_frame _ _ _ _)

theorem epollMod_wakeup_inv (hs : s.Inv) (now : Nat) (ctlOk : Bool) :
    (s.epollMod .wakeup 0 now ctlOk).Inv := by
  have ht := (noteEvents_same s .wakeup).inv hs
  have hnone : s.startTimer .wakeup 0 now = s := if_neg (by decide)
  rw [epollMod_eq, hnone]
  dsimp only
  split_ifs
  · exact ht
  · unfold epollCtl
    split_ifs
    · exact setInterest_inv ht _
    · apply resetSlots_inv ht
      intro id h _
      obtain ⟨hid, hfd⟩ := ht.slots _ id h
      exact absurd hfd (ht.foreign id hid)

theorem setSlots_timed {id : Nat} (hs : s.Timed id) :
    (s.setSlots (s.objects id).conn.chan.fd (.http id)).Timed id := by
  refine ⟨setSlots_inv hs.inv hs.live, ?_, ?_⟩
  · rw [setSlots_eq hs.inv hs.live]
    exact hs.live
  · rw [setSlots_eq hs.inv hs.live]
    exact hs.held

theorem epollAdd_timed (hs : s.Inv) {id : Nat} (hid : s.Live id) {timeout : Int} (htimeout : 0 < timeout)
    (now : Nat) (ctlOk : Bool) : (s.epollAdd (.http id) timeout now ctlOk).Timed id := by
  have ht := addTimer_timed hs hid timeout now
  have hfd : (s.chan (.http id)).fd = ((s.addTimer id timeout now).objects id).conn.chan.fd :=
    ((addTimer_frame s id timeout now).fds (.http id)).symm
  rw [epollAdd_eq, startTimer_live hid htimeout, hfd]
  generalize s.addTimer id timeout now = t at ht
  have hu := (noteEvents_same _ (.http id)).timed (setSlots_timed ht)
  have hfd' : (t.objects id).conn.chan.fd =
      (((t.setSlots (t.objects id).conn.chan.fd (.http id)).noteEvents (.http id)).objects
        id).conn.chan.fd :=
    (((setSlots_frame t _ (.http id)).trans (noteEvents_frame _ _).of_nil).fds (.http id)).symm
  have hend := epollCtl_timed hu
  rw [← hfd'] at hend
  exact hend _ ctlOk

theorem epollAdd_frame (s : Worker) (request : ChannelRef) (timeout : Int) (now : Nat) (ctlOk : Bool) :
    Frame [(s.chan request).fd] s (s.epollAdd request timeout now ctlOk) := by
  have ht := (startTimer_frame s request timeout now).of_nil.trans
    (setSlots_frame _ (s.chan request).fd request)
  rw [epollAdd_eq]
  exact (ht.trans (noteEvents_frame _ request).of_nil).trans (epollCtl_frame _ _ _ _)

theorem epollDel_inv (hs : s.Inv) {id : Nat} (hid : s.Live id) (ctlOk : Bool) : (s.epollDel id ctlOk).Inv := by
  have hremoved : ((s.setObject id { s.objects id with removed := true }).objects id).removed = true := by
    simp only [setObject_self]
  have ht : (s.setObject id { s.objects id with removed := true }).Inv := by
    refine SameRefs.inv ?_ hs
    exact setObject_same s id ⟨rfl, rfl, rfl, fun _ => rfl⟩ (fun _ h => Or.inl h) fun h => Or.inl h
  have hfree (j : Nat) (h : s.fd2http.get (s.objects id).conn.chan.fd = some j)
      (hrem : ((s.setObject id { s.objects id with removed := true }).objects j).removed = false) :
      s.Held j := by
    rw [hs.slot_eq hid h, hremoved] at hrem
    cases hrem
  unfold epollDel
  dsimp only
  split_ifs
  · exact resetSlots_inv (setInterest_inv ht _) hfree
  · exact resetSlots_inv ht hfree

theorem epollDel_frame (s : Worker) (id : Nat) (ctlOk : Bool) :
    Frame [(s.chan (.http id)).fd] s (s.epollDel id ctlOk) := by
  have ht : Frame [] s (s.setObject id { s.objects id with removed := true }) := setObject_frame s id rfl
  unfold epollDel
  dsimp only
  split_ifs
  · exact (ht.trans (setInterest_frame _ _)).of_nil.trans (resetSlots_frame _ _)
  · exact ht.of_nil.trans (resetSlots_frame _ _)

theorem handleClose_inv (hs : s.Inv) {id : Nat} (hid : s.Live id) (ctlOk : Bool) :
    (s.handleClose id ctlOk).Inv := by
  have hsame : SameRefs s (s.setConn id
      { (s.objects id).conn with http.connectionState := .disconnected }) := setConn_same s id rfl rfl
  exact epollDel_inv (hsame.inv hs) ((hsame.live id).mpr hid) ctlOk

theorem handleClose_frame (s : Worker) (id : Nat) (ctlOk : Bool) :
    Frame [(s.chan (.http id)).fd] s (s.handleClose id ctlOk) := by
  have ht : Frame [] s (s.setConn id
      { (s.objects id).conn with http.connectionState := .disconnected }) := setObject_frame s id rfl
  have hfd := ht.fds (.http id)
  have hdel := epollDel_frame (s.setConn id
      { (s.objects id).conn with http.connectionState := .disconnected }) id ctlOk
  rw [hfd] at hdel
  exact ht.of_nil.trans hdel

theorem newEvent_inv (hs : s.Inv) {id : Nat} (hid : s.Live id) (now : Nat) (ctlOk : Bool) :
    (s.newEvent id now ctlOk).Inv := by
  have hsame : SameRefs s (s.setConn id { (s.objects id).conn with chan.events := DEFAULT_EVENT }) :=
    setConn_same s id rfl rfl
  have ht := epollAdd_timed (hsame.inv hs) ((hsame.live id).mpr hid)
    (show 0 < DEFAULT_EXPIRED_TIME by decide) now ctlOk
  refine SameRefs.inv ?_ ht.inv
  exact setObject_same _ id ⟨rfl, rfl, rfl, fun h => h⟩ (fun _ h => Or.inl h)
    fun _ => Or.inr ⟨ht.live, ht.held⟩

theorem newEvent_frame (s : Worker) (id : Nat) (now : Nat) (ctlOk : Bool) :
    Frame [(s.chan (.http id)).fd] s (s.newEvent id now ctlOk) := by
  have ht : Frame [] s (s.setConn id { (s.objects id).conn with chan.events := DEFAULT_EVENT }) :=
    setObject_frame s id rfl
  have hadd := epollAdd_frame (s.setConn id { (s.objects id).conn with chan.events := DEFAULT_EVENT })
    (.http id) DEFAULT_EXPIRED_TIME now ctlOk
  rw [ht.fds (.http id)] at hadd
  refine (ht.of_nil.trans hadd).trans (Frame.of_nil ?_)
  exact setObject_frame _ id rfl

/-! ### The end of a timer node -/

theorem releaseOption_timers (s : Worker) (o : Option Nat) : (s.releaseOption o).timers = s.timers := by
  cases o with
  | none => rfl
  | some id =>
      rw [releaseOption, release]
      split_ifs <;> rfl

theorem handleClose_timers (s : Worker) (id : Nat) (ctlOk : Bool) :
    (s.handleClose id ctlOk).timers = s.timers := by
  unfold handleClose epollDel resetSlots
  dsimp only
  rw [releaseOption_timers]
  split_ifs <;> rfl

theorem handleClose_removed (s : Worker) (id : Nat) (ctlOk : Bool) :
    ((s.handleClose id ctlOk).objects id).removed = true := by
  unfold handleClose epollDel resetSlots
  dsimp only
  obtain ⟨b, hb⟩ := releaseOption_object _ _ id
  rw [hb]
  split_ifs <;> simp only [setConn_self, setObject_self]

/-- A timer node may go if its connection is removed from the poller, or has none. -/
theorem resetNode_inv (hs : s.Inv) {nid : Nat}
    (hfree : ∀ node id, s.timers.get nid = some node → node.requestData = some id →
      (s.objects id).removed = true) :
    Inv { s with timers := s.timers.reset nid } := by
  have hof (k : Nat) (node : TimerNode) (h : (s.timers.reset nid).get k = some node) :
      s.timers.get k = some node := by
    by_cases hk : k = nid
    · simp [hk] at h
    · rwa [Table.get_reset_of_ne _ hk] at h
  refine { hs with holders := ?_, links := ?_, numbered := ?_, kept := ?_ }
  · exact fun k node id h => hs.holders k node id (hof k node h)
  · exact fun id k node hlink h => hs.links id k node hlink (hof k node h)
  · exact fun k node h => hs.numbered k node (hof k node h)
  · intro id hid hreg hrem
    rcases hs.kept id hid hreg hrem with hslot | ⟨k, node, hget, hdata⟩
    · exact Or.inl hslot
    · by_cases hk : k = nid
      · rw [hfree node id (hk ▸ hget) hdata] at hrem
        cases hrem
      · exact Or.inr ⟨k, node, (Table.get_reset_of_ne _ hk).trans hget, hdata⟩

theorem dropTimer_inv (hs : s.Inv) {nid : Nat} {node : TimerNode} (hnode : s.timers.get nid = some node)
    (ctlOk : Bool) : (s.dropTimer nid node ctlOk).Inv := by
  unfold dropTimer
  cases hdata : node.requestData with
  | none =>
      apply resetNode_inv hs
      intro node' id h hdata'
      obtain rfl := Option.some.inj (hnode.symm.trans h)
      rw [hdata] at hdata'
      cases hdata'
  | some id =>
      have hid := hs.holders nid node id hnode hdata
      have hframe := handleClose_frame s id ctlOk
      refine release_inv (resetNode_inv (handleClose_inv hs hid ctlOk) fun node' j h hdata' => ?_) ?_
      · rw [handleClose_timers] at h
        obtain rfl := Option.some.inj (hnode.symm.trans h)
        obtain rfl := Option.some.inj (hdata.symm.trans hdata')
        exact handleClose_removed s id ctlOk
      · exact hframe.made ▸ hid.1

theorem dropTimer_frame (s : Worker) (nid : Nat) (node : TimerNode) (ctlOk : Bool) :
    ∃ touched, Frame touched s (s.dropTimer nid node ctlOk) := by
  have hreset {u : Worker} {touched : List Nat} (h : Frame touched s u) :
      Frame touched s { u with timers := u.timers.reset nid } := { h with }
  unfold dropTimer
  split
  · exact ⟨_, (hreset (handleClose_frame s _ ctlOk)).trans (release_frame _ _).of_nil⟩
  · exact ⟨[], hreset (.refl [] s)⟩

end Worker

end WebServer
