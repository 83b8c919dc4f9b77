import WebServer.EpollLifetime
import WebServer.RunsTrace

/-! The timer nodes of a connection. Whoever adds a timer has cleared the one before it, so of the nodes
left in the queue at most one still holds the connection: the one the connection is linked to. A connection
is removed from the poller when no node holds it any more, and so `handleClose` runs once. -/

namespace WebServer

open Runs Stages

namespace Worker

variable {s t u : Worker}

/-- How often a handler of the connection has called `handleClose`. -/
def closings (s : Worker) (id : Nat) : Nat := (s.objects id).conn.calls.count .handleClose

/-- The functors, and how many of them were called. -/
def queue (s : Worker) : List Nat × Nat × List Nat := (s.functors, s.called, s.pendingFunctors)

/-- None but the connections `closed` are removed from the poller; the functors are the same. -/
structure Steady (closed : List Nat) (s t : Worker) : Prop where
  removed : ∀ id, id ∉ closed → (t.objects id).removed = (s.objects id).removed
  closings : ∀ id, t.closings id = s.closings id
  queue : t.queue = s.queue

theorem Steady.refl (closed : List Nat) (s : Worker) : Steady closed s s :=
  ⟨fun _ _ => rfl, fun _ => rfl, rfl⟩

theorem Steady.trans {closed : List Nat} (h : Steady closed s t) (h' : Steady closed t u) :
    Steady closed s u :=
  ⟨fun id hid => (h'.removed id hid).trans (h.removed id hid),
    fun id => (h'.closings id).trans (h.closings id), h'.queue.trans h.queue⟩

theorem Steady.of_nil {closed : List Nat} (h : Steady [] s t) : Steady closed s t :=
  { h with removed := fun id _ => h.removed id List.not_mem_nil }

/-- Table entries and timer nodes may go, and nodes may be cleared; none is added. -/
structure Fewer (s t : Worker) : Prop where
  nodes : ∀ nid node id, t.timers.get nid = some node → node.requestData = some id →
    s.timers.get nid = some node ∧ (t.objects id).timer = (s.objects id).timer
  entries : ∀ fd id, t.fd2http.get fd = some id → s.fd2http.get fd = some id

theorem Fewer.refl (s : Worker) : Fewer s s := ⟨fun _ _ _ h _ => ⟨h, rfl⟩, fun _ _ h => h⟩

theorem Fewer.trans (h : Fewer s t) (h' : Fewer t u) : Fewer s u where
  nodes := fun nid node id hnode hdata => by
    obtain ⟨hmid, hlink'⟩ := h'.nodes nid node id hnode hdata
    obtain ⟨hold, hlink⟩ := h.nodes nid node id hmid hdata
    exact ⟨hold, hlink'.trans hlink⟩
  entries := fun fd id hentry => h.entries fd id (h'.entries fd id hentry)

theorem Fewer.held (h : Fewer s t) {id : Nat} (hid : t.Held id) : s.Held id := by
  obtain ⟨nid, node, hnode, hdata⟩ := hid
  exact ⟨nid, node, (h.nodes nid node id hnode hdata).1, hdata⟩

theorem Fewer.slot {touched : List Nat} (h : Fewer s t) (hframe : Frame touched s t) {id : Nat}
    (hid : t.Slot id) : s.Slot id := by
  have hfd : (t.objects id).conn.chan.fd = (s.objects id).conn.chan.fd := hframe.fds (.http id)
  rw [Slot, ← hfd]
  exact h.entries _ id hid

/-- The two together: what is the same, and what may have gone. -/
structure Calm (s t : Worker) : Prop extends Steady [] s t, Fewer s t

theorem Calm.refl (s : Worker) : Calm s s := ⟨.refl [] s, .refl s⟩

theorem Calm.trans (h : Calm s t) (h' : Calm t u) : Calm s u :=
  ⟨h.toSteady.trans h'.toSteady, h.toFewer.trans h'.toFewer⟩

theorem setObject_steady (s : Worker) (id : Nat) {o : HttpObject}
    (hremoved : o.removed = (s.objects id).removed)
    (hcalls : o.conn.calls.count .handleClose = s.closings id) : Steady [] s (s.setObject id o) where
  removed := fun j _ => by
    by_cases hj : j = id
    · subst hj
      simpa only [setObject_self] using hremoved
    · simp only [setObject_other _ hj]
  closings := fun j => by
    by_cases hj : j = id
    · subst hj
      simpa only [closings, setObject_self] using hcalls
    · simp only [closings, setObject_other _ hj]
  queue := rfl

/-- A change of one connection that leaves its link alone. -/
theorem setObject_fewer (s : Worker) (id : Nat) {o : HttpObject}
    (htimer : o.timer = (s.objects id).timer) : Fewer s (s.setObject id o) where
  nodes := fun nid node j hnode _ => by
    refine ⟨hnode, ?_⟩
    by_cases hj : j = id
    · subst hj
      simpa only [setObject_self] using htimer
    · simp only [setObject_other _ hj]
  entries := fun _ _ h => h

theorem setObject_calm (s : Worker) (id : Nat) {o : HttpObject}
    (htimer : o.timer = (s.objects id).timer) (hremoved : o.removed = (s.objects id).removed)
    (hcalls : o.conn.calls.count .handleClose = s.closings id) : Calm s (s.setObject id o) :=
  ⟨setObject_steady s id hremoved hcalls, setObject_fewer s id htimer⟩

theorem setConn_calm (s : Worker) (id : Nat) {c : Conn}
    (hcalls : c.calls.count .handleClose = s.closings id) : Calm s (s.setConn id c) :=
  setObject_calm s id rfl rfl hcalls

theorem setChan_calm (s : Worker) (request : ChannelRef) (ch : Channel) :
    Calm s (s.setChan request ch) := by
  cases request with
  | wakeup => exact { Calm.refl s with }
  | http id => exact setConn_calm s id rfl

theorem noteEvents_calm (s : Worker) (request : ChannelRef) : Calm s (s.noteEvents request) :=
  setChan_calm s request _

theorem release_calm (s : Worker) (id : Nat) : Calm s (s.release id) := by
  unfold release
  split_ifs
  · exact .refl s
  · have h := setObject_calm s id (o := { s.objects id with destroyed := true }) rfl rfl rfl
    exact { h with }

theorem releaseOption_calm (s : Worker) (o : Option Nat) : Calm s (s.releaseOption o) := by
  cases o with
  | none => exact .refl s
  | some id => exact release_calm s id

theorem resetSlots_calm (s : Worker) (fd : Nat) : Calm s (s.resetSlots fd) := by
  refine Calm.trans ?_ (releaseOption_calm _ _)
  refine { Calm.refl s with entries := fun k id h => ?_ }
  by_cases hk : k = fd
  · simp [hk] at h
  · rwa [Table.get_reset_of_ne _ hk] at h

theorem setInterest_calm (s : Worker) (interest : Nat → Option EventMask) :
    Calm s { s with interest := interest } := { Calm.refl s with }

theorem epollCtl_calm (s : Worker) (fd : Nat) (events : EventMask) (ctlOk : Bool) :
    Calm s (s.epollCtl fd events ctlOk) := by
  unfold epollCtl
  split_ifs
  · exact setInterest_calm s _
  · exact resetSlots_calm s fd

theorem addTimer_steady (s : Worker) (id : Nat) (timeout : Int) (now : Nat) :
    Steady [] s (s.addTimer id timeout now) := by
  have h := setObject_steady s id (o := { s.objects id with timer := some s.timersMade }) rfl rfl
  exact { h with }

theorem setSlots_steady (s : Worker) (fd : Nat) (request : ChannelRef) :
    Steady [] s (s.setSlots fd request) := by
  refine Steady.trans ?_ (releaseOption_calm _ _).toSteady
  exact { Steady.refl [] s with }

theorem startTimer_steady (s : Worker) (request : ChannelRef) (timeout : Int) (now : Nat) :
    Steady [] s (s.startTimer request timeout now) := by
  rcases startTimer_cases s request timeout now with hsame | ⟨id, -, hadded⟩
  · rw [hsame]
    exact .refl [] s
  · rw [hadded]
    exact addTimer_steady s id timeout now

theorem epollMod_steady (s : Worker) (request : ChannelRef) (timeout : Int) (now : Nat) (ctlOk : Bool) :
    Steady [] s (s.epollMod request timeout now ctlOk) := by
  have hnoted := (startTimer_steady s request timeout now).trans (noteEvents_calm _ request).toSteady
  rw [epollMod_eq]
  dsimp only
  split_ifs
  · exact hnoted
  · exact hnoted.trans (epollCtl_calm _ _ _ _).toSteady

theorem epollAdd_steady (s : Worker) (request : ChannelRef) (timeout : Int) (now : Nat) (ctlOk : Bool) :
    Steady [] s (s.epollAdd request timeout now ctlOk) := by
  have hstarted := (startTimer_steady s request timeout now).trans
    (setSlots_steady _ (s.chan request).fd request)
  rw [epollAdd_eq]
  exact (hstarted.trans (noteEvents_calm _ request).toSteady).trans (epollCtl_calm _ _ _ _).toSteady

/-! ### At most one node -/

/-- Every node that holds a connection is live and linked, what was removed from the poller is not held any
more, and the connections of `waiting` are neither registered nor held yet. -/
structure Tidy (waiting : List Nat) (s : Worker) : Prop where
  linked : ∀ nid node id, s.timers.get nid = some node → node.requestData = some id →
    node.deleted = false ∧ (s.objects id).timer = some nid
  retired : ∀ id, (s.objects id).removed = true → ¬ s.Slot id ∧ ¬ s.Held id
  waits : ∀ id ∈ waiting, ¬ s.Slot id ∧ ¬ s.Held id ∧ (s.objects id).removed = false
  nodup : waiting.Nodup
  unmade : ∀ id, s.made ≤ id → (s.objects id).removed = false

/-- The functors that were not called yet. -/
def uncalled (s : Worker) : List Nat := s.functors.drop s.called ++ s.pendingFunctors

theorem queue_eq (h : t.queue = s.queue) : t.functors = s.functors ∧ t.called = s.called ∧
    t.pendingFunctors = s.pendingFunctors := by
  simpa only [queue, Prod.mk.injEq] using h

theorem uncalled_eq (h : t.queue = s.queue) : t.uncalled = s.uncalled := by
  obtain ⟨hfunctors, hcalled, hpending⟩ := queue_eq h
  rw [uncalled, hfunctors, hcalled, hpending, uncalled]

/-- Where only entries and nodes go, it remains to be said of what was removed that it has lost them. -/
theorem Fewer.tidy {touched waiting : List Nat} (h : Fewer s t) (hframe : Frame touched s t)
    (hs : s.Tidy waiting)
    (hremoved : ∀ id, (t.objects id).removed = true → (s.objects id).removed = true ∨
      id < s.made ∧ id ∉ waiting ∧ ¬ t.Slot id ∧ ¬ t.Held id) : t.Tidy waiting := by
  have hslot {id : Nat} (hid : t.Slot id) : s.Slot id := h.slot hframe hid
  exact {
    linked := fun nid node id hnode hdata => by
      obtain ⟨hold, hlink⟩ := h.nodes nid node id hnode hdata
      rw [hlink]
      exact hs.linked nid node id hold hdata
    retired := fun id hid => by
      rcases hremoved id hid with hold | ⟨-, -, hfree⟩
      · exact ⟨fun h' => (hs.retired id hold).1 (hslot h'), fun h' => (hs.retired id hold).2 (h.held h')⟩
      · exact hfree
    waits := fun id hid => by
      obtain ⟨hnoslot, hnode, hrem⟩ := hs.waits id hid
      refine ⟨fun h' => hnoslot (hslot h'), fun h' => hnode (h.held h'), ?_⟩
      by_contra hnot
      rcases hremoved id (by simpa using hnot) with hold | ⟨-, hout, -⟩
      · rw [hrem] at hold
        cases hold
      · exact hout hid
    nodup := hs.nodup
    unmade := fun id hid => by
      rw [hframe.made] at hid
      by_contra hnot
      rcases hremoved id (by simpa using hnot) with hold | ⟨hlt, -⟩
      · rw [hs.unmade id hid] at hold
        cases hold
      · omega }

theorem Calm.tidy {touched waiting : List Nat} (h : Calm s t) (hframe : Frame touched s t)
    (hs : s.Tidy waiting) : t.Tidy waiting :=
  h.toFewer.tidy hframe hs fun id hid => Or.inl (h.removed id List.not_mem_nil ▸ hid)

/-- The timer of the connection is ended: its node, if there is one, is the only one that held it. -/
theorem clearTimer_calm {waiting : List Nat} (hs : s.Tidy waiting) (id : Nat) :
    Calm s (s.clearTimer id) ∧ ¬ (s.clearTimer id).Held id := by
  rcases clearTimer_cases s id with ⟨hnone, hsame⟩ | ⟨nid, node, hlink, hget, hcleared⟩
  · rw [hsame]
    refine ⟨.refl s, ?_⟩
    rintro ⟨nid, node, hnode, hdata⟩
    exact hnone nid node (hs.linked nid node id hnode hdata).2 hnode
  have hnodes (k : Nat) (node' : TimerNode) (j : Nat) (hnode : (s.timers.set nid { node with
      requestData := none, deleted := true }).get k = some node')
      (hdata : node'.requestData = some j) : s.timers.get k = some node' ∧ j ≠ id := by
    by_cases hk : k = nid
    · subst hk
      rw [Table.get_set_self] at hnode
      obtain rfl := Option.some.inj hnode
      cases hdata
    · rw [Table.get_set_of_ne _ hk] at hnode
      refine ⟨hnode, fun hj => hk ?_⟩
      obtain rfl := hj
      exact Option.some.inj ((hs.linked k node' j hnode hdata).2.symm.trans hlink)
  have hsteady := setObject_steady s id (o := { s.objects id with timer := none }) rfl rfl
  have hunlinked : Calm s { s.setObject id { s.objects id with timer := none } with
      timers := s.timers.set nid { node with requestData := none, deleted := true } } := {
    hsteady with
    nodes := fun k node' j hnode hdata => by
      obtain ⟨hold, hj⟩ := hnodes k node' j hnode hdata
      exact ⟨hold, congrArg HttpObject.timer (Function.update_of_ne hj _ _)⟩
    entries := fun _ _ h => h }
  have hreleased := releaseOption_calm { s.setObject id { s.objects id with timer := none } with
    timers := s.timers.set nid { node with requestData := none, deleted := true } } node.requestData
  rw [hcleared]
  refine ⟨hunlinked.trans hreleased, fun hheld => ?_⟩
  obtain ⟨k, node', hnode, hdata⟩ := hreleased.held hheld
  exact (hnodes k node' id hnode hdata).2 rfl

/-- A connection that no node holds may have a new one. -/
theorem addTimer_tidy {waiting : List Nat} (hs : s.Tidy waiting) {id : Nat} (hfree : ¬ s.Held id)
    (hout : id ∉ waiting) (hrem : (s.objects id).removed = false) (timeout : Int)
    (now : Nat) : (s.addTimer id timeout now).Tidy waiting := by
  have hself := s.addTimer_self id timeout now
  have hother (j : Nat) (hj : j ≠ id) := s.addTimer_other hj timeout now
  have hsteady := addTimer_steady s id timeout now
  have hframe := addTimer_frame s id timeout now
  have hnodes (nid : Nat) (node : TimerNode) (hnode : (s.addTimer id timeout now).timers.get nid = some node) :
      nid = s.timersMade ∧ node = ⟨false, now + timeout.toNat, some id⟩ ∨ s.timers.get nid = some node := by
    by_cases hnid : nid = s.timersMade
    · subst hnid
      exact Or.inl ⟨rfl, (Option.some.inj ((Table.get_set_self _ _ _).symm.trans hnode)).symm⟩
    · exact Or.inr ((Table.get_set_of_ne _ hnid _).symm.trans hnode)
  have hheld {j : Nat} (h : (s.addTimer id timeout now).Held j) : j = id ∨ s.Held j := by
    obtain ⟨nid, node, hnode, hdata⟩ := h
    rcases hnodes nid node hnode with ⟨-, rfl⟩ | hold
    · exact Or.inl (Option.some.inj hdata).symm
    · exact Or.inr ⟨nid, node, hold, hdata⟩
  have hslot {j : Nat} (h : (s.addTimer id timeout now).Slot j) : s.Slot j := by
    have hfd : ((s.addTimer id timeout now).objects j).conn.chan.fd = (s.objects j).conn.chan.fd :=
      hframe.fds (.http j)
    rw [Slot, ← hfd]
    exact h
  exact {
    linked := fun nid node j hnode hdata => by
      rcases hnodes nid node hnode with ⟨rfl, rfl⟩ | hold
      · obtain rfl := Option.some.inj hdata
        exact ⟨rfl, by rw [hself]⟩
      · have hj : j ≠ id := fun h => hfree ⟨nid, node, hold, h ▸ hdata⟩
        rw [hother j hj]
        exact hs.linked nid node j hold hdata
    retired := fun j hj => by
      rw [hsteady.removed j List.not_mem_nil] at hj
      have hne : j ≠ id := by
        rintro rfl
        simp [hrem] at hj
      exact ⟨fun h => (hs.retired j hj).1 (hslot h),
        fun h => (hs.retired j hj).2 ((hheld h).resolve_left hne)⟩
    waits := fun j hj => by
      obtain ⟨hnoslot, hnode, hremj⟩ := hs.waits j hj
      have hne : j ≠ id := fun h => hout (h ▸ hj)
      exact ⟨fun h => hnoslot (hslot h), fun h => hnode ((hheld h).resolve_left hne),
        (hsteady.removed j List.not_mem_nil).trans hremj⟩
    nodup := hs.nodup
    unmade := fun j hj => (hsteady.removed j List.not_mem_nil).trans (hs.unmade j hj) }

/-- The connection is in the poller's care: it waits for no functor, and was not removed. -/
structure Cared (waiting : List Nat) (s : Worker) (id : Nat) : Prop where
  tidy : s.Tidy waiting
  out : id ∉ waiting
  removed : (s.objects id).removed = false

theorem Calm.cared {touched waiting : List Nat} (h : Calm s t) (hframe : Frame touched s t) {id : Nat}
    (hs : s.Cared waiting id) : t.Cared waiting id :=
  ⟨h.tidy hframe hs.tidy, hs.out, (h.removed id List.not_mem_nil).trans hs.removed⟩

theorem addTimer_cared {waiting : List Nat} {id : Nat} (hs : s.Cared waiting id) (hfree : ¬ s.Held id)
    (timeout : Int) (now : Nat) : (s.addTimer id timeout now).Cared waiting id :=
  ⟨addTimer_tidy hs.tidy hfree hs.out hs.removed timeout now, hs.out,
    ((addTimer_steady s id timeout now).removed id List.not_mem_nil).trans hs.removed⟩

theorem epollMod_tidy {waiting : List Nat} {id : Nat} (hid : s.Live id)
    (hs : s.Cared waiting id) (hfree : ¬ s.Held id) {timeout : Int} (htimeout : 0 < timeout) (now : Nat)
    (ctlOk : Bool) : (s.epollMod (.http id) timeout now ctlOk).Tidy waiting := by
  have hadded := addTimer_cared hs hfree timeout now
  have hnoted := (noteEvents_calm _ (.http id)).cared (noteEvents_frame _ (.http id)) hadded
  rw [epollMod_eq, startTimer_live hid htimeout]
  dsimp only
  split_ifs
  · exact hnoted.tidy
  · exact (epollCtl_calm _ _ _ _).tidy (epollCtl_frame _ _ _ _) hnoted.tidy

/-- A new entry is the one of its own connection. -/
theorem setSlots_cared {waiting : List Nat} (hinv : s.Inv) {id : Nat} (hid : s.Live id)
    (hs : s.Cared waiting id) : (s.setSlots (s.objects id).conn.chan.fd (.http id)).Cared waiting id := by
  rw [setSlots_eq hinv hid]
  have hslot {j : Nat} (h : Slot { s with
      fd2chan := s.fd2chan.set (s.objects id).conn.chan.fd (.http id)
      fd2http := s.fd2http.set (s.objects id).conn.chan.fd id } j) : j = id ∨ s.Slot j := by
    have hget : (s.fd2http.set (s.objects id).conn.chan.fd id).get (s.objects j).conn.chan.fd = some j := h
    by_cases hfd : (s.objects j).conn.chan.fd = (s.objects id).conn.chan.fd
    · rw [hfd, Table.get_set_self] at hget
      exact Or.inl (Option.some.inj hget).symm
    · rw [Table.get_set_of_ne _ hfd] at hget
      exact Or.inr hget
  refine ⟨?_, hs.out, hs.removed⟩
  exact { hs.tidy with
    retired := fun j hj => by
      have hne : j ≠ id := by
        rintro rfl
        exact absurd (hs.removed.symm.trans hj) (by decide)
      exact ⟨fun h => (hs.tidy.retired j hj).1 ((hslot h).resolve_left hne), (hs.tidy.retired j hj).2⟩
    waits := fun j hj => by
      have hne : j ≠ id := fun h => hs.out (h ▸ hj)
      obtain ⟨hnoslot, hrest⟩ := hs.tidy.waits j hj
      exact ⟨fun h => hnoslot ((hslot h).resolve_left hne), hrest⟩ }

theorem epollAdd_tidy {waiting : List Nat} (hinv : s.Inv) {id : Nat} (hid : s.Live id)
    (hs : s.Cared waiting id) (hfree : ¬ s.Held id) {timeout : Int} (htimeout : 0 < timeout) (now : Nat)
    (ctlOk : Bool) : (s.epollAdd (.http id) timeout now ctlOk).Tidy waiting := by
  have ht := addTimer_timed hinv hid timeout now
  have hadded := addTimer_cared hs hfree timeout now
  have hfd : (s.chan (.http id)).fd = ((s.addTimer id timeout now).objects id).conn.chan.fd :=
    ((addTimer_frame s id timeout now).fds (.http id)).symm
  rw [epollAdd_eq, startTimer_live hid htimeout, hfd]
  have hslots := setSlots_cared ht.inv ht.live hadded
  have hnoted := (noteEvents_calm _ (.http id)).cared (noteEvents_frame _ (.http id)) hslots
  exact (epollCtl_calm _ _ _ _).tidy (epollCtl_frame _ _ _ _) hnoted.tidy

theorem newEvent_steady (s : Worker) (id now : Nat) (ctlOk : Bool) :
    Steady [] s (s.newEvent id now ctlOk) := by
  have hset : Calm s (s.setConn id { (s.objects id).conn with chan.events := DEFAULT_EVENT }) :=
    setConn_calm s id rfl
  have hadd := epollAdd_steady (s.setConn id { (s.objects id).conn with chan.events := DEFAULT_EVENT })
    (.http id) DEFAULT_EXPIRED_TIME now ctlOk
  exact (hset.toSteady.trans hadd).trans (setObject_steady _ id rfl rfl)

theorem newEvent_tidy {waiting : List Nat} (hinv : s.Inv) {id : Nat} (hid : s.Live id)
    (hs : s.Cared waiting id) (hfree : ¬ s.Held id) (now : Nat) (ctlOk : Bool) :
    (s.newEvent id now ctlOk).Tidy waiting := by
  have hsame : SameRefs s (s.setConn id { (s.objects id).conn with chan.events := DEFAULT_EVENT }) :=
    setConn_same s id rfl rfl
  have hset : Calm s (s.setConn id { (s.objects id).conn with chan.events := DEFAULT_EVENT }) :=
    setConn_calm s id rfl
  have hframe : Frame [] s (s.setConn id { (s.objects id).conn with chan.events := DEFAULT_EVENT }) :=
    setObject_frame s id rfl
  have hadded := epollAdd_tidy (hsame.inv hinv) ((hsame.live id).mpr hid) (hset.cared hframe hs)
    (fun h => hfree (hset.held h)) (show 0 < DEFAULT_EXPIRED_TIME by decide) now ctlOk
  refine Calm.tidy ?_ (?_ : Frame [] _ _) hadded
  · exact setObject_calm _ id rfl rfl rfl
  · exact setObject_frame _ id rfl

/-- `handleClose` removes its connection from the poller, and no other. -/
theorem handleClose_steady (s : Worker) (id : Nat) (ctlOk : Bool) :
    Steady [id] s (s.handleClose id ctlOk) ∧ Fewer s (s.handleClose id ctlOk) := by
  have hset : Calm s (s.setConn id { (s.objects id).conn with http.connectionState := .disconnected }) :=
    setConn_calm s id rfl
  have hmark {t : Worker} : Steady [id] t (t.setObject id { t.objects id with removed := true }) ∧
      Fewer t (t.setObject id { t.objects id with removed := true }) := by
    refine ⟨⟨fun j hj => ?_, fun j => ?_, rfl⟩, setObject_fewer t id rfl⟩
    · simp only [setObject_other _ (List.ne_of_not_mem_cons hj)]
    · by_cases hj : j = id
      · subst hj
        simp only [closings, setObject_self]
      · simp only [closings, setObject_other _ hj]
  have hend {t u : Worker} (h : Calm t u) (ht : Steady [id] s t ∧ Fewer s t) :
      Steady [id] s u ∧ Fewer s u := ⟨ht.1.trans h.toSteady.of_nil, ht.2.trans h.toFewer⟩
  have hmarked : Steady [id] s _ ∧ Fewer s _ :=
    ⟨hset.toSteady.of_nil.trans hmark.1, hset.toFewer.trans hmark.2⟩
  unfold handleClose epollDel
  dsimp only
  split_ifs
  · exact hend (resetSlots_calm _ _) (hend (setInterest_calm _ _) hmarked)
  · exact hend (resetSlots_calm _ _) hmarked

theorem handleClose_slot (s : Worker) (id : Nat) (ctlOk : Bool) : ¬ (s.handleClose id ctlOk).Slot id := by
  have hset : Frame [] s (s.setConn id { (s.objects id).conn with http.connectionState := .disconnected }) :=
    setObject_frame s id rfl
  have hnone : (s.handleClose id ctlOk).fd2http.get ((s.setConn id { (s.objects id).conn with
      http.connectionState := .disconnected }).chan (.http id)).fd = none := by
    unfold handleClose epollDel
    exact (resetSlots_get _ _).2
  have hfd : ((s.handleClose id ctlOk).objects id).conn.chan.fd = ((s.setConn id { (s.objects id).conn with
      http.connectionState := .disconnected }).chan (.http id)).fd :=
    ((handleClose_frame s id ctlOk).fds (.http id)).trans (hset.fds (.http id)).symm
  rw [Slot, hfd, hnone]
  simp

/-- A connection that no node holds is closed. -/
theorem handleClose_tidy {waiting : List Nat} {id : Nat} (hid : s.Live id) (hs : s.Tidy waiting)
    (hout : id ∉ waiting) (hfree : ¬ s.Held id) (ctlOk : Bool) : (s.handleClose id ctlOk).Tidy waiting := by
  obtain ⟨hsteady, hfewer⟩ := handleClose_steady s id ctlOk
  apply hfewer.tidy (handleClose_frame s id ctlOk) hs
  intro j hj
  by_cases hne : j = id
  · subst hne
    exact Or.inr ⟨hid.1, hout, handleClose_slot s j ctlOk, fun h => hfree (hfewer.held h)⟩
  · exact Or.inl (hsteady.removed j (by simpa using hne) ▸ hj)

/-! ### One `handleEvents` -/

/-- One call of `handleClose` by the connection, which was not removed before. -/
structure Shut (id : Nat) (s t : Worker) : Prop where
  others : ∀ j, j ≠ id → (t.objects j).removed = (s.objects j).removed ∧ t.closings j = s.closings j
  before : (s.objects id).removed = false
  after : (t.objects id).removed = true
  once : t.closings id = s.closings id + 1
  queue : t.queue = s.queue

theorem tame_count {c c' : Conn} (h : Tame c c') :
    c'.calls.count .handleClose = c.calls.count .handleClose := by
  obtain ⟨new, hnew, hquiet⟩ := h.calls
  have hnone : new.count .handleClose = 0 := by
    apply List.count_eq_zero.mpr
    intro hmem
    have hk := hquiet _ hmem
    cases hk
  rw [hnew, List.count_append, hnone]
  rfl

/-- A change of the connection leaves the nodes alone, whatever it has called. -/
theorem setConn_tidy {waiting : List Nat} (hs : s.Tidy waiting) {id : Nat} {c : Conn}
    (hfd : c.chan.fd = (s.objects id).conn.chan.fd) : (s.setConn id c).Tidy waiting := by
  have hfewer : Fewer s (s.setConn id c) := setObject_fewer s id rfl
  have hframe : Frame [] s (s.setConn id c) := setObject_frame s id hfd
  refine hfewer.tidy hframe hs fun j hj => Or.inl ?_
  by_cases hne : j = id
  · subst hne
    simpa only [setConn_self] using hj
  · simpa only [setConn_other _ hne] using hj

/-- **The end of `handleEvents`**: the connection is held by one node, by none, or closed. -/
theorem handleConn_tidy {waiting : List Nat} {id : Nat} (io : Io) (h : Serving id s t)
    (ht : t.Tidy waiting) (hst : Steady [] s t) :
    Safe Unharmed (fun u => u.Tidy waiting ∧ (Steady [] s u ∨ Shut id s u))
      (callback id io (fun c => .ok (handleConn c)) t) := by
  obtain ⟨-, hfd, -, -⟩ := handleConn_calls (t.objects id).conn
  have hset : (t.setConn id (handleConn (t.objects id).conn)).Tidy waiting := setConn_tidy ht hfd
  obtain ⟨hclear, hfree⟩ := clearTimer_calm hset id
  have hseparated : (t.separated id).Tidy waiting := hclear.tidy (clearTimer_frame _ id) hset
  have hu := h.separated
  have hout : id ∉ waiting := fun hmem => (hseparated.waits id hmem).1 hu.slot
  have hrem : ((t.separated id).objects id).removed = false := by
    by_contra hnot
    exact (hseparated.retired id (by simpa using hnot)).1 hu.slot
  have hcalm (hcount : (handleConn (t.objects id).conn).calls.count .handleClose = t.closings id) :
      Steady [] s (t.separated id) := hst.trans ((setConn_calm t id hcount).trans hclear).toSteady
  rcases callback_handleConn_cases io h with ⟨hcalls, hrun⟩ | ⟨timeout, htimeout, hcalls, hrun⟩ |
    ⟨hcalls, hrun⟩
  all_goals rw [hrun]
  · exact ⟨hseparated, Or.inl (hcalm (by rw [hcalls, List.count_append]; rfl))⟩
  · refine ⟨epollMod_tidy hu.live ⟨hseparated, hout, hrem⟩ hfree htimeout io.now io.ctlOk, Or.inl ?_⟩
    exact (hcalm (by rw [hcalls, List.count_append]; rfl)).trans (epollMod_steady _ _ _ _ _)
  · refine ⟨handleClose_tidy hu.live hseparated hout hfree io.ctlOk, Or.inr ?_⟩
    have hsteady := hclear.toSteady.of_nil.trans (handleClose_steady (t.separated id) id io.ctlOk).1
    have hconn (j : Nat) (hj : j ≠ id) := t.setConn_other hj (handleConn (t.objects id).conn)
    have hself := t.setConn_self id (handleConn (t.objects id).conn)
    refine ⟨fun j hj => ⟨?_, ?_⟩, ?_, handleClose_removed _ _ _, ?_, ?_⟩
    · rw [hsteady.removed j (by simpa using hj), hconn j hj, hst.removed j List.not_mem_nil]
    · rw [hsteady.closings j, closings, hconn j hj, ← hst.closings j, closings]
    · have hself' := hclear.removed id List.not_mem_nil
      rw [hself] at hself'
      rw [← hst.removed id List.not_mem_nil, ← hself']
      exact hrem
    · rw [hsteady.closings id, closings, hself, ← hst.closings id]
      simp only [hcalls, List.count_append]
      rfl
    · exact hsteady.queue.trans hst.queue

theorem epollMod_wakeup_calm (s : Worker) (now : Nat) (ctlOk : Bool) :
    Calm s (s.epollMod .wakeup 0 now ctlOk) := by
  have hnone : s.startTimer .wakeup 0 now = s := if_neg (by decide)
  rw [epollMod_eq, hnone]
  dsimp only
  split_ifs
  · exact noteEvents_calm s .wakeup
  · exact (noteEvents_calm s .wakeup).trans (epollCtl_calm _ _ _ _)

theorem handleWakeup_calm (s : Worker) (io : Io) : Calm s (s.handleWakeup io) :=
  handleWakeup_rule (fun t _ _ h => h.trans (setChan_calm t .wakeup _))
    (fun t h => h.trans (epollMod_wakeup_calm t io.now io.ctlOk)) (.refl s)

theorem handleEvents_tidy {waiting : List Nat} (hinv : s.Inv) (hs : s.Tidy waiting) {request : ChannelRef}
    (hslot : s.fd2chan.get (s.chan request).fd = some request) (io : Io) :
    Safe Unharmed (fun u => u.Tidy waiting ∧ (Steady [] s u ∨ ∃ id, request = .http id ∧ Shut id s u))
      (s.handleEvents io request) := by
  cases request with
  | wakeup =>
      have hcalm := handleWakeup_calm s io
      exact ⟨hcalm.tidy (handleWakeup_served hinv io).frame hs, Or.inl hcalm.toSteady⟩
  | http id =>
      have hstart : Serving id s s := ⟨hinv, (hinv.paired _ id).mp hslot, .refl [] s⟩
      have htame {t : Worker} {c : Conn} (ht : t.Tidy waiting ∧ Steady [] s t)
          (hc : Tame (t.objects id).conn c) :
          (t.setConn id c).Tidy waiting ∧ Steady [] s (t.setConn id c) :=
        ⟨setConn_tidy ht.1 hc.chanFd, ht.2.trans (setConn_calm t id (tame_count hc)).toSteady⟩
      refine handleEvents_rule (P := fun t => t.Tidy waiting ∧ Steady [] s t) hstart
        (fun t c _ ht hc => htame ht hc) (fun t _ ht => ?_) (fun t h ht => ?_)
        (fun t _ ht => ⟨ht.1, Or.inl ht.2⟩)
        (htame (htame ⟨hs, .refl [] s⟩ (meet_tame _ io)) (clearEvents_tame _))
      · obtain ⟨hclear, -⟩ := clearTimer_calm ht.1 id
        exact ⟨hclear.tidy (clearTimer_frame t id) ht.1, ht.2.trans hclear.toSteady⟩
      · exact (handleConn_tidy io h ht.1 ht.2).imp fun u hu =>
          ⟨hu.1, hu.2.imp_right fun hshut => ⟨id, rfl, hshut⟩⟩

/-! ### The steps of the worker -/

/-- The connection that a round of `handleExpiredEvent` closes. -/
def expires (s : Worker) : WorkerStep → List Nat
  | .sweep nid now _ =>
      match s.timers.get nid with
      | some node => if node.deleted ∨ node.expiredTime ≤ now then node.requestData.toList else []
      | none => []
  | _ => []

/-- A connection is removed from the poller just if its `handleClose` was called, and then once: by its
handlers, or by the end of a timer node. -/
def Tally (log : List Nat) (s : Worker) : Prop :=
  ∀ id, s.closings id + log.count id = if (s.objects id).removed then 1 else 0

theorem Steady.tally {log : List Nat} (h : Steady [] s t) (hs : s.Tally log) : t.Tally log := fun id => by
  rw [h.closings, h.removed id List.not_mem_nil]
  exact hs id

theorem Shut.tally {log : List Nat} {id : Nat} (h : Shut id s t) (hs : s.Tally log) : t.Tally log := by
  intro j
  have hj := hs j
  by_cases hne : j = id
  · subst hne
    simp only [h.before, Bool.false_eq_true, if_false] at hj
    simp only [h.after, h.once, if_true]
    omega
  · rw [(h.others j hne).1, (h.others j hne).2]
    exact hj

theorem Tidy.sublist {waiting waiting' : List Nat} (hs : s.Tidy waiting) (h : waiting'.Sublist waiting) :
    s.Tidy waiting' :=
  { hs with waits := fun id hid => hs.waits id (h.subset hid), nodup := hs.nodup.sublist h }

/-- The end of a node that holds no connection, or of the only one that held its connection. -/
theorem dropTimer_tidy {waiting : List Nat} (hinv : s.Inv) (hs : s.Tidy waiting) {nid : Nat}
    {node : TimerNode} (hnode : s.timers.get nid = some node) (ctlOk : Bool) :
    (s.dropTimer nid node ctlOk).Tidy waiting ∧ (s.dropTimer nid node ctlOk).queue = s.queue ∧
      ∀ log, s.Tally log → (s.dropTimer nid node ctlOk).Tally (log ++ node.requestData.toList) := by
  have hreset (u : Worker) : Calm u { u with timers := u.timers.reset nid } := by
    refine { Calm.refl u with nodes := fun k node' id h _ => ⟨?_, rfl⟩ }
    by_cases hk : k = nid
    · simp [hk] at h
    · rwa [Table.get_reset_of_ne _ hk] at h
  obtain ⟨touched, hframe⟩ := dropTimer_frame s nid node ctlOk
  unfold dropTimer at hframe ⊢
  cases hdata : node.requestData with
  | none =>
      simp only [hdata] at hframe ⊢
      refine ⟨(hreset s).tidy hframe hs, rfl, fun log hlog => ?_⟩
      simpa only [Option.toList_none, List.append_nil] using (hreset s).toSteady.tally hlog
  | some id =>
      simp only [hdata] at hframe ⊢
      have hheld : s.Held id := ⟨nid, node, hnode, hdata⟩
      have hid := hinv.holders nid node id hnode hdata
      have hout : id ∉ waiting := fun hmem => (hs.waits id hmem).2.1 hheld
      have hbefore : (s.objects id).removed = false := by
        by_contra hnot
        exact (hs.retired id (by simpa using hnot)).2 hheld
      obtain ⟨hclosed, hfewer⟩ := handleClose_steady s id ctlOk
      have hend := (hreset (s.handleClose id ctlOk)).trans (release_calm _ id)
      have hsteady := hclosed.trans hend.toSteady.of_nil
      have hafter := (hend.removed id List.not_mem_nil).trans (handleClose_removed s id ctlOk)
      refine ⟨(hfewer.trans hend.toFewer).tidy hframe hs fun j hj => ?_, hsteady.queue, fun log hlog j => ?_⟩
      · by_cases hne : j = id
        · subst hne
          refine Or.inr ⟨hid.1, hout, fun h => ?_, fun h => ?_⟩
          · have hdropped : Frame [] (s.handleClose j ctlOk) { s.handleClose j ctlOk with
                timers := (s.handleClose j ctlOk).timers.reset nid } := { Frame.refl [] _ with }
            exact handleClose_slot s j ctlOk (hend.slot (hdropped.trans (release_frame _ j)) h)
          · obtain ⟨k, node', hget, hdata'⟩ := (release_calm _ j).held h
            by_cases hk : k = nid
            · simp [hk] at hget
            · rw [Table.get_reset_of_ne _ hk, handleClose_timers] at hget
              have hlink := (hs.linked nid node j hnode hdata).2
              rw [(hs.linked k node' j hget hdata').2] at hlink
              exact hk (Option.some.inj hlink)
        · exact Or.inl (hsteady.removed j (by simpa using hne) ▸ hj)
      · have hj := hlog j
        rw [hsteady.closings, List.count_append]
        by_cases hne : j = id
        · subst hne
          simp only [hbefore, Bool.false_eq_true, if_false] at hj
          simp only [hafter, if_true, Option.toList_some, List.count_singleton_self]
          omega
        · rw [hsteady.removed j (by simpa using hne)]
          simpa [hne, Ne.symm hne] using hj

/-- What a step does to the nodes, and to the count of the calls. -/
structure Counted (s : Worker) (a : WorkerStep) (t : Worker) : Prop where
  tidy : t.Tidy t.uncalled
  tally : ∀ log, s.Tally log → t.Tally (log ++ s.expires a)

theorem Steady.counted {a : WorkerStep} (h : Steady [] s t) (ht : t.Tidy s.uncalled)
    (hnone : s.expires a = []) : Counted s a t := by
  refine ⟨uncalled_eq h.queue ▸ ht, fun log hlog => ?_⟩
  rw [hnone, List.append_nil]
  exact h.tally hlog

theorem Calm.counted {touched : List Nat} {a : WorkerStep} (h : Calm s t) (hframe : Frame touched s t)
    (hs : s.Tidy s.uncalled) (hnone : s.expires a = []) : Counted s a t :=
  h.toSteady.counted (h.tidy hframe hs) hnone

/-- A change of the functors alone, by which none is added. -/
theorem counted_of_sublist {a : WorkerStep} (hs : s.Tidy s.uncalled) (hobjects : t.objects = s.objects)
    (htimers : t.timers = s.timers) (hentries : t.fd2http = s.fd2http) (hmade : t.made = s.made)
    (hsub : t.uncalled.Sublist s.uncalled) (hnone : s.expires a = []) : Counted s a t := by
  have hless := hs.sublist hsub
  refine ⟨⟨?_, ?_, ?_, hless.nodup, ?_⟩, fun log hlog => ?_⟩
  · simpa only [htimers, hobjects] using hless.linked
  · simpa only [Slot, Held, htimers, hobjects, hentries] using hless.retired
  · simpa only [Slot, Held, htimers, hobjects, hentries] using hless.waits
  · simpa only [hobjects, hmade] using hless.unmade
  · rw [hnone, List.append_nil]
    simpa only [Tally, closings, hobjects] using hlog

theorem getEventsReqeust_tidy {waiting : List Nat} (events : List (Nat × EventMask))
    (hs : s.Tidy waiting) : (getEventsReqeust events s).Tidy waiting ∧
      Steady [] s (getEventsReqeust events s) := by
  refine getEventsReqeust_rule (P := fun t => t.Tidy waiting ∧ Steady [] s t)
    (fun t request revents ht => ?_) events ⟨hs, .refl [] s⟩
  have hcalm := setChan_calm t request { t.chan request with revents := revents, events := 0 }
  have hready : Calm t { t.found request revents with ready := t.ready } := { hcalm with }
  have hfound := hready.tidy (found_frame t request revents) ht.1
  have hsteady : Steady [] t (t.found request revents) := { hcalm.toSteady with }
  exact ⟨{ hfound with }, ht.2.trans hsteady⟩

theorem poll_counted (hs : s.Tidy s.uncalled) {events : List (Nat × EventMask)}
    (hstep : s.poll events = some t) : Counted s (.poll events) t := by
  obtain ⟨-, -, rfl⟩ := poll_cases hstep
  have hstart : Tidy s.uncalled { s with ready := [] } := { hs with }
  obtain ⟨htidy, hsteady⟩ := getEventsReqeust_tidy events hstart
  exact Steady.counted { hsteady with } { htidy with } rfl

/-- A new connection waits for its functor. -/
theorem accept_counted (hinv : s.Inv) (hs : s.Tidy s.uncalled) {fd : Nat} (hstep : s.accept fd = some t) :
    Counted s (.accept fd) t := by
  obtain ⟨-, -, rfl⟩ := accept_cases hstep
  have hself := s.handNewConn_new fd
  have hother (j : Nat) (hj : j ≠ s.made) := s.handNewConn_other hj fd
  have huncalled : (s.handNewConn fd).uncalled = s.uncalled ++ [s.made] := (List.append_assoc _ _ _).symm
  have hbefore := hs.unmade s.made le_rfl
  have hheld {j : Nat} (h : (s.handNewConn fd).Held j) : s.Held j ∧ j ≠ s.made := by
    obtain ⟨nid, node, hnode, hdata⟩ := h
    exact ⟨⟨nid, node, hnode, hdata⟩, (hinv.holders nid node j hnode hdata).1.ne⟩
  have hslot {j : Nat} (h : (s.handNewConn fd).Slot j) : s.Slot j ∧ j ≠ s.made := by
    have hne : j ≠ s.made := (hinv.slots _ j h).1.1.ne
    rw [Slot, hother j hne] at h
    exact ⟨h, hne⟩
  have hwaiting {j : Nat} (hj : j ∈ s.uncalled) : j ≠ s.made := by
    have hrefs : j ∈ s.functors ∨ j ∈ s.pendingFunctors ∨ j ∈ s.acceptors := by
      rcases List.mem_append.mp hj with h | h
      · exact Or.inl (List.mem_of_mem_drop h)
      · exact Or.inr (Or.inl h)
    exact (hinv.refs j hrefs).1.ne
  refine ⟨⟨?_, ?_, ?_, ?_, ?_⟩, fun log hlog j => ?_⟩
  · intro nid node j hnode hdata
    rw [hother j (hheld ⟨nid, node, hnode, hdata⟩).2]
    exact hs.linked nid node j hnode hdata
  · intro j hj
    by_cases hne : j = s.made
    · subst hne
      rw [hself] at hj
      cases hj
    · rw [hother j hne] at hj
      exact ⟨fun h => (hs.retired j hj).1 (hslot h).1, fun h => (hs.retired j hj).2 (hheld h).1⟩
  · intro j hj
    rw [huncalled] at hj
    rcases List.mem_append.mp hj with hj | hj
    · obtain ⟨hnoslot, hnode, hrem⟩ := hs.waits j hj
      rw [hother j (hwaiting hj)]
      exact ⟨fun h => hnoslot (hslot h).1, fun h => hnode (hheld h).1, hrem⟩
    · obtain rfl := List.mem_singleton.mp hj
      exact ⟨fun h => (hslot h).2 rfl, fun h => (hheld h).2 rfl, by rw [hself]⟩
  · rw [huncalled]
    exact List.nodup_append.mpr ⟨hs.nodup, List.nodup_singleton _, fun i hi j hj hij =>
      hwaiting hi (hij.trans (List.mem_singleton.mp hj))⟩
  · intro j hj
    have hj' : s.made + 1 ≤ j := hj
    rw [hother j (by omega)]
    exact hs.unmade j (by omega)
  · have hj := hlog j
    have hnone : s.expires (.accept fd) = [] := rfl
    rw [hnone, List.append_nil]
    by_cases hne : j = s.made
    · subst hne
      simp only [hbefore, Bool.false_eq_true, if_false] at hj
      have hnever : (s.handNewConn fd).closings s.made = 0 := by
        rw [closings, hself]
        rfl
      rw [hnever, hself]
      simp only [Bool.false_eq_true, if_false]
      omega
    · rw [closings, hother j hne]
      exact hj

theorem handle_counted (hs : s.Sound) (htidy : s.Tidy s.uncalled) {io : Io} (hstep : s.handle io = some t) :
    Counted s (.handle io) t := by
  obtain ⟨request, rest, u, -, -, hslot, hrun, rfl⟩ := handle_cases hs hstep
  have hend := handleEvents_tidy hs.inv htidy hslot io
  rw [hrun] at hend
  obtain ⟨hu, hsteady | ⟨id, -, hshut⟩⟩ := hend
  · exact Steady.counted { hsteady with } { hu with } rfl
  · have hshut' : Shut id s { u with ready := rest } := { hshut with }
    have hnone : s.expires (.handle io) = [] := rfl
    refine ⟨uncalled_eq hshut'.queue ▸ { hu with }, fun log hlog => ?_⟩
    rw [hnone, List.append_nil]
    exact hshut'.tally hlog

theorem functor_counted (hs : s.Sound) (htidy : s.Tidy s.uncalled) {now : Nat} {ctlOk : Bool}
    (hstep : s.functor now ctlOk = some t) : Counted s (.functor now ctlOk) t := by
  obtain ⟨id, -, hget, rfl⟩ := functor_cases hstep
  have hid := hs.inv.refs id (Or.inl (List.mem_of_getElem? hget))
  -- the functor called is the first of those that wait
  have hfirst : s.uncalled = id :: (s.functors.drop (s.called + 1) ++ s.pendingFunctors) := by
    obtain ⟨hlt, hget⟩ := List.getElem?_eq_some_iff.mp hget
    rw [uncalled, List.drop_eq_getElem_cons hlt, hget, List.cons_append]
  rw [hfirst] at htidy
  obtain ⟨-, hfree, hrem⟩ := htidy.waits id List.mem_cons_self
  have hout := (List.nodup_cons.mp htidy.nodup).1
  have hrest := htidy.sublist (List.sublist_cons_self _ _)
  have hadded := newEvent_tidy hs.inv hid ⟨hrest, hout, hrem⟩ hfree now ctlOk
  have hsteady := newEvent_steady s id now ctlOk
  obtain ⟨hfunctors, -, hpending⟩ := queue_eq hsteady.queue
  have huncalled : Worker.uncalled { s.newEvent id now ctlOk with called := s.called + 1 } =
      s.functors.drop (s.called + 1) ++ s.pendingFunctors := by
    simp only [uncalled, hfunctors, hpending]
  refine ⟨huncalled ▸ { hadded with }, fun log hlog j => ?_⟩
  have hnone : s.expires (.functor now ctlOk) = [] := rfl
  rw [hnone, List.append_nil]
  exact hsteady.tally hlog j

theorem swapFunctors_counted (htidy : s.Tidy s.uncalled) (hstep : s.swapFunctors = some t) :
    Counted s .swapFunctors t := by
  obtain ⟨-, -, rfl⟩ := swapFunctors_cases hstep
  refine counted_of_sublist htidy rfl rfl rfl rfl ?_ rfl
  simp only [uncalled, List.drop_zero, List.append_nil]
  exact List.sublist_append_right _ _

theorem foldl_release_calm (ids : List Nat) (s : Worker) :
    Calm s (ids.foldl release s) ∧ Frame [] s (ids.foldl release s) := by
  induction ids generalizing s with
  | nil => exact ⟨.refl s, .refl [] s⟩
  | cons id ids ih =>
      obtain ⟨hcalm, hframe⟩ := ih (s.release id)
      exact ⟨(release_calm s id).trans hcalm, (release_frame s id).trans hframe⟩

theorem endFunctors_counted (htidy : s.Tidy s.uncalled) (hstep : s.endFunctors = some t) :
    Counted s .endFunctors t := by
  obtain ⟨-, rfl⟩ := endFunctors_cases hstep
  obtain ⟨hcalm, hframe⟩ := foldl_release_calm s.functors { s with functors := [] }
  have hsub : (Worker.uncalled { s with functors := [] }).Sublist s.uncalled := by
    simp only [uncalled, List.drop_nil, List.nil_append]
    exact List.sublist_append_right _ _
  have hstart : Counted s .endFunctors { s with functors := [] } :=
    counted_of_sublist htidy rfl rfl rfl rfl hsub rfl
  have hend := hcalm.tidy hframe hstart.tidy
  have huncalled := uncalled_eq hcalm.queue
  refine ⟨huncalled ▸ { hend with }, fun log hlog => ?_⟩
  have htally := hcalm.toSteady.tally (hstart.tally log hlog)
  exact fun j => htally j

theorem sweep_counted (hs : s.Sound) (htidy : s.Tidy s.uncalled) {nid now : Nat} {ctlOk : Bool}
    (hstep : s.sweep nid now ctlOk = some t) : Counted s (.sweep nid now ctlOk) t := by
  obtain ⟨node, -, hnode, -, ⟨hdue, rfl⟩ | ⟨hdue, rfl⟩⟩ := sweep_cases hstep
  · obtain ⟨hend, hqueue, htally⟩ := dropTimer_tidy hs.inv htidy hnode ctlOk
    refine ⟨uncalled_eq hqueue ▸ hend, fun log hlog => ?_⟩
    simp only [expires, hnode, if_pos hdue]
    exact htally log hlog
  · refine Steady.counted { Steady.refl [] s with } { htidy with } ?_
    simp only [expires, hnode, if_neg hdue]

theorem step_counted {a : WorkerStep} (hs : s.Sound) (htidy : s.Tidy s.uncalled) (hstep : s.step a = some t) :
    Counted s a t := by
  cases a with
  | accept fd => exact accept_counted hs.inv htidy hstep
  | acceptorReleases id =>
      obtain ⟨-, rfl⟩ := acceptorReleases_cases hstep
      have hcalm : Calm s { s with acceptors := s.acceptors.erase id } := { Calm.refl s with }
      have hframe : Frame [] s { s with acceptors := s.acceptors.erase id } := { Frame.refl [] s with }
      exact (hcalm.trans (release_calm _ id)).counted (hframe.trans (release_frame _ id)) htidy rfl
  | poll events => exact poll_counted htidy hstep
  | handle io => exact handle_counted hs htidy hstep
  | swapFunctors => exact swapFunctors_counted htidy hstep
  | functor now ctlOk => exact functor_counted hs htidy hstep
  | endFunctors => exact endFunctors_counted htidy hstep
  | sweep nid now ctlOk => exact sweep_counted hs htidy hstep
  | endSweep =>
      obtain ⟨-, -, rfl⟩ := endSweep_cases hstep
      exact Steady.counted { Steady.refl [] s with } { htidy with } rfl

theorem created_tidy (wakeupFd : Nat) (ctlOk : Bool) :
    (created wakeupFd ctlOk).Tidy (created wakeupFd ctlOk).uncalled ∧ (created wakeupFd ctlOk).Tally [] := by
  have hobject := created_objects wakeupFd ctlOk
  have htimers := created_timers wakeupFd ctlOk
  have huncalled : (created wakeupFd ctlOk).uncalled = [] := by
    cases ctlOk <;> rfl
  refine ⟨⟨?_, ?_, ?_, ?_, ?_⟩, fun id => ?_⟩
  · simp [htimers]
  · simp [hobject]
  · simp [huncalled]
  · simp [huncalled]
  · simp [hobject]
  · rw [closings, hobject]
    rfl

theorem run_counted {wakeupFd : Nat} {ctlOk : Bool} {as : List WorkerStep}
    (hrun : Run step (fun _ _ => True) (created wakeupFd ctlOk) as t) :
    t.Tidy t.uncalled ∧ t.Tally (emitted step expires (created wakeupFd ctlOk) as) := by
  obtain ⟨htidy, htally⟩ := created_tidy wakeupFd ctlOk
  have hend : t.Sound ∧ t.Tidy t.uncalled ∧
      t.Tally ([] ++ emitted step expires (created wakeupFd ctlOk) as) :=
    hrun.emitted_invariant (I := fun s log => s.Sound ∧ s.Tidy s.uncalled ∧ s.Tally log)
      (fun s a u log _ hstep ⟨hs, hu, hlog⟩ => by
        have hcounted := step_counted hs hu hstep
        exact ⟨step_sound hs hstep, hcounted.tidy, hcounted.tally log hlog⟩)
      ⟨created_sound wakeupFd ctlOk, htidy, htally⟩
  exact hend.2

/-- **One live timer for each connection.** A node of the queue that still holds a connection is not
deleted, is the one the connection is linked to, and the only one that holds it. So the round of the sweep
that closes a connection is that of its linked node; and `handleClose` is called at most once for each
connection, by its handlers or by the end of its node. -/
theorem run_oneTimer {wakeupFd : Nat} {ctlOk : Bool} {as : List WorkerStep}
    (hrun : Run step (fun _ _ => True) (created wakeupFd ctlOk) as t) (id : Nat) :
    (∀ nid node, t.timers.get nid = some node → node.requestData = some id →
      node.deleted = false ∧ (t.objects id).timer = some nid ∧
        ∀ nid' node', t.timers.get nid' = some node' → node'.requestData = some id → nid' = nid) ∧
      (∀ nid now ctlOk, id ∈ t.expires (.sweep nid now ctlOk) → (t.objects id).timer = some nid) ∧
      (t.objects id).conn.calls.count .handleClose +
        (emitted step expires (created wakeupFd ctlOk) as).count id ≤ 1 := by
  obtain ⟨htidy, htally⟩ := run_counted hrun
  refine ⟨fun nid node hnode hdata => ?_, fun nid now ctlOk hid => ?_, ?_⟩
  · obtain ⟨hlive, hlink⟩ := htidy.linked nid node id hnode hdata
    refine ⟨hlive, hlink, fun nid' node' hnode' hdata' => ?_⟩
    exact Option.some.inj ((htidy.linked nid' node' id hnode' hdata').2.symm.trans hlink)
  · cases hget : t.timers.get nid with
    | none => simp [expires, hget] at hid
    | some node =>
        simp only [expires, hget] at hid
        split_ifs at hid
        · exact (htidy.linked nid node id hget (by simpa using hid)).2
        · cases hid
  · have hid := htally id
    rw [closings] at hid
    split_ifs at hid <;> omega

/-- An event leaves the first node of a connection in the queue; only the second closes it. -/
theorem run_oneTimer_event :
    ∃ t : Worker, t.timers.get 0 = some ⟨true, 2000, none⟩ ∧ t.timers.get 1 = some ⟨false, 150002, some 0⟩ ∧
      ∀ nid now ctlOk, 0 ∈ t.expires (.sweep nid now ctlOk) → nid = 1 := by
  have hexec : ∃ t : Worker, exec (checked step fun _ _ => True) (created 3 true)
      [.accept 5, .acceptorReleases 0, .poll [(3, EPOLLIN)], .handle ⟨someHost, [], [], 0, true⟩,
        .swapFunctors, .functor 0 true, .endFunctors, .sweep 0 1 true, .poll [(5, EPOLLOUT)],
        .handle ⟨someHost, [], [], 2, true⟩, .swapFunctors, .endFunctors] = some t ∧
          t.timers.get 0 = some ⟨true, 2000, none⟩ ∧ t.timers.get 1 = some ⟨false, 150002, some 0⟩ :=
    ⟨_, rfl, rfl, rfl⟩
  obtain ⟨t, ht, hfirst, hsecond⟩ := hexec
  obtain ⟨hnodes, hexpires, -⟩ := run_oneTimer (run_of_exec_checked ht) 0
  refine ⟨t, hfirst, hsecond, fun nid now ctlOk hid => ?_⟩
  exact Option.some.inj ((hexpires nid now ctlOk hid).symm.trans (hnodes 1 _ hsecond rfl).2.1)

end Worker

end WebServer
