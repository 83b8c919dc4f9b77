import WebServer.EpollAbandon
import WebServer.EpollMasks
import WebServer.EpollTimers
import WebServer.HttpErrorOnce

/-! The error responses over the life of a connection. The event in which a connection comes to be in error
ends with its removal from the poller, and what was removed gets no more events. -/

namespace WebServer

open Runs Stages

namespace Worker

variable {s t u : Worker}

/-- The connection has written nothing and is in error just if it was; once removed, it stays so. -/
structure Unseen (o o' : HttpObject) : Prop where
  mute : Mute o.conn o'.conn
  error : o'.conn.http.error = o.conn.http.error
  removed : o.removed = true → o'.removed = true

theorem Unseen.refl (o : HttpObject) : Unseen o o := ⟨.refl o.conn, rfl, id⟩

theorem Unseen.trans {o o' o'' : HttpObject} (h : Unseen o o') (h' : Unseen o' o'') : Unseen o o'' :=
  ⟨h.mute.trans h'.mute, h'.error.trans h.error, fun hremoved => h'.removed (h.removed hremoved)⟩

def Aside (s t : Worker) : Prop := ∀ id, Unseen (s.objects id) (t.objects id)

theorem Aside.refl (s : Worker) : Aside s s := fun id => .refl (s.objects id)

theorem Aside.trans (h : Aside s t) (h' : Aside t u) : Aside s u := fun id => (h id).trans (h' id)

theorem setObject_aside (s : Worker) (id : Nat) {o : HttpObject} (ho : Unseen (s.objects id) o) :
    Aside s (s.setObject id o) := by
  intro j
  by_cases hj : j = id
  · subst hj
    simpa only [setObject_self] using ho
  · simpa only [setObject_other _ hj] using Unseen.refl (s.objects j)

theorem setConn_aside (s : Worker) (id : Nat) {c : Conn} (hmute : Mute (s.objects id).conn c)
    (herror : c.http.error = (s.objects id).conn.http.error) : Aside s (s.setConn id c) :=
  setObject_aside s id ⟨hmute, herror, fun h => h⟩

theorem setChan_aside (s : Worker) (request : ChannelRef) (ch : Channel) :
    Aside s (s.setChan request ch) := by
  cases request with
  | wakeup => exact .refl s
  | http id => exact setConn_aside s id ⟨rfl, rfl⟩ rfl

theorem releaseOption_aside (s : Worker) (o : Option Nat) : Aside s (s.releaseOption o) := by
  intro id
  obtain ⟨destroyed, hobject⟩ := releaseOption_object s o id
  rw [hobject]
  exact ⟨.refl (s.objects id).conn, rfl, fun h => h⟩

theorem release_aside (s : Worker) (id : Nat) : Aside s (s.release id) := releaseOption_aside s (some id)

/-- A change of the tables, and a reference that goes. -/
theorem Aside.release (hobjects : t.objects = s.objects) (o : Option Nat) : Aside s (t.releaseOption o) := by
  intro id
  rw [← hobjects]
  exact releaseOption_aside t o id

theorem resetSlots_aside (s : Worker) (fd : Nat) : Aside s (s.resetSlots fd) := .release (by rfl) _

theorem setSlots_aside (s : Worker) (fd : Nat) (request : ChannelRef) : Aside s (s.setSlots fd request) :=
  .release (by rfl) _

theorem noteEvents_aside (s : Worker) (request : ChannelRef) : Aside s (s.noteEvents request) :=
  setChan_aside s request _

theorem epollCtl_aside (s : Worker) (fd : Nat) (events : EventMask) (ctlOk : Bool) :
    Aside s (s.epollCtl fd events ctlOk) := by
  unfold epollCtl
  split_ifs
  · exact .refl s
  · exact resetSlots_aside s fd

theorem startTimer_aside (s : Worker) (request : ChannelRef) (timeout : Int) (now : Nat) :
    Aside s (s.startTimer request timeout now) := by
  rcases startTimer_cases s request timeout now with hsame | ⟨id, -, hadded⟩
  · rw [hsame]
    exact .refl s
  · rw [hadded]
    exact setObject_aside s id (o := { s.objects id with timer := some s.timersMade })
      ⟨.refl (s.objects id).conn, rfl, fun h => h⟩

theorem epollMod_aside (s : Worker) (request : ChannelRef) (timeout : Int) (now : Nat) (ctlOk : Bool) :
    Aside s (s.epollMod request timeout now ctlOk) := by
  have hnoted := (startTimer_aside s request timeout now).trans (noteEvents_aside _ request)
  rw [epollMod_eq]
  dsimp only
  split_ifs
  · exact hnoted
  · exact hnoted.trans (epollCtl_aside _ _ _ _)

theorem epollAdd_aside (s : Worker) (request : ChannelRef) (timeout : Int) (now : Nat) (ctlOk : Bool) :
    Aside s (s.epollAdd request timeout now ctlOk) := by
  have hstarted := (startTimer_aside s request timeout now).trans
    (setSlots_aside _ (s.chan request).fd request)
  rw [epollAdd_eq]
  exact (hstarted.trans (noteEvents_aside _ request)).trans (epollCtl_aside _ _ _ _)

theorem newEvent_aside (s : Worker) (id now : Nat) (ctlOk : Bool) : Aside s (s.newEvent id now ctlOk) := by
  have hset : Aside s (s.setConn id { (s.objects id).conn with chan.events := DEFAULT_EVENT }) :=
    setConn_aside s id ⟨rfl, rfl⟩ rfl
  have hadd := epollAdd_aside (s.setConn id { (s.objects id).conn with chan.events := DEFAULT_EVENT })
    (.http id) DEFAULT_EXPIRED_TIME now ctlOk
  exact (hset.trans hadd).trans (setObject_aside _ id ⟨.refl _, rfl, fun h => h⟩)

theorem clearTimer_aside (s : Worker) (id : Nat) : Aside s (s.clearTimer id) := by
  rcases clearTimer_cases s id with ⟨-, hsame⟩ | ⟨nid, node, -, -, hcleared⟩
  · rw [hsame]
    exact .refl s
  · have hunlinked : Aside s (s.setObject id { s.objects id with timer := none }) :=
      setObject_aside s id ⟨.refl (s.objects id).conn, rfl, fun h => h⟩
    rw [hcleared]
    exact hunlinked.trans (.release (by rfl) _)

theorem handleClose_aside (s : Worker) (id : Nat) (ctlOk : Bool) : Aside s (s.handleClose id ctlOk) := by
  have hset : Aside s (s.setConn id { (s.objects id).conn with http.connectionState := .disconnected }) :=
    setConn_aside s id ⟨rfl, rfl⟩ rfl
  have hmark (t : Worker) : Aside t (t.setObject id { t.objects id with removed := true }) :=
    setObject_aside t id ⟨.refl (t.objects id).conn, rfl, fun _ => rfl⟩
  unfold handleClose epollDel resetSlots
  dsimp only
  split_ifs
  · exact (hset.trans (hmark _)).trans (.release (by rfl) _)
  · exact (hset.trans (hmark _)).trans (.release (by rfl) _)

theorem dropTimer_aside (s : Worker) (nid : Nat) (node : TimerNode) (ctlOk : Bool) :
    Aside s (s.dropTimer nid node ctlOk) := by
  unfold dropTimer
  split
  · rename_i id _
    exact (handleClose_aside s id ctlOk).trans (.release (by rfl) (some id))
  · exact .refl s

theorem foldl_release_aside (ids : List Nat) (s : Worker) : Aside s (ids.foldl release s) := by
  induction ids generalizing s with
  | nil => exact .refl s
  | cons id ids ih => exact (release_aside s id).trans (ih (s.release id))

theorem getEventsReqeust_aside (events : List (Nat × EventMask)) (s : Worker) :
    Aside s (getEventsReqeust events s) := by
  refine getEventsReqeust_rule (P := Aside s) (fun t request revents h => ?_) events (.refl s)
  have hset : Aside t (t.found request revents) := setChan_aside t request _
  exact h.trans hset

theorem handleWakeup_aside (s : Worker) (io : Io) : Aside s (s.handleWakeup io) :=
  handleWakeup_rule (fun _ _ _ h => h) (fun t h => h.trans (epollMod_aside t .wakeup 0 io.now io.ctlOk))
    (.refl s)

/-- The events of another connection. -/
theorem handleEvents_other {id j : Nat} (hj : j ≠ id) (hs : Serving j s s) (io : Io) :
    Safe Unharmed (fun u => Unseen (s.objects id) (u.objects id)) (s.handleEvents io (.http j)) := by
  have hset (t : Worker) (c : Conn) := t.setConn_other hj.symm c
  refine handleEvents_rule (P := fun u => Unseen (s.objects id) (u.objects id)) hs
    (fun t c _ h _ => (hset t c).symm ▸ h) (fun t _ h => h.trans (clearTimer_aside t j id))
    (fun t ht h => ?_) (fun _ _ h => h) ?_
  · have hconn : Unseen (s.objects id) ((t.setConn j (handleConn (t.objects j).conn)).objects id) :=
      (hset t _).symm ▸ h
    have hseparated : Unseen (s.objects id) ((t.separated j).objects id) :=
      hconn.trans (clearTimer_aside _ j id)
    rcases callback_handleConn_cases io ht with ⟨-, hrun⟩ | ⟨timeout, -, -, hrun⟩ | ⟨-, hrun⟩
    all_goals rw [hrun]
    · exact hseparated
    · exact hseparated.trans (epollMod_aside _ (.http j) timeout io.now io.ctlOk id)
    · exact hseparated.trans (handleClose_aside _ j io.ctlOk id)
  · have hmeet : (s.meet j io).objects id = s.objects id := hset s _
    have hclear : ((s.meet j io).clearEvents (.http j)).objects id = (s.meet j io).objects id :=
      hset (s.meet j io) _
    rw [hclear, hmeet]
    exact .refl (s.objects id)

/-- `handleClose` has removed the connection: from the tables, and from the kernel's if `epoll_ctl` did. -/
structure Gone (s : Worker) (id : Nat) (ctlOk : Bool) : Prop where
  removed : (s.objects id).removed = true
  state : (s.objects id).conn.http.connectionState = .disconnected
  chanSlot : s.fd2chan.get (s.objects id).conn.chan.fd = none
  slot : s.fd2http.get (s.objects id).conn.chan.fd = none
  interest : ctlOk = true → s.interest (s.objects id).conn.chan.fd = none

theorem handleClose_gone (s : Worker) (id : Nat) (ctlOk : Bool) : (s.handleClose id ctlOk).Gone id ctlOk := by
  obtain ⟨hchan, hhttp⟩ := handleClose_tables s id ctlOk
  refine ⟨handleClose_removed s id ctlOk, by rw [handleClose_conn], hchan, hhttp, ?_⟩
  rintro rfl
  exact (handleClose_removes s id).interest

theorem setConn_conn (s : Worker) (id : Nat) (c : Conn) : ((s.setConn id c).objects id).conn = c := by
  simp only [setConn_self]

/-- A handler before `handleConn`, by what it does to the connection. -/
theorem callback_conn {P R : Conn → Prop} {id : Nat} (io : Io) {handler : Conn → Except Fault Conn}
    (htame : ∀ c c', handler c = .ok c' → Tame c c') (hhandler : ∀ c c', P c → handler c = .ok c' → R c')
    (h : Serving id s t) (hP : P (t.objects id).conn) :
    Safe Unharmed (fun u => Serving id s u ∧ R (u.objects id).conn) (callback id io handler t) := by
  refine callback_leads (P := fun u => R (u.objects id).conn) io htame (fun c hrun _ => ?_)
    (fun u _ hu => ?_) h
  · rw [setConn_conn]
    exact hhandler _ c hP hrun
  · rw [clearTimer_conn]
    exact hu

/-- The end of `handleEvents`: a connection in error is removed. -/
theorem handleConn_progress {id : Nat} {c : Conn} (io : Io) (h : Serving id s t)
    (ht : Progress c (t.objects id).conn) :
    Safe Unharmed (fun u => Progress c (u.objects id).conn ∧
        ((u.objects id).conn.http.error = true → u.Gone id io.ctlOk))
      (callback id io (fun c => .ok (handleConn c)) t) := by
  have hseparated : ((t.separated id).objects id).conn = handleConn (t.objects id).conn := by
    rw [separated, clearTimer_conn, setConn_conn]
  obtain ⟨hmute, herror⟩ := handleConn_mute (t.objects id).conn
  have hprogress : Progress c ((t.separated id).objects id).conn := hseparated ▸ ht.mute hmute herror
  have haside {u : Worker} (hu : Aside (t.separated id) u) : Progress c (u.objects id).conn :=
    hprogress.mute (hu id).mute (hu id).error
  -- In error the calls of `handleConn` end with `handleClose`.
  have hopen {u : Worker} (hu : Aside (t.separated id) u)
      (hcalls : (handleConn (t.objects id).conn).calls ≠
        (t.objects id).conn.calls ++ [.clearTimer, .handleClose]) :
      (u.objects id).conn.http.error = true → u.Gone id io.ctlOk := by
    intro hfailed
    rw [(hu id).error, hseparated, herror] at hfailed
    exact absurd (congrArg Conn.calls (handleConn_refused hfailed)) hcalls
  rcases callback_handleConn_cases io h with ⟨hcalls, hrun⟩ | ⟨timeout, -, hcalls, hrun⟩ | ⟨-, hrun⟩
  all_goals rw [hrun]
  · refine ⟨hprogress, hopen (.refl _) ?_⟩
    rw [hcalls]
    simp
  · have hmod := epollMod_aside (t.separated id) (.http id) timeout io.now io.ctlOk
    refine ⟨haside hmod, hopen hmod ?_⟩
    rw [hcalls]
    simp
  · exact ⟨haside (handleClose_aside _ id io.ctlOk), fun _ => handleClose_gone _ id io.ctlOk⟩

/-- In the midst of `handleEvents`, before the first handler. -/
structure Unbroken (id : Nat) (c : Conn) (s t : Worker) : Prop where
  serving : Serving id s t
  writes : Writes c (t.objects id).conn
  error : (t.objects id).conn.http.error = false

theorem Unbroken.setConn {id : Nat} {c d : Conn} (h : Unbroken id c s t) (hd : Tame (t.objects id).conn d)
    (hmute : Mute (t.objects id).conn d) (herror : d.http.error = (t.objects id).conn.http.error) :
    Unbroken id c s (t.setConn id d) := by
  refine ⟨h.serving.setConn hd.httpFd hd.chanFd, ?_, ?_⟩
  · rw [setConn_conn]
    exact h.writes.mute hmute
  · rw [setConn_conn]
    exact herror.trans h.error

theorem Unbroken.clearEvents {id : Nat} {c : Conn} (h : Unbroken id c s t) :
    Unbroken id c s (t.clearEvents (.http id)) := h.setConn (clearEvents_tame _) ⟨rfl, rfl⟩ rfl

/-- **One `handleEvents`** of a connection that is not in error: if it is afterwards, it is removed. -/
theorem handleEvents_progress {id : Nat} {c : Conn} (hs : Unbroken id c s s) (io : Io) :
    Safe Unharmed (fun u => Progress c (u.objects id).conn ∧
        ((u.objects id).conn.http.error = true → u.Gone id io.ctlOk))
      (s.handleEvents io (.http id)) := by
  have hmeet : Unbroken id c s (s.meet id io) := hs.setConn (meet_tame _ io) ⟨rfl, rfl⟩ rfl
  unfold handleEvents
  refine handleEvents_steps (P := Unbroken id c s)
    (R := fun t => Serving id s t ∧ Progress c (t.objects id).conn)
    (fun _ t ht => ?_) (fun _ t ht => ⟨ht.serving, Or.inl ht.writes⟩) (fun t ht => ?_)
    (fun t ht => handleConn_progress io ht.1 ht.2) (fun _ t ht => ?_) hmeet.clearEvents
  · exact callback_conn (P := fun d => Writes c d ∧ d.http.error = false) io (fun _ _ => handleRead_tame)
      (fun d e hd hrun => handleRead_progress hd.1 hd.2 hrun) ht.serving ⟨ht.writes, ht.error⟩
  · refine callback_conn io (fun d e hrun => ?_) (fun d e hd hrun => ?_) ht.1 ht.2
    · cases hrun
      exact handleWrite_tame d
    · cases hrun
      exact Progress.write hd
  · have hend := ht.clearEvents
    exact ⟨Or.inl hend.writes, fun hfailed => absurd (hend.error.symm.trans hfailed) (by decide)⟩

theorem getEventsReqeust_made (events : List (Nat × EventMask)) (s : Worker) :
    (getEventsReqeust events s).made = s.made :=
  getEventsReqeust_rule (P := fun t => t.made = s.made)
    (fun t request revents h => ((found_frame t request revents).made).trans h) events rfl

/-- No step undoes a connection, and one that is not `handleEvents` of the connection goes on beside it. -/
theorem step_aside {a : WorkerStep} {id : Nat} (hs : s.Sound) (hid : id < s.made)
    (hstep : s.step a = some t) : id < t.made ∧ (Unseen (s.objects id) (t.objects id) ∨
      ∃ io rest u, a = .handle io ∧ s.ready = .http id :: rest ∧ Serving id s s ∧
        s.handleEvents io (.http id) = .ok u ∧ t = { u with ready := rest }) := by
  cases a with
  | accept fd =>
      obtain ⟨-, -, rfl⟩ := accept_cases hstep
      have hother := s.handNewConn_other hid.ne fd
      exact ⟨Nat.lt_succ_of_lt hid, Or.inl (hother.symm ▸ .refl (s.objects id))⟩
  | acceptorReleases j =>
      obtain ⟨-, rfl⟩ := acceptorReleases_cases hstep
      have hmade := (release_frame { s with acceptors := s.acceptors.erase j } j).made
      exact ⟨hmade.symm ▸ hid, Or.inl (release_aside { s with acceptors := s.acceptors.erase j } j id)⟩
  | poll events =>
      obtain ⟨-, -, rfl⟩ := poll_cases hstep
      have hmade := getEventsReqeust_made events { s with ready := [] }
      exact ⟨hmade.symm ▸ hid, Or.inl (getEventsReqeust_aside events { s with ready := [] } id)⟩
  | handle io =>
      obtain ⟨request, rest, u, -, hready, hslot, hrun, rfl⟩ := handle_cases hs hstep
      have hserved := handleEvents_served hs.inv hslot io
      rw [hrun] at hserved
      refine ⟨hserved.frame.made.symm ▸ hid, ?_⟩
      cases request with
      | wakeup =>
          have hu : u = s.handleWakeup io := (Except.ok.inj hrun).symm
          exact Or.inl (hu ▸ handleWakeup_aside s io id)
      | http j =>
          have hserving : Serving j s s := ⟨hs.inv, (hs.inv.paired _ j).mp hslot, .refl [] s⟩
          by_cases hj : j = id
          · subst hj
            exact Or.inr ⟨io, rest, u, rfl, hready, hserving, hrun, rfl⟩
          · have hother := handleEvents_other hj hserving io
            rw [hrun] at hother
            exact Or.inl hother
  | swapFunctors =>
      obtain ⟨-, -, rfl⟩ := swapFunctors_cases hstep
      exact ⟨hid, Or.inl (.refl (s.objects id))⟩
  | functor now ctlOk =>
      obtain ⟨j, -, -, rfl⟩ := functor_cases hstep
      exact ⟨(newEvent_frame s j now ctlOk).made.symm ▸ hid, Or.inl (newEvent_aside s j now ctlOk id)⟩
  | endFunctors =>
      obtain ⟨-, rfl⟩ := endFunctors_cases hstep
      have hmade := (foldl_release_calm s.functors { s with functors := [] }).2.made
      exact ⟨hmade.symm ▸ hid, Or.inl (foldl_release_aside s.functors { s with functors := [] } id)⟩
  | sweep nid now ctlOk =>
      obtain ⟨node, -, -, -, ⟨-, rfl⟩ | ⟨-, rfl⟩⟩ := sweep_cases hstep
      · obtain ⟨touched, hframe⟩ := dropTimer_frame s nid node ctlOk
        exact ⟨hframe.made.symm ▸ hid, Or.inl (dropTimer_aside s nid node ctlOk id)⟩
      · exact ⟨hid, Or.inl (.refl (s.objects id))⟩
  | endSweep =>
      obtain ⟨-, -, rfl⟩ := endSweep_cases hstep
      exact ⟨hid, Or.inl (.refl (s.objects id))⟩

/-- The connection was made, has done no more than one that was `c` before may do, and is removed if it is
in error. -/
structure Answered (c : Conn) (id : Nat) (s : Worker) : Prop where
  sound : s.Sound
  tidy : s.Tidy s.uncalled
  made : id < s.made
  progress : Progress c (s.objects id).conn
  removed : (s.objects id).conn.http.error = true → (s.objects id).removed = true

/-- A connection that was removed is not served. -/
theorem Answered.unserved {c : Conn} {id : Nat} (h : Answered c id s) (hserving : Serving id s s) :
    (s.objects id).conn.http.error = false := by
  by_contra hfailed
  exact (h.tidy.retired id (h.removed (by simpa using hfailed))).1 hserving.slot

theorem step_answered {c : Conn} {id : Nat} {a : WorkerStep} (h : Answered c id s) (hstep : s.step a = some t) :
    Answered c id t := by
  have hsound := step_sound h.sound hstep
  have htidy := (step_counted h.sound h.tidy hstep).tidy
  obtain ⟨hmade, hunseen | ⟨io, rest, u, rfl, hready, hserving, hrun, rfl⟩⟩ := step_aside h.sound h.made hstep
  · refine ⟨hsound, htidy, hmade, h.progress.mute hunseen.mute hunseen.error, fun hfailed => ?_⟩
    exact hunseen.removed (h.removed (hunseen.error ▸ hfailed))
  · have herror := h.unserved hserving
    have hend := handleEvents_progress ⟨hserving, h.progress.writes herror, herror⟩ io
    rw [hrun] at hend
    exact ⟨hsound, htidy, hmade, hend.1, fun hfailed => (hend.2 hfailed).removed⟩

/-- After the error nothing is written, and there is no error response. -/
theorem step_over {c : Conn} {id : Nat} {a : WorkerStep} (h : Answered c id s)
    (hfailed : (s.objects id).conn.http.error = true) (hstep : s.step a = some t) :
    Unseen (s.objects id) (t.objects id) := by
  obtain ⟨-, hunseen | ⟨io, rest, u, -, -, hserving, -⟩⟩ := step_aside h.sound h.made hstep
  · exact hunseen
  · exact absurd ((h.unserved hserving).symm.trans hfailed) (by decide)

theorem setConn_answered {id : Nat} {c : Conn} (hsound : s.Sound) (htidy : s.Tidy s.uncalled)
    (hid : id < s.made) (hhttp : c.http.fd = (s.objects id).conn.http.fd)
    (hchan : c.chan.fd = (s.objects id).conn.chan.fd) (herror : c.http.error = false) :
    Answered c id (s.setConn id c) := by
  have hframe : Frame [] s (s.setConn id c) := setObject_frame s id hchan
  refine ⟨⟨(setConn_same s id hhttp hchan).inv hsound.inv, hsound.polled.frame hframe, hsound.unharmed⟩,
    setConn_tidy htidy hchan, hid, ?_, fun hfailed => ?_⟩
  · rw [setConn_conn]
    exact Or.inl .refl
  · rw [setConn_conn, herror] at hfailed
    cases hfailed

/-- **One error response, and nothing after it.** Whatever the fields of a connection of a running server
but its error flag, from there on `handleError` is called at most once; it is the last to write. After the
error nothing is written. The step in which the connection comes to be in error is its `handleEvents`, and
removes it from the poller. -/
theorem run_oneError {wakeupFd : Nat} {ctlOk : Bool} {as bs : List WorkerStep} {id : Nat} {c : Conn}
    (hstart : Run step (fun _ _ => True) (created wakeupFd ctlOk) as s) (hid : id < s.made)
    (hhttp : c.http.fd = (s.objects id).conn.http.fd) (hchan : c.chan.fd = (s.objects id).conn.chan.fd)
    (herror : c.http.error = false) (hrun : Run step (fun _ _ => True) (s.setConn id c) bs t) :
    (t.objects id).conn.errors ≤ c.errors + 1 ∧
      ((t.objects id).conn.errors = c.errors + 1 → (t.objects id).conn.http.error = true ∧
        ∃ m e errNum shortMsg, Writes c m ∧ handleError m errNum shortMsg = .ok e ∧
          (t.objects id).conn.sock.sent = e.sock.sent) ∧
      ((t.objects id).conn.http.error = true → ∀ cs u, Run step (fun _ _ => True) t cs u →
        Mute (t.objects id).conn (u.objects id).conn) ∧
      (∀ a v, t.step a = some v → (t.objects id).conn.http.error = false →
        (v.objects id).conn.http.error = true →
          ∃ io rest, a = .handle io ∧ t.ready = .http id :: rest ∧ v.Gone id io.ctlOk) := by
  have hs := run_sound hstart
  have ht : Answered c id t := hrun.invariant (fun _ _ _ _ hstep h => step_answered h hstep)
    (setConn_answered hs (run_counted hstart).1 hid hhttp hchan herror)
  refine ⟨ht.progress.errors_le, fun honce => ?_, fun hfailed cs u hrest => ?_, fun a v hstep hopen hfailed => ?_⟩
  · rcases ht.progress with hwrites | ⟨hfailed, hrefused⟩
    · rw [hwrites.errors] at honce
      omega
    · exact ⟨hfailed, hrefused.last⟩
  · have hkept : Answered c id u ∧ Unseen (t.objects id) (u.objects id) :=
      hrest.invariant (I := fun u => Answered c id u ∧ Unseen (t.objects id) (u.objects id))
        (fun _ _ _ _ hstep h => ⟨step_answered h.1 hstep,
          h.2.trans (step_over h.1 (h.2.error.trans hfailed) hstep)⟩) ⟨ht, .refl (t.objects id)⟩
    exact hkept.2.mute
  · obtain ⟨-, hunseen | ⟨io, rest, u, rfl, hready, hserving, hevents, rfl⟩⟩ := step_aside ht.sound ht.made hstep
    · rw [hunseen.error, hopen] at hfailed
      cases hfailed
    · have hend := handleEvents_progress ⟨hserving, ht.progress.writes hopen, hopen⟩ io
      rw [hevents] at hend
      exact ⟨io, rest, rfl, hready, { hend.2 hfailed with }⟩

set_option maxRecDepth 4000 in
/-- A read fails: there is one error response. -/
theorem run_oneError_read :
    ∃ t : Worker, (t.objects 0).conn.errors = 1 ∧ (t.objects 0).conn.http.error = true ∧
      ∀ cs u, Run step (fun _ _ => True) t cs u → (u.objects 0).conn.errors = 1 := by
  have hbegun : ∃ s : Worker, exec (checked step fun _ _ => True) (created 3 true)
        [.accept 5, .poll [(3, EPOLLIN)], .handle ⟨someHost, [], [], 0, true⟩, .swapFunctors,
          .functor 0 true, .endFunctors, .sweep 0 1 true] = some s ∧
      s.made = 1 ∧ (s.objects 0).conn.http.error = false ∧ (s.objects 0).conn.errors = 0 ∧
      (exec (checked step fun _ _ => True) (s.setConn 0 (s.objects 0).conn)
        [.poll [(5, EPOLLIN)], .handle ⟨someHost, [.error], [], 2, true⟩]).map
          (fun t => ((t.objects 0).conn.errors, (t.objects 0).conn.http.error)) = some (1, true) :=
    ⟨_, rfl, rfl, rfl, rfl, by decide +kernel⟩
  obtain ⟨s, hs, hmade, herror, hnone, hexec⟩ := hbegun
  obtain ⟨t, ht, hends⟩ := Option.map_eq_some_iff.mp hexec
  obtain ⟨hone, hfailed⟩ : _ ∧ _ := by simpa only [Prod.mk.injEq] using hends
  obtain ⟨-, -, hover, -⟩ := run_oneError (run_of_exec_checked hs) (hmade ▸ Nat.one_pos) rfl rfl herror
    (run_of_exec_checked ht)
  exact ⟨t, hone, hfailed, fun cs u hrest => (hover hfailed cs u hrest).errors.trans hone⟩

end Worker

end WebServer
