import WebServer.EpollLifetime

/-! The kernel's side of the poller: a descriptor registered with `EPOLLONESHOT` is disarmed by an event,
until the next `EPOLL_CTL_ADD` or `EPOLL_CTL_MOD`. `epoll_mod` makes no call where the events it was last
called with are asked for again; what it would have asked for is then what the kernel has. -/

namespace WebServer

open Runs Stages

/-- The kernel's entry for a descriptor. -/
structure Registration where
  mask : EventMask
  armed : Bool
  deriving DecidableEq

/-- A call of `epoll_mod` that has skipped `epoll_ctl`: the events asked for, and the kernel's entry. -/
structure Skip where
  events : EventMask
  registration : Option Registration
  deriving DecidableEq

/-- What an `EPOLL_CTL_MOD` that succeeds leaves for the events. -/
def Registration.modified (events : EventMask) : Registration := ⟨events, true⟩

/-- The worker, and the descriptors that the kernel has disarmed. -/
structure Armory where
  worker : Worker
  disarmed : Nat → Bool
  skips : List Skip

namespace Armory

def registration (a : Armory) (fd : Nat) : Option Registration :=
  (a.worker.interest fd).map fun mask => ⟨mask, !a.disarmed fd⟩

def arm (a : Armory) (fd : Nat) : Armory := { a with disarmed := Function.update a.disarmed fd false }

/-- An event of the descriptor is reported. -/
def report (a : Armory) (fd : Nat) : Armory :=
  match a.worker.interest fd with
  | some mask =>
      if mask.has EPOLLONESHOT then { a with disarmed := Function.update a.disarmed fd true } else a
  | none => a

/-- The kernel's part in `epoll_mod`. -/
def noteMod (a : Armory) (request : ChannelRef) (ctlOk : Bool) : Armory :=
  let ch := a.worker.chan request
  if ch.equalAndUpdateLastEvents.1 then { a with skips := a.skips ++ [⟨ch.events, a.registration ch.fd⟩] }
  else if ctlOk then a.arm ch.fd
  else a

def epollMod (a : Armory) (request : ChannelRef) (timeout : Int) (now : Nat) (ctlOk : Bool) : Armory :=
  { a.noteMod request ctlOk with worker := a.worker.epollMod request timeout now ctlOk }

def clearEvents (a : Armory) (request : ChannelRef) : Armory :=
  { a with worker := a.worker.clearEvents request }

def call (id : Nat) (io : Io) (a : Armory) (k : Call) : Except LoopFault Armory :=
  (Worker.call id io a.worker k).map fun w =>
    match k with
    | .updatePoller _ => { a.noteMod (.http id) io.ctlOk with worker := w }
    | _ => { a with worker := w }

def callback (id : Nat) (io : Io) (handler : Conn → Except Fault Conn) (a : Armory) :
    Except LoopFault Armory :=
  if a.worker.Live id then
    match handler (a.worker.objects id).conn with
    | .ok c =>
        (c.calls.drop (a.worker.objects id).conn.calls.length).foldlM (call id io)
          { a with worker := a.worker.setConn id c }
    | .error f => .error (.handler f)
  else .error .destroyed

def handleWakeup (a : Armory) (io : Io) : Armory :=
  Id.run (WebServer.handleEvents (m := Id) a.worker.wakeupChannel.revents (clearEvents · .wakeup)
    (fun a => { a with worker := { a.worker with wakeupChannel.events := EventLoop.wakeupEvents } }) id
    (fun a => a.epollMod .wakeup 0 io.now io.ctlOk) a)

def handleEvents (a : Armory) (io : Io) : ChannelRef → Except LoopFault Armory
  | .wakeup => .ok (a.handleWakeup io)
  | .http id =>
      WebServer.handleEvents (a.worker.objects id).conn.chan.revents (clearEvents · (.http id))
        (callback id io (handleRead io.host)) (callback id io fun c => .ok (handleWrite c))
        (callback id io fun c => .ok (handleConn c)) { a with worker := a.worker.meet id io }

def handle (a : Armory) (io : Io) : Option Armory :=
  match a.worker.pc, a.worker.ready with
  | .dispatch, request :: rest =>
      match a.handleEvents io request with
      | .ok b => some { b with worker := { b.worker with ready := rest } }
      | .error .destroyed => some { a with worker := { a.worker with ready := rest, misuse := true } }
      | .error (.handler _) => none
  | _, _ => none

/-- The functor adds its connection, whose descriptor is armed if `epoll_ctl` succeeds. -/
def functor (a : Armory) (now : Nat) (ctlOk : Bool) : Option Armory :=
  (a.worker.functor now ctlOk).map fun w =>
    match a.worker.functors[a.worker.called]? with
    | some id =>
        if ctlOk then { a.arm (a.worker.chan (.http id)).fd with worker := w } else { a with worker := w }
    | none => { a with worker := w }

def step (a : Armory) : WorkerStep → Option Armory
  | .poll events => (a.worker.poll events).map fun w =>
      { (events.map Prod.fst).foldl report a with worker := w }
  | .handle io => a.handle io
  | .functor now ctlOk => a.functor now ctlOk
  | l => (a.worker.step l).map fun w => { a with worker := w }

def created (wakeupFd : Nat) (ctlOk : Bool) : Armory :=
  ⟨Worker.created wakeupFd ctlOk, fun _ => false, []⟩

variable {a b : Armory}

theorem call_worker (id : Nat) (io : Io) (a : Armory) (k : Call) :
    (call id io a k).map Armory.worker = Worker.call id io a.worker k := by
  unfold call
  cases Worker.call id io a.worker k with
  | error f => rfl
  | ok w => cases k <;> rfl

theorem calls_worker (id : Nat) (io : Io) (ks : List Call) (a : Armory) :
    (ks.foldlM (call id io) a).map Armory.worker = ks.foldlM (Worker.call id io) a.worker := by
  induction ks generalizing a with
  | nil => rfl
  | cons k ks ih =>
      rw [List.foldlM_cons, List.foldlM_cons, ← call_worker]
      exact map_bind ih

theorem callback_worker (id : Nat) (io : Io) (handler : Conn → Except Fault Conn) (a : Armory) :
    (callback id io handler a).map Armory.worker = Worker.callback id io handler a.worker := by
  unfold callback Worker.callback
  split_ifs
  · cases handler (a.worker.objects id).conn with
    | error f => rfl
    | ok c => exact calls_worker id io _ _
  · rfl

theorem handleWakeup_worker (a : Armory) (io : Io) :
    (a.handleWakeup io).worker = a.worker.handleWakeup io := by
  unfold handleWakeup Worker.handleWakeup WebServer.handleEvents
  simp only []
  split_ifs <;> rfl

theorem handleEvents_worker (a : Armory) (io : Io) (request : ChannelRef) :
    (a.handleEvents io request).map Armory.worker = a.worker.handleEvents io request := by
  cases request with
  | wakeup => exact congrArg Except.ok (handleWakeup_worker a io)
  | http id =>
      unfold handleEvents Worker.handleEvents
      dsimp only
      refine handleEvents_map ?_ ?_ ?_ ?_ _
      · exact fun _ => rfl
      all_goals exact callback_worker id io _

theorem foldl_report_worker (fds : List Nat) (a : Armory) : (fds.foldl report a).worker = a.worker := by
  induction fds generalizing a with
  | nil => rfl
  | cons fd fds ih =>
      rw [List.foldl_cons, ih, report]
      split
      · split_ifs <;> rfl
      · rfl

theorem handle_worker {io : Io} (hstep : a.handle io = some b) : a.worker.handle io = some b.worker := by
  unfold handle at hstep
  split at hstep
  · rename_i request rest hpc hready
    have hrun := handleEvents_worker a io request
    split at hstep
    · rename_i c hc
      cases hstep
      rw [hc] at hrun
      simp only [Worker.handle, hpc, hready, ← hrun]
      rfl
    · rename_i hc
      cases hstep
      rw [hc] at hrun
      simp only [Worker.handle, hpc, hready, ← hrun]
      rfl
    · cases hstep
  · cases hstep

/-- The steps of the machine are those of the worker. -/
theorem step_worker {l : WorkerStep} (hstep : a.step l = some b) : a.worker.step l = some b.worker := by
  cases l with
  | handle io => exact handle_worker hstep
  | functor now ctlOk =>
      obtain ⟨w, hw, rfl⟩ := Option.map_eq_some_iff.mp hstep
      apply hw.trans
      split
      · split_ifs <;> rfl
      · rfl
  | _ =>
      obtain ⟨w, hw, rfl⟩ := Option.map_eq_some_iff.mp hstep
      exact hw

end Armory

/-! ### The masks of the entries -/

namespace Worker

variable {s t u : Worker}

/-- The entries of the table are those of before, with the same last events and the same mask in the
kernel, but for those of the descriptors `touched`. -/
def Intact (touched : List Nat) (s t : Worker) : Prop :=
  ∀ fd, fd ∉ touched → ∀ request, t.fd2chan.get fd = some request →
    s.fd2chan.get fd = some request ∧ (t.chan request).lastEvents = (s.chan request).lastEvents ∧
      t.interest fd = s.interest fd

theorem Intact.refl (touched : List Nat) (s : Worker) : Intact touched s s :=
  fun _ _ _ h => ⟨h, rfl, rfl⟩

theorem Intact.trans {touched : List Nat} (h : Intact touched s t) (h' : Intact touched t u) :
    Intact touched s u := by
  intro fd hfd request hentry
  obtain ⟨hmid, hlast', hinterest'⟩ := h' fd hfd request hentry
  obtain ⟨hold, hlast, hinterest⟩ := h fd hfd request hmid
  exact ⟨hold, hlast'.trans hlast, hinterest'.trans hinterest⟩

theorem Intact.of_nil {touched : List Nat} (h : Intact [] s t) : Intact touched s t :=
  fun fd _ => h fd List.not_mem_nil

/-- A descriptor without an entry may be touched. -/
theorem Intact.of_none {fd : Nat} (h : Intact [fd] s t) (hnone : t.fd2chan.get fd = none) :
    Intact [] s t := by
  intro k _ request hentry
  refine h k ?_ request hentry
  rw [List.mem_singleton]
  rintro rfl
  rw [hnone] at hentry
  cases hentry

theorem setObject_intact (s : Worker) (id : Nat) {o : HttpObject}
    (hlast : o.conn.chan.lastEvents = (s.objects id).conn.chan.lastEvents) :
    Intact [] s (s.setObject id o) := by
  intro fd _ request hentry
  refine ⟨hentry, ?_, rfl⟩
  cases request with
  | wakeup => rfl
  | http j =>
      by_cases hj : j = id
      · subst hj
        simpa only [chan, setObject_self] using hlast
      · simp only [chan, setObject_other _ hj]

theorem setChan_intact (s : Worker) (request : ChannelRef) {ch : Channel}
    (hlast : ch.lastEvents = (s.chan request).lastEvents) : Intact [] s (s.setChan request ch) := by
  cases request with
  | wakeup =>
      intro fd _ request hentry
      refine ⟨hentry, ?_, rfl⟩
      cases request with
      | wakeup => exact hlast
      | http id => rfl
  | http id => exact setObject_intact s id hlast

/-- A connection about to go has no entry but its own. -/
def OwnEntry (s : Worker) (id : Nat) : Prop :=
  ∀ request, s.fd2chan.get (s.objects id).conn.http.fd = some request →
    s.fd2http.get (s.objects id).conn.http.fd = some id

theorem Inv.ownEntry (hs : s.Inv) {id : Nat} (hid : s.Live id) : s.OwnEntry id := by
  intro request hentry
  have hfd := hs.sameFd id
  cases request with
  | wakeup => exact absurd ((hs.wakeupSlot _ hentry).trans hfd).symm (hs.foreign id hid)
  | http j =>
      have hslot := (hs.paired _ j).mp hentry
      rw [hfd] at hslot ⊢
      obtain rfl := hs.slot_eq hid hslot
      exact hslot

theorem release_intact {id : Nat} (hown : s.OwnEntry id) : Intact [] s (s.release id) := by
  unfold release
  split_ifs with howned
  · exact .refl [] s
  · intro fd _ request hentry
    have hset := setObject_intact s id (o := { s.objects id with destroyed := true }) rfl
    obtain ⟨hold, hlast, -⟩ := hset fd List.not_mem_nil request hentry
    refine ⟨hold, hlast, Function.update_of_ne ?_ _ _⟩
    rintro rfl
    exact howned (Or.inl ⟨_, Table.mem_toList.mpr (hown request hold), rfl⟩)

theorem releaseOption_intact {o : Option Nat} (hown : ∀ id, o = some id → s.OwnEntry id) :
    Intact [] s (s.releaseOption o) := by
  cases o with
  | none => exact .refl [] s
  | some id => exact release_intact (hown id rfl)

theorem resetSlots_intact (hs : s.Inv) (fd : Nat) : Intact [] s (s.resetSlots fd) := by
  have hreset : Intact [] s { s with fd2chan := s.fd2chan.reset fd, fd2http := s.fd2http.reset fd } := by
    intro k _ request hentry
    refine ⟨?_, rfl, rfl⟩
    by_cases hk : k = fd
    · simp [hk] at hentry
    · rwa [Table.get_reset_of_ne _ hk] at hentry
  refine hreset.trans (releaseOption_intact fun id hid request hentry => ?_)
  have hfd : (s.objects id).conn.http.fd = fd := (hs.sameFd id).trans (hs.slots fd id hid).2
  rw [hfd] at hentry
  simp at hentry

theorem setInterest_intact (s : Worker) (fd : Nat) (mask : Option EventMask) :
    Intact [fd] s { s with interest := Function.update s.interest fd mask } :=
  fun _ hk _ hentry => ⟨hentry, rfl, Function.update_of_ne (List.ne_of_not_mem_cons hk) _ _⟩

theorem epollCtl_intact (hs : s.Inv) (fd : Nat) (events : EventMask) (ctlOk : Bool) :
    Intact [fd] s (s.epollCtl fd events ctlOk) := by
  unfold epollCtl
  split_ifs
  · exact setInterest_intact s fd _
  · exact (resetSlots_intact hs fd).of_nil

theorem setChan_chan (s : Worker) (request : ChannelRef) (ch : Channel) :
    (s.setChan request ch).chan request = ch ∧
      ∀ r, r ≠ request → (s.setChan request ch).chan r = s.chan r := by
  cases request with
  | wakeup =>
      refine ⟨rfl, fun r hr => ?_⟩
      cases r with
      | wakeup => exact absurd rfl hr
      | http id => rfl
  | http id =>
      refine ⟨?_, fun r hr => ?_⟩
      · simp only [chan, setChan, setConn_self]
      · cases r with
        | wakeup => rfl
        | http j =>
            have hj : j ≠ id := fun h => hr (congrArg ChannelRef.http h)
            simp only [chan, setChan, setConn_other _ hj]

/-- The last events are those of the entry of the channel's own descriptor. -/
theorem noteEvents_intact (hs : s.Inv) (request : ChannelRef) :
    Intact [(s.chan request).fd] s (s.noteEvents request) := by
  intro fd hfd r hentry
  have hframe := noteEvents_frame s request
  rw [hframe.fd2chan fd List.not_mem_nil] at hentry
  have hr : r ≠ request := by
    rintro rfl
    exact hfd (List.mem_singleton.mpr (hs.slot_fd hentry).symm)
  refine ⟨hentry, congrArg Channel.lastEvents ((setChan_chan s request _).2 r hr), ?_⟩
  cases request <;> rfl

theorem noteEvents_lastEvents (s : Worker) (request : ChannelRef) :
    ((s.noteEvents request).chan request).lastEvents = (s.chan request).events :=
  congrArg Channel.lastEvents (setChan_chan s request _).1

theorem addTimer_intact (s : Worker) (id : Nat) (timeout : Int) (now : Nat) :
    Intact [] s (s.addTimer id timeout now) := by
  have h := setObject_intact s id (o := { s.objects id with timer := some s.timersMade }) rfl
  exact h

/-- A timer leaves the channels as they are. -/
theorem startTimer_intact (hs : s.Inv) (request : ChannelRef) (timeout : Int) (now : Nat) :
    (s.startTimer request timeout now).Inv ∧ Intact [] s (s.startTimer request timeout now) ∧
      ∀ r, (s.startTimer request timeout now).chan r = s.chan r := by
  rcases startTimer_cases s request timeout now with hsame | ⟨id, hid, hadded⟩
  · rw [hsame]
    exact ⟨hs, .refl [] s, fun _ => rfl⟩
  · rw [hadded]
    refine ⟨addTimer_inv hs hid timeout now, addTimer_intact s id timeout now, fun r => ?_⟩
    cases r with
    | wakeup => rfl
    | http j =>
        by_cases hj : j = id
        · subst hj
          simp only [chan, addTimer_self]
        · simp only [chan, addTimer_other _ hj]

theorem clearTimer_conn (s : Worker) (id : Nat) :
    ((s.clearTimer id).objects id).conn = (s.objects id).conn := by
  rcases clearTimer_cases s id with ⟨-, hsame⟩ | ⟨nid, node, -, -, hcleared⟩
  · rw [hsame]
  · rw [hcleared]
    obtain ⟨b, hb⟩ := releaseOption_object { s.setObject id { s.objects id with timer := none } with
      timers := _ } _ id
    rw [hb]
    simp only [setObject_self]

theorem clearTimer_intact (hs : s.Inv) (id : Nat) : Intact [] s (s.clearTimer id) := by
  rcases clearTimer_cases s id with ⟨-, hsame⟩ | ⟨nid, node, -, hget, hcleared⟩
  · rw [hsame]
    exact .refl [] s
  have hunlinked := setObject_intact s id (o := { s.objects id with timer := none }) rfl
  rw [hcleared]
  refine Intact.trans hunlinked (releaseOption_intact fun j hj request hentry => ?_)
  have hconn : (Function.update s.objects id { s.objects id with timer := none } j).conn =
      (s.objects j).conn := by
    by_cases hne : j = id
    · subst hne
      rw [Function.update_self]
    · rw [Function.update_of_ne hne]
  simp only [setObject, hconn] at hentry ⊢
  exact hs.ownEntry (hs.holders nid node j hget hj) request hentry

/-- `handleClose` touches the descriptor of its connection, and leaves it no entry. -/
theorem handleClose_intact (hs : s.Inv) (id : Nat) (ctlOk : Bool) : Intact [] s (s.handleClose id ctlOk) := by
  have hset : Intact [] s (s.setConn id { (s.objects id).conn with http.connectionState := .disconnected }) :=
    setObject_intact s id rfl
  have hsame : SameRefs s (s.setConn id
      { (s.objects id).conn with http.connectionState := .disconnected }) := setConn_same s id rfl rfl
  have hinv := hsame.inv hs
  unfold handleClose
  generalize s.setConn id { (s.objects id).conn with http.connectionState := .disconnected } = t at hset hinv
  have hmark : Intact [] t (t.setObject id { t.objects id with removed := true }) := setObject_intact t id rfl
  have hmarked : (t.setObject id { t.objects id with removed := true }).Inv := by
    refine SameRefs.inv ?_ hinv
    exact setObject_same t id ⟨rfl, rfl, rfl, fun _ => rfl⟩ (fun _ h => Or.inl h) fun h => Or.inl h
  have hnone : (t.epollDel id ctlOk).fd2chan.get (t.chan (.http id)).fd = none := by
    unfold epollDel
    exact (resetSlots_get _ _).1
  refine Intact.of_none ((hset.trans hmark).of_nil.trans ?_) hnone
  unfold epollDel
  dsimp only
  split_ifs
  · exact (setInterest_intact _ _ none).trans (resetSlots_intact (setInterest_inv hmarked _) _).of_nil
  · exact (resetSlots_intact hmarked _).of_nil

theorem dropTimer_intact (hs : s.Inv) {nid : Nat} {node : TimerNode} (hnode : s.timers.get nid = some node)
    (ctlOk : Bool) : Intact [] s (s.dropTimer nid node ctlOk) := by
  unfold dropTimer
  cases hdata : node.requestData with
  | none => exact .refl [] s
  | some id =>
      have hid := hs.holders nid node id hnode hdata
      have hclosed := handleClose_intact hs id ctlOk
      have hinv := handleClose_inv hs hid ctlOk
      have hkept := (congrArg (·.get nid) (handleClose_timers s id ctlOk)).trans hnode
      have hlive := hinv.holders nid node id hkept hdata
      exact Intact.trans hclosed (release_intact (hinv.ownEntry hlive))

theorem getEventsReqeust_intact (events : List (Nat × EventMask)) (s : Worker) :
    Intact [] s (getEventsReqeust events s) := by
  refine getEventsReqeust_rule (P := Intact [] s) (fun t request revents h => ?_) events (.refl [] s)
  have hlast : { t.chan request with revents := revents, events := 0 }.lastEvents =
      (t.chan request).lastEvents := rfl
  have hset : Intact [] t (t.found request revents) := setChan_intact t request hlast
  exact h.trans hset

/-- A new connection has no entry yet. -/
theorem handNewConn_intact (hs : s.Inv) (fd : Nat) : Intact [] s (s.handNewConn fd) := by
  intro k _ request hentry
  have hold : s.fd2chan.get k = some request := hentry
  refine ⟨hold, ?_, rfl⟩
  cases request with
  | wakeup => rfl
  | http id =>
      have hne : id ≠ s.made := (hs.slots k id ((hs.paired k id).mp hold)).1.1.ne
      simp only [chan, handNewConn_other _ hne]

theorem foldl_release_intact {ids : List Nat} (hown : ∀ id ∈ ids, s.OwnEntry id) :
    Intact [] s (ids.foldl release s) := by
  induction ids generalizing s with
  | nil => exact .refl [] s
  | cons id ids ih =>
      refine (release_intact (hown id List.mem_cons_self)).trans (ih fun j hj request hentry => ?_)
      have hframe := release_frame s id
      obtain ⟨destroyed, hobject⟩ := releaseOption_object s (some id) j
      rw [releaseOption] at hobject
      rw [hobject, hframe.fd2chan _ List.not_mem_nil] at hentry
      rw [hobject, hframe.fd2http _ List.not_mem_nil]
      exact hown j (List.mem_cons_of_mem id hj) request hentry

/-! ### What the kernel was told -/

/-- The kernel has the last events of each channel that has an entry; a disarmed one was registered for
one event. -/
def Masks (disarmed : Nat → Bool) (s : Worker) : Prop :=
  ∀ fd request, s.fd2chan.get fd = some request → s.interest fd = some (s.chan request).lastEvents ∧
    (disarmed fd = true → (s.chan request).lastEvents.has EPOLLONESHOT)

theorem Intact.masks {disarmed : Nat → Bool} (h : Intact [] s t) (hs : s.Masks disarmed) :
    t.Masks disarmed := by
  intro fd request hentry
  obtain ⟨hold, hlast, hinterest⟩ := h fd List.not_mem_nil request hentry
  rw [hinterest, hlast]
  exact hs fd request hold

/-- Where one descriptor is touched, its entry is to be looked at. -/
theorem Intact.masks_at {disarmed disarmed' : Nat → Bool} {fd : Nat} (h : Intact [fd] s t)
    (hs : s.Masks disarmed) (hdisarmed : ∀ k, k ≠ fd → disarmed' k = disarmed k)
    (hfd : ∀ request, t.fd2chan.get fd = some request → t.interest fd = some (t.chan request).lastEvents ∧
      disarmed' fd = false) : t.Masks disarmed' := by
  intro k request hentry
  by_cases hk : k = fd
  · subst hk
    obtain ⟨hinterest, harmed⟩ := hfd request hentry
    exact ⟨hinterest, fun h => by rw [harmed] at h; cases h⟩
  · obtain ⟨hold, hlast, hinterest⟩ := h k (by simpa using hk) request hentry
    rw [hinterest, hlast, hdisarmed k hk]
    exact hs k request hold

/-- A call of `epoll_ctl` for the channel that has the entry, after which nothing else was touched. -/
theorem epollCtl_masks {disarmed : Nat → Bool} (hmasks : u.Masks disarmed) (hs : s.Inv)
    (request : ChannelRef) (ctlOk : Bool) (hbefore : Intact [(s.chan request).fd] u s)
    (hentry : s.fd2chan.get (s.chan request).fd = some request) :
    ((s.noteEvents request).epollCtl (s.chan request).fd (s.chan request).events ctlOk).Masks
      (if ctlOk then Function.update disarmed (s.chan request).fd false else disarmed) := by
  have hnoted := noteEvents_intact hs request
  have hinv := (noteEvents_same s request).inv hs
  have htouched := (hbefore.trans hnoted).trans
    (epollCtl_intact hinv (s.chan request).fd (s.chan request).events ctlOk)
  cases ctlOk with
  | false =>
      have hnone : ((s.noteEvents request).epollCtl (s.chan request).fd (s.chan request).events
          false).fd2chan.get (s.chan request).fd = none := (resetSlots_get _ _).1
      exact (htouched.of_none hnone).masks hmasks
  | true =>
      apply htouched.masks_at hmasks (fun k hk => Function.update_of_ne hk _ _)
      intro r hr
      have hr' : (s.noteEvents request).fd2chan.get (s.chan request).fd = some r := hr
      rw [(noteEvents_frame s request).fd2chan _ List.not_mem_nil, hentry] at hr'
      obtain rfl := Option.some.inj hr'
      refine ⟨(Function.update_self _ _ _).trans ?_, Function.update_self _ _ _⟩
      exact congrArg some (noteEvents_lastEvents s request).symm

/-- `epoll_mod` where the events are others than the last ones. -/
theorem epollMod_masks {disarmed : Nat → Bool} (hs : s.Inv) (hmasks : s.Masks disarmed)
    {request : ChannelRef} (hentry : s.fd2chan.get (s.chan request).fd = some request) (timeout : Int)
    (now : Nat) (ctlOk : Bool)
    (hother : ((s.chan request).lastEvents == (s.chan request).events) = false) :
    (s.epollMod request timeout now ctlOk).Masks
      (if ctlOk then Function.update disarmed (s.chan request).fd false else disarmed) := by
  obtain ⟨hinv, hintact, hchan⟩ := startTimer_intact hs request timeout now
  have hframe := startTimer_frame s request timeout now
  have hstarted : (s.startTimer request timeout now).fd2chan.get
      ((s.startTimer request timeout now).chan request).fd = some request := by
    rw [hchan, hframe.fd2chan _ List.not_mem_nil]
    exact hentry
  have hctl := epollCtl_masks hmasks hinv request ctlOk hintact.of_nil hstarted
  have hnot : ¬ ((s.chan request).lastEvents == (s.chan request).events) = true := by simp [hother]
  rw [epollMod_eq]
  dsimp only
  rw [hchan] at hctl ⊢
  rw [if_neg hnot]
  exact hctl

/-- `epoll_mod` where they are the same: the kernel has them, and has not disarmed the descriptor if they
are for more than one event. -/
theorem epollMod_skip {disarmed : Nat → Bool} (hs : s.Inv) (hmasks : s.Masks disarmed)
    {request : ChannelRef} (hentry : s.fd2chan.get (s.chan request).fd = some request)
    (hplain : (s.chan request).events.Plain) (timeout : Int) (now : Nat) (ctlOk : Bool)
    (hsame : ((s.chan request).lastEvents == (s.chan request).events) = true) :
    (s.epollMod request timeout now ctlOk).Masks disarmed ∧
      s.interest (s.chan request).fd = some (s.chan request).events ∧
        disarmed (s.chan request).fd = false := by
  obtain ⟨hinv, hintact, hchan⟩ := startTimer_intact hs request timeout now
  have heq : (s.chan request).lastEvents = (s.chan request).events := beq_iff_eq.mp hsame
  obtain ⟨hinterest, hdisarmed⟩ := hmasks _ request hentry
  rw [heq] at hinterest hdisarmed
  refine ⟨?_, hinterest, ?_⟩
  · have hnoted : Intact [] _ ((s.startTimer request timeout now).noteEvents request) :=
      setChan_intact _ request (by rw [hchan]; exact heq.symm)
    rw [epollMod_eq]
    dsimp only
    rw [hchan, if_pos hsame]
    exact (hintact.trans hnoted).masks hmasks
  · cases harmed : disarmed (s.chan request).fd with
    | false => rfl
    | true => exact absurd (hdisarmed harmed) hplain

theorem setSlots_intact (hs : s.Inv) {id : Nat} (hid : s.Live id) :
    Intact [(s.objects id).conn.chan.fd] s (s.setSlots (s.objects id).conn.chan.fd (.http id)) := by
  rw [setSlots_eq hs hid]
  intro fd hfd request hentry
  exact ⟨(Table.get_set_of_ne _ (List.ne_of_not_mem_cons hfd) _).symm.trans hentry, rfl, rfl⟩

theorem epollAdd_masks {disarmed : Nat → Bool} (hs : s.Inv) (hmasks : s.Masks disarmed) {id : Nat}
    (hid : s.Live id) {timeout : Int} (htimeout : 0 < timeout) (now : Nat) (ctlOk : Bool) :
    (s.epollAdd (.http id) timeout now ctlOk).Masks
      (if ctlOk then Function.update disarmed (s.chan (.http id)).fd false else disarmed) := by
  obtain ⟨-, hintact, hchan⟩ := startTimer_intact hs (.http id) timeout now
  have ht := addTimer_timed hs hid timeout now
  rw [startTimer_live hid htimeout] at hintact hchan
  have hfd : (s.chan (.http id)).fd = ((s.addTimer id timeout now).objects id).conn.chan.fd :=
    (congrArg Channel.fd (hchan (.http id))).symm
  rw [epollAdd_eq, startTimer_live hid htimeout, hfd]
  generalize s.addTimer id timeout now = t at ht hintact
  have hslots := setSlots_intact ht.inv ht.live
  have hinv := setSlots_inv ht.inv ht.live
  have heq := setSlots_eq ht.inv ht.live
  have hsame : (t.setSlots (t.objects id).conn.chan.fd (.http id)).chan (.http id) =
      (t.objects id).conn.chan := by
    rw [heq]
    rfl
  have hentry : (t.setSlots (t.objects id).conn.chan.fd (.http id)).fd2chan.get
      (t.objects id).conn.chan.fd = some (.http id) := by
    rw [heq]
    exact Table.get_set_self _ _ _
  have hctl := epollCtl_masks hmasks hinv (.http id) ctlOk
  rw [hsame] at hctl
  dsimp only
  rw [hsame]
  exact hctl (hintact.of_nil.trans hslots) hentry

/-- `newEvent` adds the connection to the poller. -/
theorem newEvent_masks {disarmed : Nat → Bool} (hs : s.Inv) (hmasks : s.Masks disarmed) {id : Nat}
    (hid : s.Live id) (now : Nat) (ctlOk : Bool) :
    (s.newEvent id now ctlOk).Masks
      (if ctlOk then Function.update disarmed (s.chan (.http id)).fd false else disarmed) := by
  have hset : Intact [] s (s.setConn id { (s.objects id).conn with chan.events := DEFAULT_EVENT }) :=
    setObject_intact s id rfl
  have hsame : SameRefs s (s.setConn id { (s.objects id).conn with chan.events := DEFAULT_EVENT }) :=
    setConn_same s id rfl rfl
  have hframe : Frame [] s (s.setConn id { (s.objects id).conn with chan.events := DEFAULT_EVENT }) :=
    setObject_frame s id rfl
  have hadded := epollAdd_masks (hsame.inv hs) (hset.masks hmasks) ((hsame.live id).mpr hid)
    (show 0 < DEFAULT_EXPIRED_TIME by decide) now ctlOk
  rw [hframe.fds (.http id)] at hadded
  refine Intact.masks ?_ hadded
  exact setObject_intact _ id rfl

end Worker

namespace Armory

variable {a b : Armory}

/-- The masks are known, and every call of `epoll_ctl` that was skipped would have changed nothing. -/
structure Sane (a : Armory) : Prop where
  masks : a.worker.Masks a.disarmed
  skips : ∀ k ∈ a.skips, k.registration = some (.modified k.events)

theorem Sane.worker (ha : a.Sane) {w : Worker} (h : Worker.Intact [] a.worker w) :
    Sane { a with worker := w } := ⟨h.masks ha.masks, ha.skips⟩

theorem epollMod_sane (ha : a.Sane) (hs : a.worker.Inv) (request : ChannelRef)
    (hentry : a.worker.fd2chan.get (a.worker.chan request).fd = some request)
    (hplain : (a.worker.chan request).events.Plain) (timeout : Int) (now : Nat) (ctlOk : Bool) :
    (a.epollMod request timeout now ctlOk).Sane := by
  cases hsame : (a.worker.chan request).lastEvents == (a.worker.chan request).events with
  | true =>
      obtain ⟨hmasks, hinterest, harmed⟩ :=
        Worker.epollMod_skip hs ha.masks hentry hplain timeout now ctlOk hsame
      have hnote : a.noteMod request ctlOk = { a with skips := a.skips ++
          [⟨(a.worker.chan request).events, a.registration (a.worker.chan request).fd⟩] } := if_pos hsame
      rw [epollMod, hnote]
      refine ⟨hmasks, fun k hk => ?_⟩
      rcases List.mem_append.mp hk with hk | hk
      · exact ha.skips k hk
      · obtain rfl := List.mem_singleton.mp hk
        simp [registration, hinterest, harmed, Registration.modified]
  | false =>
      have hmasks := Worker.epollMod_masks hs ha.masks hentry timeout now ctlOk hsame
      have hnot : ¬ (a.worker.chan request).equalAndUpdateLastEvents.1 = true := by
        simp [Channel.equalAndUpdateLastEvents, hsame]
      have hnote : a.noteMod request ctlOk =
          if ctlOk then a.arm (a.worker.chan request).fd else a := if_neg hnot
      rw [epollMod, hnote]
      cases ctlOk with
      | true => exact ⟨hmasks, ha.skips⟩
      | false => exact ⟨hmasks, ha.skips⟩

/-- Up to `handleConn` the connection asks for nothing that would disarm its descriptor. -/
structure Attending (id : Nat) (s : Worker) (b : Armory) : Prop where
  serving : Worker.Serving id s b.worker
  sane : b.Sane
  plain : (b.worker.objects id).conn.Plain

theorem Attending.setConn {id : Nat} {s : Worker} (h : Attending id s b) {c : Conn}
    (hhttp : c.http.fd = (b.worker.objects id).conn.http.fd)
    (hchan : c.chan.fd = (b.worker.objects id).conn.chan.fd)
    (hlast : c.chan.lastEvents = (b.worker.objects id).conn.chan.lastEvents) (hplain : c.Plain) :
    Attending id s { b with worker := b.worker.setConn id c } := by
  refine ⟨h.serving.setConn hhttp hchan, h.sane.worker ?_, ?_⟩
  · exact Worker.setObject_intact b.worker id hlast
  · simpa only [Worker.setConn_self] using hplain

theorem Attending.clearTimer {id : Nat} {s : Worker} (h : Attending id s b) :
    Attending id s { b with worker := b.worker.clearTimer id } := by
  refine ⟨h.serving.clearTimer, h.sane.worker (Worker.clearTimer_intact h.serving.inv id), ?_⟩
  show ((b.worker.clearTimer id).objects id).conn.Plain
  rw [Worker.clearTimer_conn]
  exact h.plain

theorem call_of_live {id : Nat} (io : Io) (hlive : b.worker.Live id) (k : Call) :
    call id io b k = .ok (match k with
      | .clearTimer => { b with worker := b.worker.clearTimer id }
      | .handleError _ _ => b
      | .updatePoller timeout => b.epollMod (.http id) timeout io.now io.ctlOk
      | .handleClose => { b with worker := b.worker.handleClose id io.ctlOk }) := by
  unfold call Worker.call
  rw [if_pos hlive]
  cases k <;> rfl

theorem calls_attending {id : Nat} {s : Worker} (io : Io) {ks : List Call} (h : Attending id s b)
    (hks : ∀ k ∈ ks, k.quiet = true) :
    Safe Worker.Unharmed (Attending id s) (ks.foldlM (call id io) b) := by
  induction ks generalizing b with
  | nil => exact h
  | cons k ks ih =>
      have hk := hks k List.mem_cons_self
      have hrest : ∀ k' ∈ ks, k'.quiet = true := fun k' hk' => hks k' (List.mem_cons_of_mem k hk')
      rw [List.foldlM_cons, call_of_live io h.serving.live]
      cases k with
      | clearTimer => exact ih h.clearTimer hrest
      | handleError errNum shortMsg => exact ih h hrest
      | updatePoller timeout => cases hk
      | handleClose => cases hk

theorem callback_attending {id : Nat} {s : Worker} (io : Io) {handler : Conn → Except Fault Conn}
    (htame : ∀ c c', handler c = .ok c' → Tame c c') (h : Attending id s b) :
    Safe Worker.Unharmed (Attending id s) (callback id io handler b) := by
  rw [callback, if_pos h.serving.live]
  cases hrun : handler (b.worker.objects id).conn with
  | error f => trivial
  | ok c =>
      have hc := htame _ c hrun
      obtain ⟨new, hnew, hks⟩ := hc.calls
      simp only [hnew, List.drop_left]
      exact calls_attending io (h.setConn hc.httpFd hc.chanFd hc.lastEvents (hc.plain h.plain)) hks

theorem callback_last {id : Nat} {s : Worker} (io : Io) (h : Attending id s b) :
    Safe Worker.Unharmed Sane (callback id io (fun c => .ok (handleConn c)) b) := by
  obtain ⟨hhttp, hchan, hlast, hcalls⟩ := Worker.handleConn_calls (b.worker.objects id).conn
  have hset := h.setConn hhttp hchan hlast (handleConn_plain h.plain)
  have hseparated : Attending id s { b with worker := b.worker.separated id } := hset.clearTimer
  have hclear : call id io { b with worker := b.worker.setConn id (handleConn (b.worker.objects id).conn) }
      .clearTimer = .ok { b with worker := b.worker.separated id } := call_of_live io hset.serving.live _
  have hcallback {ks : List Call} (hks : (handleConn (b.worker.objects id).conn).calls =
      (b.worker.objects id).conn.calls ++ .clearTimer :: ks) :
      callback id io (fun c => .ok (handleConn c)) b =
        ks.foldlM (call id io) { b with worker := b.worker.separated id } := by
    rw [callback, if_pos h.serving.live]
    simp only [hks, List.drop_left, List.foldlM_cons, hclear]
    rfl
  rcases hcalls with hcalls | ⟨timeout, htimeout, hcalls⟩ | hcalls
  all_goals rw [hcallback hcalls]
  · exact hseparated.sane
  · rw [List.foldlM_cons, call_of_live io hseparated.serving.live]
    have hentry := (hseparated.serving.inv.paired _ id).mpr hseparated.serving.slot
    exact epollMod_sane hseparated.sane hseparated.serving.inv (.http id) hentry hseparated.plain timeout
      io.now io.ctlOk
  · rw [List.foldlM_cons, call_of_live io hseparated.serving.live]
    exact hseparated.sane.worker (Worker.handleClose_intact hseparated.serving.inv id io.ctlOk)

/-- The wakeup channel from handler to handler. -/
structure Woken (a : Armory) : Prop where
  sane : a.Sane
  inv : a.worker.Inv
  entry : a.worker.fd2chan.get a.worker.wakeupChannel.fd = some .wakeup
  plain : a.worker.wakeupChannel.events.Plain

/-- The wakeup channel, whose entry is in place. -/
theorem handleWakeup_sane (ha : a.Sane) (hs : a.worker.Inv)
    (hentry : a.worker.fd2chan.get a.worker.wakeupChannel.fd = some .wakeup) (io : Io) :
    (a.handleWakeup io).Sane := by
  have hset {events : EventMask} (hplain : events.Plain) {b : Armory} (hb : b.Sane) (hinv : b.worker.Inv)
      (hown : b.worker.fd2chan.get b.worker.wakeupChannel.fd = some .wakeup) :
      Woken { b with worker := { b.worker with wakeupChannel.events := events } } := by
    have hfd : { b.worker.wakeupChannel with events := events }.fd = (b.worker.chan .wakeup).fd := rfl
    have hlast : { b.worker.wakeupChannel with events := events }.lastEvents =
        (b.worker.chan .wakeup).lastEvents := rfl
    exact ⟨hb.worker (Worker.setChan_intact b.worker .wakeup hlast),
      (Worker.setChan_same b.worker .wakeup hfd).inv hinv, hown, hplain⟩
  have hzero : EventMask.Plain 0 := EventMask.not_zero_has _
  refine handleEvents_run (P := Woken) ?_ ?_ ?_ ?_ ?_ (hset hzero ha hs hentry)
  · exact fun b hb => hset hzero hb.sane hb.inv hb.entry
  · exact fun b hb => hset (by decide) hb.sane hb.inv hb.entry
  · exact fun _ hb => hb
  · exact fun b hb => epollMod_sane hb.sane hb.inv .wakeup hb.entry hb.plain 0 io.now io.ctlOk
  · exact fun _ hb => hb.sane

theorem handleEvents_sane (ha : a.Sane) (hs : a.worker.Inv) {request : ChannelRef}
    (hslot : a.worker.fd2chan.get (a.worker.chan request).fd = some request) (io : Io) :
    Safe Worker.Unharmed Sane (a.handleEvents io request) := by
  cases request with
  | wakeup => exact handleWakeup_sane ha hs hslot io
  | http id =>
      have hstart : Worker.Serving id a.worker a.worker := ⟨hs, (hs.paired _ id).mp hslot, .refl [] _⟩
      have hmeet : Worker.Serving id a.worker (a.worker.meet id io) := by
        refine hstart.setConn ?_ ?_
        · rfl
        · rfl
      have hclear {b : Armory} (hserving : Worker.Serving id a.worker b.worker) (hb : b.Sane) :
          Attending id a.worker (b.clearEvents (.http id)) := by
        refine ⟨hserving.setConn ?_ ?_, hb.worker ?_, ?_⟩
        · rfl
        · rfl
        · exact Worker.setChan_intact b.worker (.http id) rfl
        · simp only [clearEvents, Worker.clearEvents, Worker.setChan, Worker.setConn, Worker.setObject,
            Function.update_self]
          exact EventMask.not_zero_has _
      have hmet : Sane { a with worker := a.worker.meet id io } := by
        apply ha.worker
        exact Worker.setObject_intact a.worker id rfl
      unfold handleEvents
      refine handleEvents_safe (P := Attending id a.worker) ?_ ?_ ?_ ?_ (hclear hmeet hmet)
      · exact fun b hb => callback_attending io (fun _ _ => handleRead_tame) hb
      · refine fun b hb => callback_attending io (fun c c' h => ?_) hb
        cases h
        exact handleWrite_tame c
      · exact fun b hb => callback_last io hb
      · exact fun _ b hb => (hclear hb.serving hb.sane).sane

/-! ### The steps of the machine -/

theorem handle_sane (ha : a.Sane) (hs : a.worker.Sound) {io : Io} (hstep : a.handle io = some b) :
    b.Sane := by
  unfold handle at hstep
  split at hstep
  · rename_i request rest hpc hready
    have hslot := hs.polled.slots request (hready ▸ List.mem_cons_self)
    have hend := handleEvents_sane ha hs.inv hslot io
    split at hstep
    · rename_i c hrun
      cases hstep
      rw [hrun] at hend
      have hc : Sane c := hend
      exact ⟨hc.masks, hc.skips⟩
    · rename_i hrun
      rw [hrun] at hend
      exact hend.elim
    · cases hstep
  · cases hstep

/-- A descriptor is disarmed if it was registered for one event. -/
theorem report_sane (ha : a.Sane) (fd : Nat) : (a.report fd).Sane := by
  unfold report
  cases hinterest : a.worker.interest fd with
  | none => exact ha
  | some mask =>
      dsimp only
      split_ifs with honce
      · refine ⟨fun k request hentry => ?_, ha.skips⟩
        obtain ⟨hmask, hdisarmed⟩ := ha.masks k request hentry
        refine ⟨hmask, fun h => ?_⟩
        by_cases hk : k = fd
        · subst hk
          obtain rfl := Option.some.inj (hinterest.symm.trans hmask)
          exact honce
        · exact hdisarmed (by simpa only [Function.update_of_ne hk] using h)
      · exact ha

theorem poll_sane (ha : a.Sane) {events : List (Nat × EventMask)} (hstep : a.step (.poll events) = some b) :
    b.Sane := by
  obtain ⟨w, hw, rfl⟩ := Option.map_eq_some_iff.mp hstep
  have hreported (fds : List Nat) {c : Armory} (hc : c.Sane) : (fds.foldl report c).Sane := by
    induction fds generalizing c with
    | nil => exact hc
    | cons fd fds ih => exact ih (report_sane hc fd)
  obtain ⟨-, -, rfl⟩ := Worker.poll_cases hw
  have hend := hreported (events.map Prod.fst) ha
  have hfound := Worker.getEventsReqeust_intact events { a.worker with ready := [] }
  have hmasks : a.worker.Masks ((events.map Prod.fst).foldl report a).disarmed := by
    have h := hend.masks
    rwa [foldl_report_worker] at h
  exact ⟨hfound.masks hmasks, hend.skips⟩

theorem functor_sane (ha : a.Sane) (hs : a.worker.Sound) {now : Nat} {ctlOk : Bool}
    (hstep : a.functor now ctlOk = some b) : b.Sane := by
  obtain ⟨w, hw, rfl⟩ := Option.map_eq_some_iff.mp hstep
  obtain ⟨id, -, hget, rfl⟩ := Worker.functor_cases hw
  have hid := hs.inv.refs id (Or.inl (List.mem_of_getElem? hget))
  have hmasks := Worker.newEvent_masks hs.inv ha.masks hid now ctlOk
  simp only [hget]
  cases ctlOk with
  | true => exact ⟨hmasks, ha.skips⟩
  | false => exact ⟨hmasks, ha.skips⟩

/-- **A step keeps the masks known.** -/
theorem step_sane (ha : a.Sane) (hs : a.worker.Sound) {l : WorkerStep} (hstep : a.step l = some b) :
    b.Sane := by
  cases l with
  | poll events => exact poll_sane ha hstep
  | handle io => exact handle_sane ha hs hstep
  | functor now ctlOk => exact functor_sane ha hs hstep
  | accept fd =>
      obtain ⟨w, hw, rfl⟩ := Option.map_eq_some_iff.mp hstep
      obtain ⟨-, -, rfl⟩ := Worker.accept_cases hw
      exact ha.worker (Worker.handNewConn_intact hs.inv fd)
  | acceptorReleases id =>
      obtain ⟨w, hw, rfl⟩ := Option.map_eq_some_iff.mp hstep
      obtain ⟨hid, rfl⟩ := Worker.acceptorReleases_cases hw
      have hown := hs.inv.ownEntry (hs.inv.refs id (Or.inr (Or.inr hid)))
      refine ha.worker (Worker.Intact.trans ?_ (Worker.release_intact hown))
      exact Worker.Intact.refl [] a.worker
  | swapFunctors =>
      obtain ⟨w, hw, rfl⟩ := Option.map_eq_some_iff.mp hstep
      obtain ⟨-, -, rfl⟩ := Worker.swapFunctors_cases hw
      exact ⟨ha.masks, ha.skips⟩
  | endFunctors =>
      obtain ⟨w, hw, rfl⟩ := Option.map_eq_some_iff.mp hstep
      obtain ⟨-, rfl⟩ := Worker.endFunctors_cases hw
      have hown (id : Nat) (hid : id ∈ a.worker.functors) :
          Worker.OwnEntry { a.worker with functors := [] } id := hs.inv.ownEntry (hs.inv.refs id (Or.inl hid))
      exact ha.worker (Worker.foldl_release_intact hown)
  | sweep nid now ctlOk =>
      obtain ⟨w, hw, rfl⟩ := Option.map_eq_some_iff.mp hstep
      obtain ⟨node, -, hnode, -, ⟨-, rfl⟩ | ⟨-, rfl⟩⟩ := Worker.sweep_cases hw
      · exact ha.worker (Worker.dropTimer_intact hs.inv hnode ctlOk)
      · exact ⟨ha.masks, ha.skips⟩
  | endSweep =>
      obtain ⟨w, hw, rfl⟩ := Option.map_eq_some_iff.mp hstep
      obtain ⟨-, -, rfl⟩ := Worker.endSweep_cases hw
      exact ⟨ha.masks, ha.skips⟩

theorem created_sane (wakeupFd : Nat) (ctlOk : Bool) : (created wakeupFd ctlOk).Sane := by
  refine ⟨fun fd request hentry => ?_, by simp [created]⟩
  obtain ⟨rfl, rfl⟩ := (Worker.created_tables wakeupFd ctlOk fd).2 request hentry
  refine ⟨?_, fun h => by cases h⟩
  cases ctlOk with
  | true => exact Function.update_self _ _ _
  | false =>
      have hnone : (created wakeupFd false).worker.fd2chan.get wakeupFd = none := Table.get_reset_self _ _
      rw [hnone] at hentry
      cases hentry

theorem run_sane {wakeupFd : Nat} {ctlOk : Bool} {as : List WorkerStep}
    (hrun : Run step (fun _ _ => True) (created wakeupFd ctlOk) as b) : b.Sane := by
  have hend := hrun.invariant (I := fun b => b.worker.Sound ∧ b.Sane)
    (fun _ _ _ _ hstep hb => ⟨Worker.step_sound hb.1 (step_worker hstep), step_sane hb.2 hb.1 hstep⟩)
    ⟨Worker.created_sound wakeupFd ctlOk, created_sane wakeupFd ctlOk⟩
  exact hend.2

/-- **Skipping `epoll_ctl` is sound.** The mask last given to the kernel for a descriptor that has an entry
is the last events of its channel; and where `epoll_mod` has made no call, the kernel's entry was armed and
for the events asked for, as an `EPOLL_CTL_MOD` would have left it. -/
theorem run_masks {wakeupFd : Nat} {ctlOk : Bool} {as : List WorkerStep}
    (hrun : Run step (fun _ _ => True) (created wakeupFd ctlOk) as b) :
    (∀ fd request, b.worker.fd2chan.get fd = some request →
      b.worker.interest fd = some (b.worker.chan request).lastEvents) ∧
      ∀ k ∈ b.skips, k.registration = some (.modified k.events) := by
  obtain ⟨hmasks, hskips⟩ := run_sane hrun
  exact ⟨fun fd request hentry => (hmasks fd request hentry).1, hskips⟩

/-- The first event of a connection arms its descriptor again, the second finds it armed. -/
theorem run_masks_second :
    ∃ b : Armory, b.worker.interest 5 = some (b.worker.chan (.http 0)).lastEvents ∧
      ∃ k ∈ b.skips, k.events = EPOLLIN ||| EPOLLET ∧ k.registration = some (.modified k.events) := by
  have hexec : ∃ b : Armory, exec (checked step fun _ _ => True) (created 3 true)
      [.accept 5, .acceptorReleases 0, .poll [(3, EPOLLIN)], .handle ⟨someHost, [], [], 0, true⟩,
        .swapFunctors, .functor 0 true, .endFunctors, .sweep 0 1 true, .poll [(5, EPOLLOUT)],
        .handle ⟨someHost, [], [], 2, true⟩, .swapFunctors, .endFunctors, .sweep 0 3 true,
        .sweep 1 3 true, .poll [(5, EPOLLOUT)], .handle ⟨someHost, [], [], 4, true⟩] = some b ∧
          b.worker.fd2chan.get 5 = some (.http 0) ∧
            (b.skips.map Skip.events)[1]? = some (EPOLLIN ||| EPOLLET) :=
    ⟨_, rfl, rfl, rfl⟩
  obtain ⟨b, hb, hentry, hsecond⟩ := hexec
  obtain ⟨hmasks, hskips⟩ := run_masks (run_of_exec_checked hb)
  obtain ⟨k, hk, hevents⟩ := List.mem_map.mp (List.mem_of_getElem? hsecond)
  exact ⟨b, hmasks 5 _ hentry, k, hk, hevents, hskips k hk⟩

end Armory

end WebServer
