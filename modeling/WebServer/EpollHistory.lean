import WebServer.EpollErrors

/-! What becomes of an `HttpData` while a worker runs. Apart from its handlers, whatever the poller and the
loop do to a connection is a change of its channel, of its link to a timer node or of one of its flags. A
relation that these changes keep is kept by every step of the worker but the handlers of the connection and
its `newEvent`; if the handlers keep it too, it holds over the whole life of the connection. -/

namespace WebServer

open Runs Stages

namespace Worker

variable {R : HttpObject → HttpObject → Prop} {s t u : Worker}

/-- The changes of a connection outside its handlers. -/
structure Routine (R : HttpObject → HttpObject → Prop) : Prop where
  refl : ∀ o, R o o
  trans : ∀ {o o' o''}, R o o' → R o' o'' → R o o''
  chan : ∀ (o : HttpObject) (ch : Channel), ch.fd = o.conn.chan.fd →
    R o { o with conn := { o.conn with chan := ch } }
  disconnected : ∀ o : HttpObject, R o { o with conn := { o.conn with http.connectionState := .disconnected } }
  timer : ∀ (o : HttpObject) (timer : Option Nat), R o { o with timer := timer }
  removed : ∀ o : HttpObject, R o { o with removed := true }
  destroyed : ∀ o : HttpObject, R o { o with destroyed := true }

def Along (R : HttpObject → HttpObject → Prop) (s t : Worker) : Prop := ∀ id, R (s.objects id) (t.objects id)

section Operations

variable (hR : Routine R)
include hR

theorem Routine.along_refl (s : Worker) : Along R s s := fun id => hR.refl (s.objects id)

theorem Routine.along_trans (h : Along R s t) (h' : Along R t u) : Along R s u :=
  fun id => hR.trans (h id) (h' id)

theorem setObject_along (s : Worker) (id : Nat) {o : HttpObject} (ho : R (s.objects id) o) :
    Along R s (s.setObject id o) := by
  intro j
  by_cases hj : j = id
  · subst hj
    simpa only [setObject_self] using ho
  · simpa only [setObject_other _ hj] using hR.refl (s.objects j)

theorem setChan_along (s : Worker) (request : ChannelRef) {ch : Channel}
    (hfd : ch.fd = (s.chan request).fd) : Along R s (s.setChan request ch) := by
  cases request with
  | wakeup => exact hR.along_refl s
  | http id => exact setObject_along hR s id (hR.chan (s.objects id) ch hfd)

theorem release_along (s : Worker) (id : Nat) : Along R s (s.release id) := by
  unfold release
  split_ifs
  · exact hR.along_refl s
  · exact setObject_along hR s id (hR.destroyed (s.objects id))

/-- A change of the tables, and a reference that goes. -/
theorem releaseOption_along (hobjects : t.objects = s.objects) (o : Option Nat) :
    Along R s (t.releaseOption o) := by
  intro id
  rw [← hobjects]
  cases o with
  | none => exact hR.refl (t.objects id)
  | some j => exact release_along hR t j id

theorem noteEvents_along (s : Worker) (request : ChannelRef) : Along R s (s.noteEvents request) :=
  setChan_along hR s request rfl

theorem epollCtl_along (s : Worker) (fd : Nat) (events : EventMask) (ctlOk : Bool) :
    Along R s (s.epollCtl fd events ctlOk) := by
  unfold epollCtl
  split_ifs
  · exact hR.along_refl s
  · exact releaseOption_along hR (by rfl) _

theorem startTimer_along (s : Worker) (request : ChannelRef) (timeout : Int) (now : Nat) :
    Along R s (s.startTimer request timeout now) := by
  rcases startTimer_cases s request timeout now with hsame | ⟨id, -, hadded⟩
  · rw [hsame]
    exact hR.along_refl s
  · rw [hadded]
    exact setObject_along hR s id (hR.timer (s.objects id) (some s.timersMade))

theorem epollMod_along (s : Worker) (request : ChannelRef) (timeout : Int) (now : Nat) (ctlOk : Bool) :
    Along R s (s.epollMod request timeout now ctlOk) := by
  have hnoted := hR.along_trans (startTimer_along hR s request timeout now) (noteEvents_along hR _ request)
  rw [epollMod_eq]
  dsimp only
  split_ifs
  · exact hnoted
  · exact hR.along_trans hnoted (epollCtl_along hR _ _ _ _)

theorem epollAdd_along (s : Worker) (request : ChannelRef) (timeout : Int) (now : Nat) (ctlOk : Bool) :
    Along R s (s.epollAdd request timeout now ctlOk) := by
  have hslots : Along R (s.startTimer request timeout now)
      ((s.startTimer request timeout now).setSlots (s.chan request).fd request) :=
    releaseOption_along hR (by rfl) _
  have hstarted := hR.along_trans (startTimer_along hR s request timeout now) hslots
  rw [epollAdd_eq]
  exact hR.along_trans (hR.along_trans hstarted (noteEvents_along hR _ request)) (epollCtl_along hR _ _ _ _)

/-- `newEvent` notes that it has added the connection. -/
theorem newEvent_along (s : Worker) (id now : Nat) (ctlOk : Bool) :
    (∀ j, j ≠ id → R (s.objects j) ((s.newEvent id now ctlOk).objects j)) ∧
      ∃ o, R (s.objects id) o ∧ (s.newEvent id now ctlOk).objects id = { o with registered := true } := by
  have hset : Along R s (s.setConn id { (s.objects id).conn with chan.events := DEFAULT_EVENT }) :=
    setObject_along hR s id
      (hR.chan (s.objects id) { (s.objects id).conn.chan with events := DEFAULT_EVENT } rfl)
  have hadded := hR.along_trans hset (epollAdd_along hR _ (.http id) DEFAULT_EXPIRED_TIME now ctlOk)
  unfold newEvent
  dsimp only
  refine ⟨fun j hj => ?_, _, hadded id, setObject_self _ _ _⟩
  rw [setObject_other _ hj]
  exact hadded j

theorem clearTimer_along (s : Worker) (id : Nat) : Along R s (s.clearTimer id) := by
  rcases clearTimer_cases s id with ⟨-, hsame⟩ | ⟨nid, node, -, -, hcleared⟩
  · rw [hsame]
    exact hR.along_refl s
  · have hunlinked : Along R s (s.setObject id { s.objects id with timer := none }) :=
      setObject_along hR s id (hR.timer (s.objects id) none)
    rw [hcleared]
    exact hR.along_trans hunlinked (releaseOption_along hR (by rfl) _)

theorem handleClose_along (s : Worker) (id : Nat) (ctlOk : Bool) : Along R s (s.handleClose id ctlOk) := by
  have hset : Along R s (s.setConn id { (s.objects id).conn with http.connectionState := .disconnected }) :=
    setObject_along hR s id (hR.disconnected (s.objects id))
  have hmark (t : Worker) : Along R t (t.setObject id { t.objects id with removed := true }) :=
    setObject_along hR t id (hR.removed (t.objects id))
  unfold handleClose epollDel resetSlots
  dsimp only
  split_ifs
  · exact hR.along_trans (hR.along_trans hset (hmark _)) (releaseOption_along hR (by rfl) _)
  · exact hR.along_trans (hR.along_trans hset (hmark _)) (releaseOption_along hR (by rfl) _)

theorem dropTimer_along (s : Worker) (nid : Nat) (node : TimerNode) (ctlOk : Bool) :
    Along R s (s.dropTimer nid node ctlOk) := by
  unfold dropTimer
  split
  · rename_i id _
    exact hR.along_trans (handleClose_along hR s id ctlOk) (releaseOption_along hR (by rfl) (some id))
  · exact hR.along_refl s

theorem foldl_release_along (ids : List Nat) (s : Worker) : Along R s (ids.foldl release s) := by
  induction ids generalizing s with
  | nil => exact hR.along_refl s
  | cons id ids ih => exact hR.along_trans (release_along hR s id) (ih (s.release id))

theorem getEventsReqeust_along (events : List (Nat × EventMask)) (s : Worker) :
    Along R s (getEventsReqeust events s) := by
  refine getEventsReqeust_rule (P := Along R s) (fun t request revents h => ?_) events (hR.along_refl s)
  have hfound : Along R t (t.found request revents) := setChan_along hR t request rfl
  exact hR.along_trans h hfound

theorem handleWakeup_along (s : Worker) (io : Io) : Along R s (s.handleWakeup io) :=
  handleWakeup_rule (fun _ _ _ h => h)
    (fun t h => hR.along_trans h (epollMod_along hR t .wakeup 0 io.now io.ctlOk)) (hR.along_refl s)

/-- The events of another connection. -/
theorem handleEvents_beside {id j : Nat} (hj : j ≠ id) (hs : Serving j s s) (io : Io) :
    Safe Unharmed (fun u => R (s.objects id) (u.objects id)) (s.handleEvents io (.http j)) := by
  have hset (t : Worker) (c : Conn) := t.setConn_other hj.symm c
  refine handleEvents_rule (P := fun u => R (s.objects id) (u.objects id)) hs
    (fun t c _ h _ => (hset t c).symm ▸ h) (fun t _ h => hR.trans h (clearTimer_along hR t j id))
    (fun t ht h => ?_) (fun _ _ h => h) ?_
  · have hconn : R (s.objects id) ((t.setConn j (handleConn (t.objects j).conn)).objects id) :=
      (hset t _).symm ▸ h
    have hseparated : R (s.objects id) ((t.separated j).objects id) :=
      hR.trans hconn (clearTimer_along hR _ j id)
    rcases callback_handleConn_cases io ht with ⟨-, hrun⟩ | ⟨timeout, -, -, hrun⟩ | ⟨-, hrun⟩
    all_goals rw [hrun]
    · exact hseparated
    · exact hR.trans hseparated (epollMod_along hR _ (.http j) timeout io.now io.ctlOk id)
    · exact hR.trans hseparated (handleClose_along hR _ j io.ctlOk id)
  · have hmeet : (s.meet j io).objects id = s.objects id := hset s _
    have hclear : ((s.meet j io).clearEvents (.http j)).objects id = (s.meet j io).objects id :=
      hset (s.meet j io) _
    rw [hclear, hmeet]
    exact hR.refl (s.objects id)

/-- Its own events, where the handlers keep the relation. -/
theorem handleEvents_along {id : Nat} (htame : ∀ (o : HttpObject) c, Tame o.conn c → R o { o with conn := c })
    (hconn : ∀ o : HttpObject, R o { o with conn := handleConn o.conn }) (hs : Serving id s s) (io : Io) :
    Safe Unharmed (fun u => R (s.objects id) (u.objects id)) (s.handleEvents io (.http id)) := by
  have hset (t : Worker) {c : Conn} (hc : Tame (t.objects id).conn c)
      (h : R (s.objects id) (t.objects id)) : R (s.objects id) ((t.setConn id c).objects id) := by
    rw [setConn_self]
    exact hR.trans h (htame _ c hc)
  refine handleEvents_rule (P := fun u => R (s.objects id) (u.objects id)) hs
    (fun t c _ h hc => hset t hc h) (fun t _ h => hR.trans h (clearTimer_along hR t id id))
    (fun t ht h => ?_) (fun _ _ h => h)
    (hset _ (clearEvents_tame _) (hset s (meet_tame _ io) (hR.refl (s.objects id))))
  have hset' : R (s.objects id) ((t.setConn id (handleConn (t.objects id).conn)).objects id) := by
    rw [setConn_self]
    exact hR.trans h (hconn _)
  have hseparated : R (s.objects id) ((t.separated id).objects id) :=
    hR.trans hset' (clearTimer_along hR _ id id)
  rcases callback_handleConn_cases io ht with ⟨-, hrun⟩ | ⟨timeout, -, -, hrun⟩ | ⟨-, hrun⟩
  all_goals rw [hrun]
  · exact hseparated
  · exact hR.trans hseparated (epollMod_along hR _ (.http id) timeout io.now io.ctlOk id)
  · exact hR.trans hseparated (handleClose_along hR _ id io.ctlOk id)

/-! ### The steps of the worker -/

/-- A step goes on beside the handlers of the connection, or it is its `newEvent`, or its `handleEvents`. -/
theorem step_along {a : WorkerStep} {id : Nat} (hs : s.Sound) (hid : id < s.made)
    (hstep : s.step a = some t) :
    R (s.objects id) (t.objects id) ∨
      (∃ now ctlOk o, a = .functor now ctlOk ∧ s.functors[s.called]? = some id ∧ R (s.objects id) o ∧
        t.objects id = { o with registered := true }) ∨
      ∃ io rest u, a = .handle io ∧ s.ready = .http id :: rest ∧ Serving id s s ∧
        s.handleEvents io (.http id) = .ok u ∧ t = { u with ready := rest } := by
  cases a with
  | accept fd =>
      obtain ⟨-, -, rfl⟩ := accept_cases hstep
      have hother := s.handNewConn_other hid.ne fd
      exact Or.inl (hother.symm ▸ hR.refl (s.objects id))
  | acceptorReleases j =>
      obtain ⟨-, rfl⟩ := acceptorReleases_cases hstep
      exact Or.inl (release_along hR { s with acceptors := s.acceptors.erase j } j id)
  | poll events =>
      obtain ⟨-, -, rfl⟩ := poll_cases hstep
      exact Or.inl (getEventsReqeust_along hR events { s with ready := [] } id)
  | handle io =>
      obtain ⟨request, rest, u, -, hready, hslot, hrun, rfl⟩ := handle_cases hs hstep
      cases request with
      | wakeup =>
          have hu : u = s.handleWakeup io := (Except.ok.inj hrun).symm
          exact Or.inl (hu ▸ handleWakeup_along hR s io id)
      | http j =>
          have hserving : Serving j s s := ⟨hs.inv, (hs.inv.paired _ j).mp hslot, .refl [] s⟩
          by_cases hj : j = id
          · subst hj
            exact Or.inr (Or.inr ⟨io, rest, u, rfl, hready, hserving, hrun, rfl⟩)
          · have hother := handleEvents_beside hR hj hserving io
            rw [hrun] at hother
            exact Or.inl hother
  | swapFunctors =>
      obtain ⟨-, -, rfl⟩ := swapFunctors_cases hstep
      exact Or.inl (hR.refl (s.objects id))
  | functor now ctlOk =>
      obtain ⟨j, -, hget, rfl⟩ := functor_cases hstep
      obtain ⟨hother, o, ho, hself⟩ := newEvent_along hR s j now ctlOk
      by_cases hj : j = id
      · subst hj
        exact Or.inr (Or.inl ⟨now, ctlOk, o, rfl, hget, ho, hself⟩)
      · exact Or.inl (hother id fun h => hj h.symm)
  | endFunctors =>
      obtain ⟨-, rfl⟩ := endFunctors_cases hstep
      exact Or.inl (foldl_release_along hR s.functors { s with functors := [] } id)
  | sweep nid now ctlOk =>
      obtain ⟨node, -, -, -, ⟨-, rfl⟩ | ⟨-, rfl⟩⟩ := sweep_cases hstep
      · exact Or.inl (dropTimer_along hR s nid node ctlOk id)
      · exact Or.inl (hR.refl (s.objects id))
  | endSweep =>
      obtain ⟨-, -, rfl⟩ := endSweep_cases hstep
      exact Or.inl (hR.refl (s.objects id))

end Operations

/-- A relation that the handlers and `newEvent` keep as well. -/
structure Lifelong (R : HttpObject → HttpObject → Prop) : Prop extends Routine R where
  tame : ∀ (o : HttpObject) c, Tame o.conn c → R o { o with conn := c }
  handleConn : ∀ o : HttpObject, R o { o with conn := handleConn o.conn }
  registered : ∀ o : HttpObject, R o { o with registered := true }

/-- No step undoes a connection. -/
theorem step_made {a : WorkerStep} (hs : s.Sound) (hstep : s.step a = some t) : s.made ≤ t.made := by
  rcases Nat.eq_zero_or_pos s.made with hzero | hpos
  · omega
  · have hlast : s.made - 1 < t.made := (step_aside hs (by omega) hstep).1
    omega

theorem step_lifelong (hR : Lifelong R) {a : WorkerStep} {id : Nat} (hs : s.Sound) (hid : id < s.made)
    (hstep : s.step a = some t) : R (s.objects id) (t.objects id) := by
  rcases step_along hR.toRoutine hs hid hstep with halong | ⟨now, ctlOk, o, -, -, ho, hself⟩ |
    ⟨io, rest, u, -, -, hserving, hrun, rfl⟩
  · exact halong
  · rw [hself]
    exact hR.trans ho (hR.registered o)
  · have hend := handleEvents_along hR.toRoutine hR.tame hR.handleConn hserving io
    rw [hrun] at hend
    exact hend

theorem run_lifelong (hR : Lifelong R) {as : List WorkerStep} {id : Nat} (hs : s.Sound) (hid : id < s.made)
    (hrun : Run step (fun _ _ => True) s as t) : R (s.objects id) (t.objects id) := by
  have hkept : t.Sound ∧ id < t.made ∧ R (s.objects id) (t.objects id) :=
    hrun.invariant (I := fun u => u.Sound ∧ id < u.made ∧ R (s.objects id) (u.objects id))
      (fun _ _ _ _ hstep ⟨hu, hlt, h⟩ => ⟨step_sound hu hstep, hlt.trans_le (step_made hu hstep),
        hR.trans h (step_lifelong hR hu hlt hstep)⟩) ⟨hs, hid, hR.refl _⟩
  exact hkept.2.2

/-- A connection keeps its descriptor, and what has happened to it has happened for good. -/
structure Ages (o o' : HttpObject) : Prop where
  httpFd : o'.conn.http.fd = o.conn.http.fd
  chanFd : o'.conn.chan.fd = o.conn.chan.fd
  registered : o.registered = true → o'.registered = true
  removed : o.removed = true → o'.removed = true
  destroyed : o.destroyed = true → o'.destroyed = true

theorem ages_lifelong : Lifelong Ages where
  refl := fun _ => ⟨rfl, rfl, fun h => h, fun h => h, fun h => h⟩
  trans := fun h h' => ⟨h'.httpFd.trans h.httpFd, h'.chanFd.trans h.chanFd,
    fun ho => h'.registered (h.registered ho), fun ho => h'.removed (h.removed ho),
    fun ho => h'.destroyed (h.destroyed ho)⟩
  chan := fun _ _ hfd => ⟨rfl, hfd, fun h => h, fun h => h, fun h => h⟩
  disconnected := fun _ => ⟨rfl, rfl, fun h => h, fun h => h, fun h => h⟩
  timer := fun _ _ => ⟨rfl, rfl, fun h => h, fun h => h, fun h => h⟩
  removed := fun _ => ⟨rfl, rfl, fun h => h, fun _ => rfl, fun h => h⟩
  destroyed := fun _ => ⟨rfl, rfl, fun h => h, fun h => h, fun _ => rfl⟩
  tame := fun _ _ hc => ⟨hc.httpFd, hc.chanFd, fun h => h, fun h => h, fun h => h⟩
  handleConn := fun o => by
    obtain ⟨hhttp, hchan, -⟩ := handleConn_calls o.conn
    exact ⟨hhttp, hchan, fun h => h, fun h => h, fun h => h⟩
  registered := fun _ => ⟨rfl, rfl, fun _ => rfl, fun h => h, fun h => h⟩

/-- The connection whose `newEvent` the step calls. -/
def begins (s : Worker) : WorkerStep → List Nat
  | .functor _ _ => s.functors[s.called]?.toList
  | _ => []

/-- The connection the step makes. -/
def arrivals (s : Worker) : WorkerStep → List Nat
  | .accept _ => [s.made]
  | _ => []

/-- `newEvent` is called for a connection by its functor. -/
theorem step_registered {a : WorkerStep} {id : Nat} (hs : s.Sound) (hid : id < s.made)
    (hstep : s.step a = some t) :
    (t.objects id).registered = true ↔ (s.objects id).registered = true ∨ id ∈ s.begins a := by
  have hR : Routine fun o o' => o'.registered = o.registered :=
    ⟨fun _ => rfl, fun h h' => h'.trans h, fun _ _ _ => rfl, fun _ => rfl, fun _ _ => rfl, fun _ => rfl,
      fun _ => rfl⟩
  have hbegins (now : Nat) (ctlOk : Bool) : id ∈ s.begins (.functor now ctlOk) ↔
      s.functors[s.called]? = some id := Option.mem_toList
  rcases step_along hR hs hid hstep with halong | ⟨now, ctlOk, o, rfl, hget, -, hself⟩ |
    ⟨io, rest, u, rfl, -, hserving, hrun, rfl⟩
  · by_cases hmem : id ∈ s.begins a
    · refine iff_of_true ?_ (Or.inr hmem)
      cases a with
      | functor now ctlOk =>
          obtain ⟨j, -, hget, rfl⟩ := functor_cases hstep
          obtain rfl := Option.some.inj (hget.symm.trans ((hbegins now ctlOk).mp hmem))
          obtain ⟨-, o, -, hself⟩ := newEvent_along hR s j now ctlOk
          exact congrArg HttpObject.registered hself
      | _ => cases hmem
    · simp only [halong, hmem, or_false]
  · exact iff_of_true (congrArg HttpObject.registered hself) (Or.inr ((hbegins now ctlOk).mpr hget))
  · have hend := handleEvents_along hR (fun _ _ _ => rfl) (fun _ => rfl) hserving io
    rw [hrun] at hend
    have hsame : (u.objects id).registered = (s.objects id).registered := hend
    simp only [begins, List.not_mem_nil, or_false, hsame]

/-- The functors swapped out are those of the round of `doPendingFunctors` that goes on. -/
structure Paced (s : Worker) : Prop where
  idle : s.pc ≠ .functors → s.functors = []
  called : s.pc = .functors → s.called ≤ s.functors.length

/-- What a step does to the functors and to the number of connections. -/
structure Calls (s : Worker) (a : WorkerStep) (t : Worker) : Prop where
  paced : t.Paced
  order : s.uncalled ++ s.arrivals a = s.begins a ++ t.uncalled
  pending : s.pc = .functors → t.pendingFunctors = s.pendingFunctors ++ s.arrivals a
  made : t.made = s.made + (s.arrivals a).length

theorem calls_of_queue {a : WorkerStep} (hs : s.Paced) (hqueue : t.queue = s.queue) (hmade : t.made = s.made)
    (hpc : t.pc = .functors ↔ s.pc = .functors) (harrivals : s.arrivals a = []) (hbegins : s.begins a = []) :
    Calls s a t := by
  obtain ⟨hfunctors, hcalled, -⟩ := queue_eq hqueue
  refine ⟨⟨fun h => hfunctors.trans (hs.idle fun h' => h (hpc.mpr h')), fun h => ?_⟩, ?_, fun _ => ?_, ?_⟩
  · rw [hfunctors, hcalled]
    exact hs.called (hpc.mp h)
  · rw [harrivals, hbegins, List.append_nil, List.nil_append, uncalled_eq hqueue]
  · rw [harrivals, List.append_nil, (queue_eq hqueue).2.2]
  · rw [harrivals, hmade]
    rfl

theorem step_calls {a : WorkerStep} (hs : s.Sound) (htidy : s.Tidy s.uncalled) (hpaced : s.Paced)
    (hstep : s.step a = some t) : Calls s a t := by
  cases a with
  | accept fd =>
      obtain ⟨-, -, rfl⟩ := accept_cases hstep
      exact ⟨⟨hpaced.idle, hpaced.called⟩, List.append_assoc _ _ _, fun _ => rfl, rfl⟩
  | acceptorReleases j =>
      obtain ⟨-, rfl⟩ := acceptorReleases_cases hstep
      have hcalm := release_calm { s with acceptors := s.acceptors.erase j } j
      have hframe := release_frame { s with acceptors := s.acceptors.erase j } j
      exact calls_of_queue hpaced hcalm.queue hframe.made (iff_of_eq (congrArg (· = _) hframe.pc)) rfl rfl
  | poll events =>
      obtain ⟨hpc, -, rfl⟩ := poll_cases hstep
      have hstart : Tidy s.uncalled { s with ready := [] } := { htidy with }
      have hqueue : (getEventsReqeust events { s with ready := [] }).queue = s.queue :=
        (getEventsReqeust_tidy events hstart).2.queue
      have hmade := getEventsReqeust_made events { s with ready := [] }
      refine calls_of_queue hpaced hqueue hmade (iff_of_false ?_ (by simp [hpc])) rfl rfl
      dsimp only
      split_ifs <;> simp
  | handle io =>
      obtain ⟨request, rest, u, hpc, -, hslot, hrun, rfl⟩ := handle_cases hs hstep
      have hserved := handleEvents_served hs.inv hslot io
      have hend := handleEvents_tidy hs.inv htidy hslot io
      rw [hrun] at hserved hend
      have hqueue : u.queue = s.queue := by
        rcases hend.2 with hsteady | ⟨id, -, hshut⟩
        · exact hsteady.queue
        · exact hshut.queue
      exact calls_of_queue hpaced hqueue hserved.frame.made
        (iff_of_eq (congrArg (· = _) hserved.frame.pc)) rfl rfl
  | swapFunctors =>
      obtain ⟨hpc, -, rfl⟩ := swapFunctors_cases hstep
      have hnone : s.functors = [] := hpaced.idle (by simp [hpc])
      refine ⟨⟨fun h => absurd rfl h, fun _ => Nat.zero_le _⟩, ?_, fun h => ?_, rfl⟩
      · simp only [uncalled, arrivals, begins, hnone, List.drop_nil, List.nil_append, List.drop_zero,
          List.append_nil]
      · rw [hpc] at h
        cases h
  | functor now ctlOk =>
      obtain ⟨id, hpc, hget, rfl⟩ := functor_cases hstep
      obtain ⟨hlt, hget'⟩ := List.getElem?_eq_some_iff.mp hget
      have hframe := newEvent_frame s id now ctlOk
      obtain ⟨hfunctors, -, hpending⟩ := queue_eq (newEvent_steady s id now ctlOk).queue
      have hcalled : s.called + 1 ≤ (s.newEvent id now ctlOk).functors.length := hfunctors ▸ hlt
      refine ⟨⟨fun h => absurd (hframe.pc.trans hpc) h, fun _ => hcalled⟩, ?_, fun _ => ?_, hframe.made⟩
      · simp only [uncalled, arrivals, begins, hget, hfunctors, hpending, List.append_nil,
          Option.toList_some, List.singleton_append]
        rw [List.drop_eq_getElem_cons hlt, hget', List.cons_append]
      · exact hpending.trans (List.append_nil _).symm
  | endFunctors =>
      simp only [step, endFunctors, Option.ite_none_right_eq_some, Option.some.injEq] at hstep
      obtain ⟨⟨hpc, hcalled⟩, rfl⟩ := hstep
      obtain ⟨hcalm, hframe⟩ := foldl_release_calm s.functors { s with functors := [] }
      have hgone : Worker.uncalled { s with functors := [] } = s.uncalled := by
        simp only [uncalled, hcalled, List.drop_length, List.drop_nil]
      have huncalled := (uncalled_eq hcalm.queue).trans hgone
      exact ⟨⟨fun _ => (queue_eq hcalm.queue).1, fun h => absurd h (by simp)⟩,
        (List.append_nil _).trans huncalled.symm,
        fun _ => (queue_eq hcalm.queue).2.2.trans (List.append_nil _).symm, hframe.made⟩
  | sweep nid now ctlOk =>
      obtain ⟨node, hpc, hnode, -, ⟨-, rfl⟩ | ⟨-, rfl⟩⟩ := sweep_cases hstep
      · obtain ⟨touched, hframe⟩ := dropTimer_frame s nid node ctlOk
        exact calls_of_queue hpaced (dropTimer_tidy hs.inv htidy hnode ctlOk).2.1 hframe.made
          (iff_of_eq (congrArg (· = _) hframe.pc)) rfl rfl
      · exact calls_of_queue hpaced rfl rfl (iff_of_false (by simp) (by simp [hpc])) rfl rfl
  | endSweep =>
      obtain ⟨hpc, -, rfl⟩ := endSweep_cases hstep
      exact calls_of_queue hpaced rfl rfl (iff_of_false (by simp) (by simp [hpc])) rfl rfl

theorem arrivals_cases (s : Worker) (a : WorkerStep) :
    s.arrivals a = [] ∨ ∃ fd, a = .accept fd ∧ s.arrivals a = [s.made] := by
  cases a with
  | accept fd => exact Or.inr ⟨fd, rfl, rfl⟩
  | _ => exact Or.inl rfl

/-- A connection that was not made before is that of a step of `accept`. -/
theorem Calls.fresh {a : WorkerStep} (h : Calls s a t) (hstep : s.step a = some t) {id : Nat}
    (hid : id < t.made) : id < s.made ∨ ∃ fd, a = .accept fd ∧ id = s.made ∧ t = s.handNewConn fd := by
  have hmade := h.made
  rcases s.arrivals_cases a with hnone | ⟨fd, rfl, hnew⟩
  · rw [hnone, List.length_nil] at hmade
    exact Or.inl (by omega)
  · rw [hnew, List.length_singleton] at hmade
    by_cases hold : id < s.made
    · exact Or.inl hold
    · obtain ⟨-, -, rfl⟩ := accept_cases hstep
      exact Or.inr ⟨fd, rfl, by omega, rfl⟩

/-- The connections `log` have been added to the poller, and the others wait for it in their order. -/
structure Enrolled (log : List Nat) (s : Worker) : Prop where
  sound : s.Sound
  tidy : s.Tidy s.uncalled
  paced : s.Paced
  order : log ++ s.uncalled = List.range s.made
  registered : ∀ id < s.made, (s.objects id).registered = true ↔ id ∈ log

theorem step_enrolled {a : WorkerStep} {log : List Nat} (h : Enrolled log s) (hstep : s.step a = some t) :
    Enrolled (log ++ s.begins a) t := by
  have hcalls := step_calls h.sound h.tidy h.paced hstep
  have horder : log ++ s.begins a ++ t.uncalled = List.range s.made ++ s.arrivals a := by
    rw [List.append_assoc, ← hcalls.order, ← List.append_assoc, h.order]
  refine ⟨step_sound h.sound hstep, (step_counted h.sound h.tidy hstep).tidy, hcalls.paced, ?_,
    fun id hid => ?_⟩
  · rw [horder, hcalls.made]
    rcases s.arrivals_cases a with hnone | ⟨fd, -, hnew⟩
    · rw [hnone, List.append_nil, List.length_nil, Nat.add_zero]
    · rw [hnew, List.length_singleton, List.range_succ]
  · rcases hcalls.fresh hstep hid with hold | ⟨fd, rfl, rfl, rfl⟩
    · rw [step_registered h.sound hold hstep, h.registered id hold, List.mem_append]
    · have hfresh : s.made ∉ log := fun hmem => by
        have hlt := List.mem_range.mp (h.order ▸ List.mem_append_left s.uncalled hmem)
        omega
      simp only [s.handNewConn_new fd, begins, List.append_nil, hfresh, Bool.false_eq_true]

theorem created_enrolled (wakeupFd : Nat) (ctlOk : Bool) : Enrolled [] (created wakeupFd ctlOk) := by
  have hnone : (created wakeupFd ctlOk).made = 0 ∧ (created wakeupFd ctlOk).Paced ∧
      (created wakeupFd ctlOk).uncalled = [] := by
    cases ctlOk <;> exact ⟨rfl, ⟨fun _ => rfl, fun h => nomatch h⟩, rfl⟩
  obtain ⟨hmade, hpaced, huncalled⟩ := hnone
  refine ⟨created_sound wakeupFd ctlOk, (created_tidy wakeupFd ctlOk).1, hpaced, ?_, ?_⟩
  · rw [huncalled, hmade]
    rfl
  · intro id hid
    omega

theorem run_enrolled {wakeupFd : Nat} {ctlOk : Bool} {as : List WorkerStep}
    (hrun : Run step (fun _ _ => True) (created wakeupFd ctlOk) as t) :
    Enrolled (emitted step begins (created wakeupFd ctlOk) as) t := by
  have hend : Enrolled ([] ++ emitted step begins (created wakeupFd ctlOk) as) t :=
    hrun.emitted_invariant (I := fun s log => Enrolled log s)
      (fun _ _ _ _ _ hstep h => step_enrolled h hstep) (created_enrolled wakeupFd ctlOk)
  exact hend

theorem Enrolled.registered_iff {log : List Nat} (h : Enrolled log s) {id : Nat} (hid : id < s.made) :
    (s.objects id).registered = true ↔ id ∉ s.uncalled := by
  have hmem : id ∈ log ++ s.uncalled := h.order ▸ List.mem_range.mpr hid
  have hnodup : (log ++ s.uncalled).Nodup := h.order ▸ List.nodup_range
  rw [h.registered id hid]
  refine ⟨fun hlog hwaits => ?_, (List.mem_append.mp hmem).resolve_right⟩
  exact (List.nodup_append.mp hnodup).2.2 id hlog id hwaits rfl

/-- In a round of `doPendingFunctors`, the connections before the `k`-th are registered, or the round goes
on and only later ones wait for the next. -/
def Rounds (k : Nat) (s : Worker) : Prop :=
  (∀ id < k, (s.objects id).registered = true) ∨ (s.pc = .functors ∧ ∀ id ∈ s.pendingFunctors, k ≤ id)

theorem step_rounds {k : Nat} {a : WorkerStep} {log : List Nat} (h : Enrolled log s) (hk : k ≤ s.made)
    (hstep : s.step a = some t) (hs : s.Rounds k) : t.Rounds k := by
  rcases hs with hall | ⟨hpc, hlater⟩
  · refine Or.inl fun id hid => ?_
    exact (step_lifelong ages_lifelong h.sound (hid.trans_le hk) hstep).registered (hall id hid)
  · have hcalls := step_calls h.sound h.tidy h.paced hstep
    have hlater' : ∀ id ∈ t.pendingFunctors, k ≤ id := by
      intro id hid
      rw [hcalls.pending hpc, List.mem_append] at hid
      rcases hid with hid | hid
      · exact hlater id hid
      · rcases s.arrivals_cases a with hnone | ⟨fd, -, hnew⟩
        · rw [hnone] at hid
          cases hid
        · rw [hnew, List.mem_singleton] at hid
          omega
    by_cases hpc' : t.pc = .functors
    · exact Or.inr ⟨hpc', hlater'⟩
    · refine Or.inl fun id hid => ((step_enrolled h hstep).registered_iff ?_).mpr fun hwaits => ?_
      · exact (hid.trans_le hk).trans_le (step_made h.sound hstep)
      · rw [uncalled, hcalls.paced.idle hpc', List.drop_nil, List.nil_append] at hwaits
        exact absurd (hlater' id hwaits) (by omega)

/-- **`newEvent` once for each connection, in their order.** The functors called in a run and those still
to be called are the connections made, in the order of `accept`; `newEvent` was called just for those whose
functor was called. Once a round of `doPendingFunctors` is over, it was for all connections made before it. -/
theorem run_newEvents {wakeupFd : Nat} {ctlOk : Bool} {as : List WorkerStep}
    (hrun : Run step (fun _ _ => True) (created wakeupFd ctlOk) as t) :
    emitted step begins (created wakeupFd ctlOk) as ++ t.uncalled = List.range t.made ∧
      (∀ id < t.made, (t.objects id).registered = true ↔ id ∉ t.uncalled) ∧
      ∀ u bs v, t.swapFunctors = some u → Run step (fun _ _ => True) u bs v → v.pc ≠ .functors →
        ∀ id < t.made, (v.objects id).registered = true := by
  have ht := run_enrolled hrun
  refine ⟨ht.order, fun id hid => ht.registered_iff hid, fun u bs v hswap hround hover => ?_⟩
  have hu : Enrolled _ u := step_enrolled (a := .swapFunctors) ht hswap
  obtain ⟨-, -, rfl⟩ := swapFunctors_cases hswap
  have hend := hround.invariant (I := fun v => (∃ log, Enrolled log v) ∧ t.made ≤ v.made ∧ v.Rounds t.made)
    (fun _ _ _ _ hstep ⟨⟨log, hv⟩, hk, hrounds⟩ => ⟨⟨_, step_enrolled hv hstep⟩,
      hk.trans (step_made hv.sound hstep), step_rounds hv hk hstep hrounds⟩)
    ⟨⟨_, hu⟩, le_rfl, Or.inr ⟨rfl, fun _ h => nomatch h⟩⟩
  exact hend.2.2.resolve_right fun h => hover h.1

/-- The second connection is made while the functors of the round are called, and waits for the next. -/
theorem run_newEvents_later :
    ∃ t : Worker, t.made = 2 ∧ t.uncalled = [1] ∧ (t.objects 0).registered = true ∧
      ¬ (t.objects 1).registered = true := by
  have hexec : (exec (checked step fun _ _ => True) (created 3 true) [.accept 5, .poll [(3, EPOLLIN)],
      .handle ⟨someHost, [], [], 0, true⟩, .swapFunctors, .accept 6, .functor 0 true]).map
        (fun t => (t.made, t.uncalled)) = some (2, [1]) := by
    decide +kernel
  obtain ⟨t, ht, hends⟩ := Option.map_eq_some_iff.mp hexec
  obtain ⟨hmade, huncalled⟩ : _ ∧ _ := by simpa only [Prod.mk.injEq] using hends
  obtain ⟨-, hregistered, -⟩ := run_newEvents (run_of_exec_checked ht)
  refine ⟨t, hmade, huncalled, (hregistered 0 (by omega)).mpr (by simp [huncalled]), fun h => ?_⟩
  exact (hregistered 1 (by omega)).mp h (by simp [huncalled])

end Worker

end WebServer
