import WebServer.EpollOperations

/-! No callback reaches a destroyed connection. While a channel waits to be handled, its table entry is
in place and keeps its connection alive; the handlers before `handleConn` do not touch the entry, and
`handleConn` gives it up in its last call only. -/

namespace WebServer

open Runs Stages

namespace Worker

variable {s t : Worker}

/-- In the midst of `handleEvents`, which began in `s`. -/
structure Serving (id : Nat) (s t : Worker) : Prop where
  inv : t.Inv
  slot : t.Slot id
  frame : Frame [] s t

/-- At the end of it. -/
structure Served (fd : Nat) (s t : Worker) : Prop where
  inv : t.Inv
  frame : Frame [fd] s t

/-- A handler may throw; it may not meet a destroyed connection. -/
def Unharmed : LoopFault → Prop
  | .destroyed => False
  | .handler _ => True

theorem Serving.live {id : Nat} (h : Serving id s t) : t.Live id := (h.inv.slots _ id h.slot).1

theorem Serving.setConn {id : Nat} (h : Serving id s t) {c : Conn}
    (hhttp : c.http.fd = (t.objects id).conn.http.fd) (hchan : c.chan.fd = (t.objects id).conn.chan.fd) :
    Serving id s (t.setConn id c) := by
  have hframe : Frame [] t (t.setConn id c) := setObject_frame t id hchan
  exact ⟨(setConn_same t id hhttp hchan).inv h.inv, hframe.slot h.slot, h.frame.trans hframe⟩

theorem Serving.clearTimer {id : Nat} (h : Serving id s t) : Serving id s (t.clearTimer id) := by
  have hframe := clearTimer_frame t id
  exact ⟨clearTimer_inv h.inv h.slot, hframe.slot h.slot, h.frame.trans hframe⟩

theorem call_rule {P : Worker → Prop} {id : Nat} (io : Io)
    (hclear : ∀ t, Serving id s t → P t → P (t.clearTimer id)) (h : Serving id s t) (hP : P t) {k : Call}
    (hk : k.quiet = true) : Safe Unharmed (fun u => Serving id s u ∧ P u) (call id io t k) := by
  unfold call
  rw [if_pos h.live]
  cases k with
  | clearTimer => exact ⟨h.clearTimer, hclear t h hP⟩
  | handleError errNum shortMsg => exact ⟨h, hP⟩
  | updatePoller timeout => cases hk
  | handleClose => cases hk

theorem calls_rule {P : Worker → Prop} {id : Nat} (io : Io) {ks : List Call}
    (hclear : ∀ t, Serving id s t → P t → P (t.clearTimer id)) (h : Serving id s t) (hP : P t)
    (hks : ∀ k ∈ ks, k.quiet = true) :
    Safe Unharmed (fun u => Serving id s u ∧ P u) (ks.foldlM (call id io) t) := by
  induction ks generalizing t with
  | nil => exact ⟨h, hP⟩
  | cons k ks ih =>
      rw [List.foldlM_cons]
      apply (call_rule io hclear h hP (hks k List.mem_cons_self)).bind
      intro u hu
      exact ih hu.1 hu.2 fun k' hk' => hks k' (List.mem_cons_of_mem k hk')

/-- A handler before `handleConn`, which makes a connection with which the state has `P`. -/
theorem callback_leads {P : Worker → Prop} {id : Nat} (io : Io) {handler : Conn → Except Fault Conn}
    (htame : ∀ c c', handler c = .ok c' → Tame c c')
    (hset : ∀ c, handler (t.objects id).conn = .ok c → Tame (t.objects id).conn c → P (t.setConn id c))
    (hclear : ∀ t, Serving id s t → P t → P (t.clearTimer id)) (h : Serving id s t) :
    Safe Unharmed (fun u => Serving id s u ∧ P u) (callback id io handler t) := by
  rw [callback, if_pos h.live]
  cases hrun : handler (t.objects id).conn with
  | error f => trivial
  | ok c =>
      have hc := htame _ c hrun
      obtain ⟨new, hnew, hks⟩ := hc.calls
      simp only [hnew, List.drop_left]
      exact calls_rule io hclear (h.setConn hc.httpFd hc.chanFd) (hset c hrun hc) hks

/-- A handler before `handleConn`, from a state with `P` that its effects keep. -/
theorem callback_rule {P : Worker → Prop} {id : Nat} (io : Io) {handler : Conn → Except Fault Conn}
    (htame : ∀ c c', handler c = .ok c' → Tame c c')
    (hset : ∀ t c, Serving id s t → P t → Tame (t.objects id).conn c → P (t.setConn id c))
    (hclear : ∀ t, Serving id s t → P t → P (t.clearTimer id)) (h : Serving id s t) (hP : P t) :
    Safe Unharmed (fun u => Serving id s u ∧ P u) (callback id io handler t) :=
  callback_leads io htame (fun c _ hc => hset t c h hP hc) hclear h

/-- The calls of `handleConn`: the end of the timer, and at most one call after it. -/
theorem handleConn_calls (c : Conn) : (handleConn c).http.fd = c.http.fd ∧
    (handleConn c).chan.fd = c.chan.fd ∧ (handleConn c).chan.lastEvents = c.chan.lastEvents ∧
      ((handleConn c).calls = c.calls ++ [.clearTimer] ∨
        (∃ timeout > 0, (handleConn c).calls = c.calls ++ [.clearTimer, .updatePoller timeout]) ∨
        (handleConn c).calls = c.calls ++ [.clearTimer, .handleClose]) := by
  by_cases hconn : c.http.error = false ∧ c.http.connectionState = .connected
  · obtain ⟨timeout, htimeout, hcalls, hrearmed⟩ := handleConn_connected hconn.1 hconn.2
    exact ⟨congrArg HttpData.fd hrearmed.http, hrearmed.fd, hrearmed.lastEvents,
      Or.inr (Or.inl ⟨timeout, htimeout, hcalls⟩)⟩
  · by_cases hdrain : c.Draining
    · rw [handleConn_draining hdrain]
      exact ⟨rfl, rfl, rfl, Or.inl rfl⟩
    · rw [handleConn_closes hconn hdrain]
      exact ⟨rfl, rfl, rfl, Or.inr (Or.inr rfl)⟩

/-- The worker when `handleConn` has ended the timer of the connection. -/
def separated (t : Worker) (id : Nat) : Worker :=
  (t.setConn id (handleConn (t.objects id).conn)).clearTimer id

theorem Serving.separated {id : Nat} (h : Serving id s t) : Serving id s (t.separated id) := by
  obtain ⟨hhttp, hchan, -⟩ := handleConn_calls (t.objects id).conn
  exact (h.setConn hhttp hchan).clearTimer

/-- What `handleConn` does then: nothing, or one of two calls. -/
theorem callback_handleConn_cases {id : Nat} (io : Io) (h : Serving id s t) :
    ((handleConn (t.objects id).conn).calls = (t.objects id).conn.calls ++ [.clearTimer] ∧
        callback id io (fun c => .ok (handleConn c)) t = .ok (t.separated id)) ∨
      (∃ timeout > 0, (handleConn (t.objects id).conn).calls =
          (t.objects id).conn.calls ++ [.clearTimer, .updatePoller timeout] ∧
        callback id io (fun c => .ok (handleConn c)) t =
          .ok ((t.separated id).epollMod (.http id) timeout io.now io.ctlOk)) ∨
      ((handleConn (t.objects id).conn).calls =
          (t.objects id).conn.calls ++ [.clearTimer, .handleClose] ∧
        callback id io (fun c => .ok (handleConn c)) t =
          .ok ((t.separated id).handleClose id io.ctlOk)) := by
  obtain ⟨hhttp, hchan, -, hcalls⟩ := handleConn_calls (t.objects id).conn
  have hset := (h.setConn hhttp hchan).live
  have hlive := h.separated.live
  have hclear : call id io (t.setConn id (handleConn (t.objects id).conn)) .clearTimer =
      .ok (t.separated id) := if_pos hset
  have hcallback {ks : List Call} (hks : (handleConn (t.objects id).conn).calls =
      (t.objects id).conn.calls ++ .clearTimer :: ks) :
      callback id io (fun c => .ok (handleConn c)) t = ks.foldlM (call id io) (t.separated id) := by
    rw [callback, if_pos h.live]
    simp only [hks, List.drop_left, List.foldlM_cons, hclear]
    rfl
  rcases hcalls with hcalls | ⟨timeout, htimeout, hcalls⟩ | hcalls
  · exact Or.inl ⟨hcalls, hcallback hcalls⟩
  · refine Or.inr (Or.inl ⟨timeout, htimeout, hcalls, (hcallback hcalls).trans ?_⟩)
    rw [List.foldlM_cons, call, if_pos hlive]
    rfl
  · refine Or.inr (Or.inr ⟨hcalls, (hcallback hcalls).trans ?_⟩)
    rw [List.foldlM_cons, call, if_pos hlive]
    rfl

theorem callback_handleConn {id : Nat} (io : Io) (h : Serving id s t) :
    Safe Unharmed (Served (s.chan (.http id)).fd s)
      (callback id io (fun c => .ok (handleConn c)) t) := by
  have hu := h.separated
  have hfd := hu.frame.fds (.http id)
  rcases callback_handleConn_cases io h with ⟨-, hrun⟩ | ⟨timeout, htimeout, -, hrun⟩ | ⟨-, hrun⟩
  all_goals rw [hrun]
  · exact ⟨hu.inv, hu.frame.of_nil⟩
  · have hframe := epollMod_frame (t.separated id) (.http id) timeout io.now io.ctlOk
    rw [hfd] at hframe
    exact ⟨(epollMod_timed hu.inv hu.live htimeout io.now io.ctlOk).inv, hu.frame.of_nil.trans hframe⟩
  · have hframe := handleClose_frame (t.separated id) id io.ctlOk
    rw [hfd] at hframe
    exact ⟨handleClose_inv hu.inv hu.live io.ctlOk, hu.frame.of_nil.trans hframe⟩

theorem meet_tame (c : Conn) (io : Io) :
    Tame c { c with sock := { c.sock with reads := io.reads, writes := io.writes } } :=
  ⟨.of_eq rfl rfl rfl rfl, fun h => h⟩

theorem clearEvents_tame (c : Conn) : Tame c c.clearEvents :=
  ⟨.of_eq rfl rfl rfl rfl, fun _ => EventMask.not_zero_has _⟩

/-- **The rule for the channel of a connection.** `P` holds up to `handleConn` if it is kept by what
happens to the connection and by the end of the timer; `Q` then holds where `handleConn` establishes
it. -/
theorem handleEvents_rule {P Q : Worker → Prop} {id : Nat} {io : Io} (hs : Serving id s s)
    (hset : ∀ t c, Serving id s t → P t → Tame (t.objects id).conn c → P (t.setConn id c))
    (hclear : ∀ t, Serving id s t → P t → P (t.clearTimer id))
    (hlast : ∀ t, Serving id s t → P t → Safe Unharmed Q (callback id io (fun c => .ok (handleConn c)) t))
    (hquit : ∀ t, Serving id s t → P t → Q t) (hP : P ((s.meet id io).clearEvents (.http id))) :
    Safe Unharmed Q (s.handleEvents io (.http id)) := by
  have htame {t : Worker} {c : Conn} (h : Serving id s t) (hc : Tame (t.objects id).conn c) :
      Serving id s (t.setConn id c) := h.setConn hc.httpFd hc.chanFd
  have hmeet : Serving id s (s.meet id io) := htame hs (meet_tame _ io)
  have hcleared {t : Worker} (h : Serving id s t) : Serving id s (t.clearEvents (.http id)) :=
    htame h (clearEvents_tame _)
  unfold handleEvents
  refine handleEvents_safe (P := fun t => Serving id s t ∧ P t) ?_ ?_ ?_ ?_ ⟨hcleared hmeet, hP⟩
  · exact fun t ht => callback_rule io (fun _ _ => handleRead_tame) hset hclear ht.1 ht.2
  · refine fun t ht => callback_rule io (fun c c' h => ?_) hset hclear ht.1 ht.2
    cases h
    exact handleWrite_tame c
  · exact fun t ht => hlast t ht.1 ht.2
  · exact fun _ t ht => hquit _ (hcleared ht.1) (hset t _ ht.1 ht.2 (clearEvents_tame _))

/-- The rule for the wakeup channel. -/
theorem handleWakeup_rule {P : Worker → Prop} {io : Io}
    (hset : ∀ t events, EventMask.Plain events → P t → P { t with wakeupChannel.events := events })
    (hmod : ∀ t, P t → P (t.epollMod .wakeup 0 io.now io.ctlOk)) (hs : P s) : P (s.handleWakeup io) := by
  have hclear (t : Worker) (ht : P t) : P (t.clearEvents .wakeup) :=
    hset t 0 (EventMask.not_zero_has _) ht
  refine handleEvents_run hclear (fun t ht => ?_) (fun _ ht => ht) hmod (fun _ ht => ht) (hclear s hs)
  exact hset t EventLoop.wakeupEvents (by decide) ht

theorem handleWakeup_served (hs : s.Inv) (io : Io) :
    Served s.wakeupChannel.fd s (s.handleWakeup io) := by
  refine handleWakeup_rule (fun t events _ ht => ?_) (fun t ht => ?_) ⟨hs, .refl _ s⟩
  · have hfd : { t.wakeupChannel with events := events }.fd = (t.chan .wakeup).fd := rfl
    exact ⟨(setChan_same t .wakeup hfd).inv ht.inv, ht.frame.trans (setChan_frame t .wakeup hfd).of_nil⟩
  · have hframe := epollMod_frame t .wakeup 0 io.now io.ctlOk
    rw [ht.frame.fds .wakeup] at hframe
    exact ⟨epollMod_wakeup_inv ht.inv io.now io.ctlOk, ht.frame.trans hframe⟩

/-- **A channel is handled without harm**: its connection outlives every callback but the last call of
`handleConn`, and no other connection loses its table entry. -/
theorem handleEvents_served (hs : s.Inv) {request : ChannelRef}
    (hslot : s.fd2chan.get (s.chan request).fd = some request) (io : Io) :
    Safe Unharmed (Served (s.chan request).fd s) (s.handleEvents io request) := by
  cases request with
  | wakeup => exact handleWakeup_served hs io
  | http id =>
      have hstart : Serving id s s := ⟨hs, (hs.paired _ id).mp hslot, .refl [] s⟩
      exact handleEvents_rule (P := fun _ => True) hstart (fun _ _ _ _ _ => trivial)
        (fun _ _ _ => trivial) (fun t ht _ => callback_handleConn io ht)
        (fun t ht _ => ⟨ht.inv, ht.frame.of_nil⟩) trivial

/-! ### The channels that are ready -/

/-- The channels still to be handled have their table entry, each once. -/
structure Polled (s : Worker) : Prop where
  slots : ∀ request ∈ s.ready, s.fd2chan.get (s.chan request).fd = some request
  nodup : s.ready.Nodup
  idle : s.pc ≠ .dispatch → s.ready = []

structure Sound (s : Worker) : Prop where
  inv : s.Inv
  polled : s.Polled
  unharmed : s.misuse = false

/-- Outside the loop over the channels there is nothing to be said of them. -/
theorem Polled.of_empty (h : s.ready = []) : s.Polled where
  slots := by simp [h]
  nodup := by simp [h]
  idle := fun _ => h

theorem Polled.frame (h : s.Polled) (hframe : Frame [] s t) : t.Polled where
  slots := fun request hr => by
    rw [hframe.fds, hframe.fd2chan _ List.not_mem_nil]
    exact h.slots request (hframe.ready ▸ hr)
  nodup := hframe.ready ▸ h.nodup
  idle := fun hpc => hframe.ready.trans (h.idle (hframe.pc ▸ hpc))

theorem Inv.slot_fd (hs : s.Inv) {fd : Nat} {request : ChannelRef}
    (h : s.fd2chan.get fd = some request) : (s.chan request).fd = fd := by
  cases request with
  | wakeup => exact hs.wakeupSlot fd h
  | http id => exact (hs.slots fd id ((hs.paired fd id).mp h)).2

/-- The worker when the channel of an event is found: its events are noted, and it is ready. -/
def found (s : Worker) (request : ChannelRef) (revents : EventMask) : Worker :=
  let s := s.setChan request { s.chan request with revents := revents, events := 0 }
  { s with ready := s.ready ++ [request] }

theorem getEventsReqeust_found {fd : Nat} {request : ChannelRef} (h : s.fd2chan.get fd = some request)
    (revents : EventMask) (events : List (Nat × EventMask)) :
    getEventsReqeust ((fd, revents) :: events) s = getEventsReqeust events (s.found request revents) := by
  simp only [getEventsReqeust, h]
  rfl

theorem getEventsReqeust_empty {fd : Nat} (h : s.fd2chan.get fd = none) (revents : EventMask)
    (events : List (Nat × EventMask)) :
    getEventsReqeust ((fd, revents) :: events) s = getEventsReqeust events s := by
  simp only [getEventsReqeust, h]

/-- What each channel found keeps, the loop keeps. -/
theorem getEventsReqeust_rule {P : Worker → Prop}
    (hfound : ∀ t request revents, P t → P (found t request revents)) (events : List (Nat × EventMask))
    (hs : P s) : P (getEventsReqeust events s) := by
  induction events generalizing s with
  | nil => exact hs
  | cons event events ih =>
      obtain ⟨fd, revents⟩ := event
      cases hget : s.fd2chan.get fd with
      | none =>
          rw [getEventsReqeust_empty hget]
          exact ih hs
      | some request =>
          rw [getEventsReqeust_found hget]
          exact ih (hfound s request revents hs)

theorem found_frame (s : Worker) (request : ChannelRef) (revents : EventMask) :
    Frame [] s { s.found request revents with ready := s.ready } := by
  have hfd : { s.chan request with revents := revents, events := 0 }.fd = (s.chan request).fd := rfl
  have h := setChan_frame s request hfd
  exact { h with ready := rfl }

theorem found_ready (s : Worker) (request : ChannelRef) (revents : EventMask) :
    (s.found request revents).ready = s.ready ++ [request] := by
  have hfd : { s.chan request with revents := revents, events := 0 }.fd = (s.chan request).fd := rfl
  have h := setChan_frame s request hfd
  exact congrArg (· ++ [request]) h.ready

theorem found_inv (hs : s.Inv) (request : ChannelRef) (revents : EventMask) :
    (s.found request revents).Inv := by
  have hsame : SameRefs s (s.setChan request { s.chan request with revents := revents, events := 0 }) :=
    setChan_same s request rfl
  exact { hsame.inv hs with }

/-- The channels found for a batch have their table entries, at descriptors of the batch. -/
theorem getEventsReqeust_inv {events : List (Nat × EventMask)} (hs : s.Inv)
    (hfds : (events.map Prod.fst).Nodup)
    (hready : ∀ request ∈ s.ready, s.fd2chan.get (s.chan request).fd = some request ∧
      (s.chan request).fd ∉ events.map Prod.fst) (hnodup : s.ready.Nodup) :
    (getEventsReqeust events s).Inv ∧ (getEventsReqeust events s).misuse = s.misuse ∧
      (getEventsReqeust events s).ready.Nodup ∧
        ∀ request ∈ (getEventsReqeust events s).ready,
          (getEventsReqeust events s).fd2chan.get ((getEventsReqeust events s).chan request).fd =
            some request := by
  induction events generalizing s with
  | nil => exact ⟨hs, rfl, hnodup, fun request hr => (hready request hr).1⟩
  | cons event events ih =>
      obtain ⟨fd, revents⟩ := event
      simp only [List.map_cons, List.nodup_cons] at hfds
      obtain ⟨hfd, hfds⟩ := hfds
      have hrest : ∀ request ∈ s.ready, s.fd2chan.get (s.chan request).fd = some request ∧
          (s.chan request).fd ∉ events.map Prod.fst := fun request hr =>
        ⟨(hready request hr).1, fun hmem => (hready request hr).2 (List.mem_cons_of_mem _ hmem)⟩
      cases hget : s.fd2chan.get fd with
      | none =>
          rw [getEventsReqeust_empty hget]
          exact ih hs hfds hrest hnodup
      | some request =>
          have hself := hs.slot_fd hget
          have hfresh : request ∉ s.ready := fun hr =>
            (hready request hr).2 (hself ▸ List.mem_cons_self)
          have hframe := found_frame s request revents
          have hfound := found_ready s request revents
          rw [getEventsReqeust_found hget]
          obtain ⟨hinv, hmisuse, hend⟩ := ih (found_inv hs request revents) hfds (fun r hr => by
            have hfds' : ((s.found request revents).chan r).fd = (s.chan r).fd := hframe.fds r
            have hchan : (s.found request revents).fd2chan.get (s.chan r).fd = s.fd2chan.get (s.chan r).fd :=
              hframe.fd2chan _ List.not_mem_nil
            rw [hfds', hchan]
            rw [hfound] at hr
            rcases List.mem_append.mp hr with hr | hr
            · exact hrest r hr
            · rw [List.mem_singleton.mp hr, hself]
              exact ⟨hget, hfd⟩) (by
            rw [hfound]
            exact List.nodup_append.mpr ⟨hnodup, List.nodup_singleton _, fun r hr q hq hrq =>
              hfresh (List.mem_singleton.mp hq ▸ hrq ▸ hr)⟩)
          have hmisuse' : (s.found request revents).misuse = s.misuse := hframe.misuse
          exact ⟨hinv, hmisuse.trans hmisuse', hend⟩

theorem poll_sound (hs : s.Sound) {events : List (Nat × EventMask)} (hstep : s.poll events = some t) :
    t.Sound := by
  obtain ⟨-, hfds, rfl⟩ := poll_cases hstep
  obtain ⟨hinv, hmisuse, hnodup, hslots⟩ := getEventsReqeust_inv (s := { s with ready := [] })
    { hs.inv with } hfds (by simp) List.nodup_nil
  refine ⟨{ hinv with }, ⟨hslots, hnodup, fun hpc => ?_⟩, hmisuse.trans hs.unharmed⟩
  by_contra hready
  exact hpc (if_neg hready)

theorem handNewConn_new (s : Worker) (fd : Nat) :
    (s.handNewConn fd).objects s.made = ⟨Conn.fresh fd, none, false, false, false⟩ := setObject_self ..

theorem handNewConn_other (s : Worker) {j : Nat} (hj : j ≠ s.made) (fd : Nat) :
    (s.handNewConn fd).objects j = s.objects j := setObject_other s hj _

theorem handNewConn_live (fd : Nat) {j : Nat} (hj : s.Live j) : (s.handNewConn fd).Live j := by
  refine ⟨Nat.lt_succ_of_lt hj.1, ?_⟩
  rw [handNewConn_other s hj.1.ne]
  exact hj.2

/-- The connections there are: the new one and those that were there. -/
theorem live_of_handNewConn {fd j : Nat} (hj : (s.handNewConn fd).Live j) :
    j = s.made ∨ j ≠ s.made ∧ s.Live j := by
  by_cases hne : j = s.made
  · exact Or.inl hne
  · obtain ⟨hmade, hdestroyed⟩ := hj
    rw [handNewConn_other s hne] at hdestroyed
    exact Or.inr ⟨hne, lt_of_le_of_ne (Nat.lt_succ_iff.mp hmade) hne, hdestroyed⟩

/-- A new connection is referred to by its functor, and its descriptor was not open. -/
theorem handNewConn_inv (hs : s.Inv) {fd : Nat} (hwakeup : fd ≠ s.wakeupChannel.fd)
    (hopen : ∀ id, s.Live id → (s.objects id).conn.chan.fd ≠ fd) : (s.handNewConn fd).Inv := by
  have hself := s.handNewConn_new fd
  have hother {j : Nat} (hj : j ≠ s.made) := s.handNewConn_other hj fd
  -- the new connection has no timer node, and was never registered
  have hlink {j nid : Nat} (h : ((s.handNewConn fd).objects j).timer = some nid) :
      (s.objects j).timer = some nid := by
    by_cases hj : j = s.made
    · rw [hj, hself] at h
      cases h
    · rwa [hother hj] at h
  have hregistered {j : Nat} (h : ((s.handNewConn fd).objects j).registered = true) : j ≠ s.made := by
    rintro rfl
    rw [hself] at h
    cases h
  exact {
    paired := hs.paired
    slots := fun k j h => by
      obtain ⟨hj, hfd⟩ := hs.slots k j h
      exact ⟨handNewConn_live fd hj, by rw [hother hj.1.ne]; exact hfd⟩
    wakeupSlot := hs.wakeupSlot
    sameFd := fun j => by
      by_cases hj : j = s.made
      · rw [hj, hself]
        rfl
      · rw [hother hj]
        exact hs.sameFd j
    distinct := fun i j hi hj h => by
      rcases live_of_handNewConn hi with rfl | ⟨hine, hi⟩ <;>
        rcases live_of_handNewConn hj with rfl | ⟨hjne, hj⟩
      · rfl
      · rw [hself, hother hjne] at h
        exact absurd h.symm (hopen j hj)
      · rw [hself, hother hine] at h
        exact absurd h (hopen i hi)
      · rw [hother hine, hother hjne] at h
        exact hs.distinct i j hi hj h
    foreign := fun j hj => by
      rcases live_of_handNewConn hj with rfl | ⟨hne, hj⟩
      · rw [hself]
        exact hwakeup
      · rw [hother hne]
        exact hs.foreign j hj
    holders := fun nid node j hnode hdata => handNewConn_live fd (hs.holders nid node j hnode hdata)
    refs := fun j h => by
      simp only [handNewConn, List.mem_append, List.mem_cons, List.not_mem_nil, or_false] at h
      have hnew : (s.handNewConn fd).Live s.made := ⟨Nat.lt_succ_self _, by rw [hself]⟩
      rcases h with h | (h | rfl) | rfl | h
      · exact handNewConn_live fd (hs.refs j (Or.inl h))
      · exact handNewConn_live fd (hs.refs j (Or.inr (Or.inl h)))
      · exact hnew
      · exact hnew
      · exact handNewConn_live fd (hs.refs j (Or.inr (Or.inr h)))
    links := fun j nid node h => hs.links j nid node (hlink h)
    numbered := hs.numbered
    linkNumbered := fun j nid h => hs.linkNumbered j nid (hlink h)
    kept := fun j hj hreg hrem => by
      rcases live_of_handNewConn hj with rfl | ⟨hne, hj⟩
      · exact absurd rfl (hregistered hreg)
      · rw [hother hne] at hreg hrem
        rw [Slot, hother hne]
        exact hs.kept j hj hreg hrem
    gone := fun j hdestroyed hreg => by
      have hne := hregistered hreg
      rw [hother hne] at hdestroyed hreg ⊢
      exact hs.gone j hdestroyed hreg }

theorem accept_sound (hs : s.Sound) {fd : Nat} (hstep : s.accept fd = some t) : t.Sound := by
  obtain ⟨hwakeup, hopen, rfl⟩ := accept_cases hstep
  have hopen' (id : Nat) (hid : s.Live id) : (s.objects id).conn.chan.fd ≠ fd := by
    rw [← hs.inv.sameFd id]
    exact hopen id hid.1 hid.2
  refine ⟨handNewConn_inv hs.inv hwakeup hopen', ⟨fun request hr => ?_, hs.polled.nodup,
    hs.polled.idle⟩, hs.unharmed⟩
  have hget := hs.polled.slots request hr
  cases request with
  | wakeup => exact hget
  | http id =>
      have hne : id ≠ s.made := (hs.inv.slots _ id ((hs.inv.paired _ id).mp hget)).1.1.ne
      have hfd : ((s.handNewConn fd).chan (.http id)).fd = (s.chan (.http id)).fd := by
        simp only [chan, handNewConn_other _ hne]
      rw [hfd]
      exact hget

theorem acceptorReleases_sound (hs : s.Sound) {id : Nat} (hstep : s.acceptorReleases id = some t) :
    t.Sound := by
  obtain ⟨hid, rfl⟩ := acceptorReleases_cases hstep
  have hmade := (hs.inv.refs id (Or.inr (Or.inr hid))).1
  have hinv : Inv { s with acceptors := s.acceptors.erase id } := { hs.inv with
    refs := fun j hj => hs.inv.refs j (hj.imp_right (Or.imp_right List.mem_of_mem_erase)) }
  have hframe : Frame [] s { s with acceptors := s.acceptors.erase id } := { Frame.refl [] s with }
  have hreleased := hframe.trans (release_frame _ id)
  exact ⟨release_inv hinv hmade, hs.polled.frame hreleased, hreleased.misuse.trans hs.unharmed⟩

/-- The next channel has its table entry, and its handlers end without harm. -/
theorem handle_cases (hs : s.Sound) {io : Io} (hstep : s.handle io = some t) :
    ∃ request rest u, s.pc = .dispatch ∧ s.ready = request :: rest ∧
      s.fd2chan.get (s.chan request).fd = some request ∧ s.handleEvents io request = .ok u ∧
        t = { u with ready := rest } := by
  unfold handle at hstep
  split at hstep
  · rename_i request rest hpc hready
    have hslot := hs.polled.slots request (hready ▸ List.mem_cons_self)
    have hserved := handleEvents_served hs.inv hslot io
    split at hstep
    · rename_i u hrun
      cases hstep
      exact ⟨request, rest, u, hpc, hready, hslot, hrun, rfl⟩
    · rename_i hrun
      rw [hrun] at hserved
      exact hserved.elim
    · cases hstep
  · cases hstep

theorem handle_sound (hs : s.Sound) {io : Io} (hstep : s.handle io = some t) : t.Sound := by
  obtain ⟨request, rest, u, hpc, hready, hslot, hrun, rfl⟩ := handle_cases hs hstep
  have hserved := handleEvents_served hs.inv hslot io
  rw [hrun] at hserved
  obtain ⟨hinv, hframe⟩ : Served _ s u := hserved
  have hnodup := hready ▸ hs.polled.nodup
  obtain ⟨hfresh, hnodup⟩ := List.nodup_cons.mp hnodup
  refine ⟨{ hinv with }, ⟨fun r hr => ?_, hnodup, fun h => absurd (hframe.pc.trans hpc) h⟩,
    hframe.misuse.trans hs.unharmed⟩
  have hget := hs.polled.slots r (hready ▸ List.mem_cons_of_mem request hr)
  have hother : (s.chan r).fd ∉ [(s.chan request).fd] := by
    intro hfd
    rw [List.mem_singleton.mp hfd, hslot, Option.some.injEq] at hget
    exact hfresh (hget ▸ hr)
  calc u.fd2chan.get (u.chan r).fd = u.fd2chan.get (s.chan r).fd := by rw [hframe.fds]
    _ = s.fd2chan.get (s.chan r).fd := hframe.fd2chan _ hother
    _ = some r := hget

theorem swapFunctors_sound (hs : s.Sound) (hstep : s.swapFunctors = some t) : t.Sound := by
  obtain ⟨-, hready, rfl⟩ := swapFunctors_cases hstep
  refine ⟨{ hs.inv with refs := fun id h => ?_ }, .of_empty hready, hs.unharmed⟩
  rcases h with h | h | h
  · exact hs.inv.refs id (Or.inr (Or.inl h))
  · cases h
  · exact hs.inv.refs id (Or.inr (Or.inr h))

theorem functor_sound (hs : s.Sound) {now : Nat} {ctlOk : Bool}
    (hstep : s.functor now ctlOk = some t) : t.Sound := by
  obtain ⟨id, hpc, hget, rfl⟩ := functor_cases hstep
  have hid := hs.inv.refs id (Or.inl (List.mem_of_getElem? hget))
  have hframe := newEvent_frame s id now ctlOk
  have hready : s.ready = [] := hs.polled.idle (by simp [hpc])
  exact ⟨{ newEvent_inv hs.inv hid now ctlOk with }, .of_empty (hframe.ready.trans hready),
    hframe.misuse.trans hs.unharmed⟩

/-- References that are gone already are released one by one. -/
theorem foldl_release_inv {ids : List Nat} (hs : s.Inv) (hids : ∀ id ∈ ids, id < s.made) :
    (ids.foldl release s).Inv ∧ Frame [] s (ids.foldl release s) := by
  induction ids generalizing s with
  | nil => exact ⟨hs, .refl [] s⟩
  | cons id ids ih =>
      have hframe := release_frame s id
      have hrest : ∀ j ∈ ids, j < (s.release id).made := by
        intro j hj
        rw [hframe.made]
        exact hids j (List.mem_cons_of_mem id hj)
      obtain ⟨hinv, hframes⟩ := ih (release_inv hs (hids id List.mem_cons_self)) hrest
      exact ⟨hinv, hframe.trans hframes⟩

theorem endFunctors_sound (hs : s.Sound) (hstep : s.endFunctors = some t) : t.Sound := by
  obtain ⟨hpc, rfl⟩ := endFunctors_cases hstep
  have hready : s.ready = [] := hs.polled.idle (by simp [hpc])
  have hstart : Inv { s with functors := [] } := { hs.inv with
    refs := fun id h => hs.inv.refs id (h.imp_left fun h => by cases h) }
  obtain ⟨hinv, hframe⟩ := foldl_release_inv hstart fun id hid =>
    (hs.inv.refs id (Or.inl hid)).1
  exact ⟨{ hinv with }, .of_empty (hframe.ready.trans hready), hframe.misuse.trans hs.unharmed⟩

theorem sweep_sound (hs : s.Sound) {nid now : Nat} {ctlOk : Bool}
    (hstep : s.sweep nid now ctlOk = some t) : t.Sound := by
  obtain ⟨node, hpc, hnode, -, ⟨-, rfl⟩ | ⟨-, rfl⟩⟩ := sweep_cases hstep
  all_goals have hready : s.ready = [] := hs.polled.idle (by simp [hpc])
  · obtain ⟨touched, hframe⟩ := dropTimer_frame s nid node ctlOk
    exact ⟨dropTimer_inv hs.inv hnode ctlOk, .of_empty (hframe.ready.trans hready),
      hframe.misuse.trans hs.unharmed⟩
  · exact ⟨{ hs.inv with }, .of_empty hready, hs.unharmed⟩

theorem endSweep_sound (hs : s.Sound) (hstep : s.endSweep = some t) : t.Sound := by
  obtain ⟨hpc, -, rfl⟩ := endSweep_cases hstep
  exact ⟨{ hs.inv with }, .of_empty (hs.polled.idle (by simp [hpc])), hs.unharmed⟩

theorem step_sound {a : WorkerStep} (hs : s.Sound) (hstep : s.step a = some t) : t.Sound := by
  cases a with
  | accept fd => exact accept_sound hs hstep
  | acceptorReleases id => exact acceptorReleases_sound hs hstep
  | poll events => exact poll_sound hs hstep
  | handle io => exact handle_sound hs hstep
  | swapFunctors => exact swapFunctors_sound hs hstep
  | functor now ctlOk => exact functor_sound hs hstep
  | endFunctors => exact endFunctors_sound hs hstep
  | sweep nid now ctlOk => exact sweep_sound hs hstep
  | endSweep => exact endSweep_sound hs hstep

theorem created_tables (wakeupFd : Nat) (ctlOk : Bool) (fd : Nat) :
    (created wakeupFd ctlOk).fd2http.get fd = none ∧ ∀ request,
      (created wakeupFd ctlOk).fd2chan.get fd = some request → request = .wakeup ∧ wakeupFd = fd := by
  by_cases hfd : fd = wakeupFd
  · subst hfd
    cases ctlOk
    · exact ⟨Table.get_reset_self _ _, fun request h => by
        cases (Table.get_reset_self _ _).symm.trans h⟩
    · exact ⟨Table.get_reset_self _ _, fun request h => by
        cases (Table.get_set_self _ _ _).symm.trans h
        exact ⟨rfl, rfl⟩⟩
  · have hnone : (Table.empty.set wakeupFd ChannelRef.wakeup).get fd = none :=
      Table.get_set_of_ne _ hfd _
    have hhttp : (Table.empty.reset wakeupFd : Table Nat).get fd = none := Table.get_reset_of_ne _ hfd
    cases ctlOk
    · exact ⟨(Table.get_reset_of_ne _ hfd).trans hhttp, fun request h => by
        cases ((Table.get_reset_of_ne _ hfd).trans hnone).symm.trans h⟩
    · exact ⟨hhttp, fun request h => by cases hnone.symm.trans h⟩

theorem created_objects (wakeupFd : Nat) (ctlOk : Bool) (id : Nat) :
    (created wakeupFd ctlOk).objects id = ⟨Conn.fresh 0, none, false, false, false⟩ := by
  cases ctlOk <;> rfl

theorem created_timers (wakeupFd : Nat) (ctlOk : Bool) (nid : Nat) :
    (created wakeupFd ctlOk).timers.get nid = none := by
  cases ctlOk <;> rfl

theorem created_sound (wakeupFd : Nat) (ctlOk : Bool) : (created wakeupFd ctlOk).Sound := by
  have htables := created_tables wakeupFd ctlOk
  have hhttp (fd id : Nat) : (created wakeupFd ctlOk).fd2http.get fd ≠ some id := by
    simp [(htables fd).1]
  have hdead (id : Nat) : ¬ (created wakeupFd ctlOk).Live id := by
    rintro ⟨hmade, -⟩
    cases ctlOk <;> exact absurd hmade (Nat.not_lt_zero id)
  have hobject := created_objects wakeupFd ctlOk
  have htimers := created_timers wakeupFd ctlOk
  have hwakeup : (created wakeupFd ctlOk).wakeupChannel.fd = wakeupFd := by
    cases ctlOk <;> rfl
  have hrefs : (created wakeupFd ctlOk).functors = [] ∧ (created wakeupFd ctlOk).pendingFunctors = [] ∧
      (created wakeupFd ctlOk).acceptors = [] := by
    cases ctlOk <;> exact ⟨rfl, rfl, rfl⟩
  have hready : (created wakeupFd ctlOk).ready = [] := by
    cases ctlOk <;> rfl
  have hmisuse : (created wakeupFd ctlOk).misuse = false := by
    cases ctlOk <;> rfl
  refine ⟨?_, .of_empty hready, hmisuse⟩
  exact {
    paired := fun fd id =>
      ⟨fun h => ChannelRef.noConfusion ((htables fd).2 _ h).1, fun h => absurd h (hhttp fd id)⟩
    slots := fun fd id h => absurd h (hhttp fd id)
    wakeupSlot := fun fd h => hwakeup.trans ((htables fd).2 _ h).2
    sameFd := fun id => by rw [hobject]; rfl
    distinct := fun i _ hi => absurd hi (hdead i)
    foreign := fun id hid => absurd hid (hdead id)
    holders := fun nid node id h => by simp [htimers] at h
    refs := fun id h => by simp [hrefs] at h
    links := fun id nid node h => by simp [hobject] at h
    numbered := fun nid node h => by simp [htimers] at h
    linkNumbered := fun id nid h => by simp [hobject] at h
    kept := fun id hid => absurd hid (hdead id)
    gone := fun id h => by simp [hobject] at h }

theorem run_sound {wakeupFd : Nat} {ctlOk : Bool} {as : List WorkerStep}
    (hrun : Run step (fun _ _ => True) (created wakeupFd ctlOk) as t) : t.Sound :=
  hrun.invariant (fun _ _ _ _ hstep hs => step_sound hs hstep) (created_sound wakeupFd ctlOk)

/-- **No callback on a destroyed connection.** The channels about to be handled are those of live
connections, no handler was ever called on a destroyed one, and a connection that was added to the
poller is destroyed only after it was removed from it. The entries of the two tables for a descriptor
are set for the same connection, a live one with that descriptor. -/
theorem run_lifetime {wakeupFd : Nat} {ctlOk : Bool} {as : List WorkerStep}
    (hrun : Run step (fun _ _ => True) (created wakeupFd ctlOk) as t) :
    t.misuse = false ∧ (∀ id, .http id ∈ t.ready → t.Live id) ∧
      (∀ id, (t.objects id).destroyed = true → (t.objects id).registered = true →
        (t.objects id).removed = true) ∧
      (∀ fd id, t.fd2chan.get fd = some (.http id) ↔ t.fd2http.get fd = some id) ∧
      ∀ fd id, t.fd2http.get fd = some id → t.Live id ∧ (t.objects id).conn.chan.fd = fd := by
  obtain ⟨hinv, hpolled, hunharmed⟩ := run_sound hrun
  refine ⟨hunharmed, fun id hid => ?_, hinv.gone, hinv.paired, hinv.slots⟩
  exact (hinv.slots _ id ((hinv.paired _ id).mp (hpolled.slots _ hid))).1

/-- A connection is accepted, added, and closed when its peer has; its descriptor is used again. -/
theorem run_lifetime_reuse :
    ∃ t : Worker, (t.objects 0).destroyed = true ∧ (t.objects 0).removed = true ∧
      t.fd2http.get 5 = some 1 ∧ t.Live 1 ∧ t.misuse = false := by
  have hexec : (exec (checked step fun _ _ => True) (created 3 true)
      [.accept 5, .acceptorReleases 0, .poll [(3, EPOLLIN)], .handle ⟨someHost, [], [], 0, true⟩,
        .swapFunctors, .functor 0 true, .endFunctors, .sweep 0 1 true, .poll [(5, EPOLLIN)],
        .handle ⟨someHost, [.eof], [], 2, true⟩, .accept 5, .swapFunctors, .functor 3 true]).map
          (fun t => ((t.objects 0).destroyed, (t.objects 0).removed, t.fd2http.get 5)) =
            some (true, true, some 1) := by
    decide +kernel
  obtain ⟨t, ht, hends⟩ := Option.map_eq_some_iff.mp hexec
  obtain ⟨hdestroyed, hremoved, hslot⟩ : _ ∧ _ ∧ _ := by simpa only [Prod.mk.injEq] using hends
  obtain ⟨hunharmed, -, -, -, hslots⟩ := run_lifetime (run_of_exec_checked ht)
  exact ⟨t, hdestroyed, hremoved, hslot, (hslots 5 1 hslot).1, hunharmed⟩

end Worker

end WebServer
