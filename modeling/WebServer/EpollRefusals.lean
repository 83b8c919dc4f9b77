import WebServer.EpollHistory
import WebServer.HttpUnanswered

/-! What a worker makes of its clients. Since `handleRead` takes a header that is complete for one of which
more is to come, no connection ever gets past its headers: none has output, and none is answered but with the
status 400. All that can keep the loop from its next channel is the length of an input: a log record of it
is lost, or its header cannot be cut. -/

namespace WebServer

open Runs Stages

/-- There is nothing to send, and nothing was sent but what the kernel took of a response 400. -/
structure Refusing (c : Conn) : Prop where
  unanswered : Unanswered c.http
  outBuffer : c.http.outBuffer = []
  silent : c.http.error = false → c.sock.sent = []
  refused : c.http.error = true → ∃ shortMsg header body, c.sock.sent = header ++ body ∧
    header <+: cstr (errorHeader 400 shortMsg) ∧ body <+: cstr (errorBody 400 shortMsg)

theorem fresh_refusing (fd : Nat) : Refusing (Conn.fresh fd) :=
  ⟨⟨rfl, Or.inl rfl, by simp [Conn.fresh, HttpData.new], by simp [Conn.fresh, HttpData.new]⟩, rfl,
    fun _ => rfl, fun h => nomatch h⟩

/-- The section rejects, or reads and parses on; it goes on in the latter case only. -/
def Declining (s : Section) : Prop :=
  s.Leads (fun c d => Unanswered c.http → Unanswered d.http ∧ Parses c d)
    (fun c d => Unanswered c.http → Parses c d ∨ Rejects c d)

theorem Parses.trans {c d e : Conn} (h : Parses c d) (h' : Parses d e) : Parses c e :=
  ⟨h'.fd.trans h.fd, h'.error.trans h.error, h'.outBuffer.trans h.outBuffer, h'.chan.trans h.chan,
    h'.sent.trans h.sent, h'.writes.trans h.writes, h'.calls.trans h.calls⟩

theorem Declining.seq {first second : Section} (hfirst : Declining first) (hsecond : Declining second) :
    Declining (first.seq second) := by
  refine Stage.Leads.seq (fun c d e hcd hde hc => ?_) (fun c d e hcd hde hc => ?_) hfirst hsecond
  · obtain ⟨hd, hparses⟩ := hcd hc
    obtain ⟨he, hparses'⟩ := hde hd
    exact ⟨he, hparses.trans hparses'⟩
  · obtain ⟨hd, hparses⟩ := hcd hc
    rcases hde hd with hparses' | ⟨m, shortMsg, hshort, hm, rfl⟩
    · exact Or.inl (hparses.trans hparses')
    · exact Or.inr ⟨m, shortMsg, hshort, hparses.trans hm, rfl⟩

theorem Parsing.declining {s : Section} (hs : Parsing s) (hkeeps : Unanswering s) : Declining s := by
  intro c flow d hrun
  have hleads := hs c flow d hrun
  cases flow with
  | next => exact fun hc => ⟨(hkeeps c _ d hrun hc).1, hleads⟩
  | brk => exact fun _ => hleads

theorem analysisSection_declining (fs : FileSystem) : Declining (analysisSection fs) := by
  intro c flow d hrun
  by_cases hstate : c.http.state = .analysis
  · cases flow with
    | next => exact fun hc => absurd hstate hc.unanalysed
    | brk => exact fun hc => absurd hstate hc.unanalysed
  · cases (analysisSection_skip hstate).symm.trans hrun
    exact fun hc => ⟨hc, .refl c⟩

theorem handleReadBody_declining (host : Host) : Declining (handleReadBody host) :=
  .seq ((readSection_parsing host).declining (readSection_unanswering host)) <|
    .seq ((uriSection_parsing host).declining (uriSection_unanswering host)) <|
      .seq ((headersSection_parsing host).declining (headersSection_unanswering host)) <|
        .seq (bodySection_parsing.declining bodySection_unanswering) <| analysisSection_declining host.files

/-- The kernel takes a beginning of what `writen` offers it. -/
theorem writenBuff_sent (sock : Socket) (buff : Bytes) :
    ∃ taken, taken <+: buff ∧ (writenBuff sock buff).sent = sock.sent ++ taken := by
  have hsplit := writenLoop_split false sock.writes [] buff
  exact ⟨(writenLoop false sock.writes [] buff).accepted, ⟨_, hsplit⟩, rfl⟩

theorem Rejects.refusing {c d : Conn} (h : Rejects c d) (hc : Refusing c) (herror : c.http.error = false)
    (hd : Unanswered d.http) : Refusing d := by
  obtain ⟨m, shortMsg, -, hm, rfl⟩ := h
  obtain ⟨header, hheader, hsent⟩ := writenBuff_sent m.sock (cstr (errorHeader 400 shortMsg))
  obtain ⟨body, hbody, hsent'⟩ := writenBuff_sent (writenBuff m.sock (cstr (errorHeader 400 shortMsg)))
    (cstr (errorBody 400 shortMsg))
  refine ⟨hd, hm.outBuffer.trans hc.outBuffer, (nomatch ·), fun _ => ?_⟩
  refine ⟨shortMsg, header, body, ?_, hheader, hbody⟩
  calc (rejected shortMsg m).sock.sent = m.sock.sent ++ header ++ body := by rw [← hsent, ← hsent']; rfl
    _ = header ++ body := by rw [hm.sent, hc.silent herror, List.nil_append]

/-- **`handleRead` declines**: where it returns, the connection is in the parsing states, was answered with 400
or not at all, and asks for no events. -/
theorem handleRead_refusing {host : Host} {c d : Conn} (hc : Refusing c) (herror : c.http.error = false)
    (hrun : handleRead host c = .ok d) : Refusing d ∧ d.chan = c.chan := by
  rw [handleRead, handleReadN_unanswered host 1 hc.unanswered] at hrun
  obtain ⟨flow, e, hbody, hend⟩ := handleReadPass_cases hrun
  obtain ⟨he, -⟩ := handleReadBody_unanswering host c flow e hbody hc.unanswered
  have hdeclines : Parses c e ∨ Rejects c e := by
    have hleads := handleReadBody_declining host c flow e hbody
    cases flow with
    | next => exact Or.inl (hleads hc.unanswered).2
    | brk => exact hleads hc.unanswered
  rcases hdeclines with hparses | hrejects
  · have herror' : e.http.error = false := hparses.error.trans herror
    have hout := hparses.outBuffer.trans hc.outBuffer
    have hwritten : d = e := by
      rcases hend with ⟨hfailed, -⟩ | ⟨-, rfl⟩
      · exact absurd (herror'.symm.trans hfailed) (by decide)
      · exact handleWrite_empty hout
    subst hwritten
    refine ⟨⟨he, hout, fun _ => hparses.sent.trans (hc.silent herror), fun h => ?_⟩, hparses.chan⟩
    rw [herror'] at h
    cases h
  · obtain ⟨m, shortMsg, -, hm, rfl⟩ := id hrejects
    rcases hend with ⟨-, rfl⟩ | ⟨hopen, -⟩
    · exact ⟨hrejects.refusing hc herror he, hm.chan⟩
    · cases hopen

theorem handleConn_refusing {c : Conn} (hc : Refusing c) : Refusing (handleConn c) := by
  obtain ⟨⟨hheaders, hplain, hanalysis, hfinish⟩, hout, hsilent, hrefused⟩ := hc
  unfold handleConn seperateTimer
  simp only []
  split_ifs <;> exact ⟨⟨hheaders, hplain, hanalysis, hfinish⟩, hout, hsilent, hrefused⟩

namespace Worker

variable {s t : Worker}

/-- The calls of a handler meet no fault but a destroyed connection. -/
theorem calls_fault {id : Nat} {io : Io} {ks : List Call} {e : LoopFault}
    (hrun : ks.foldlM (call id io) t = .error e) : e = .destroyed := by
  induction ks generalizing t with
  | nil => cases hrun
  | cons k ks ih =>
      rw [List.foldlM_cons] at hrun
      cases hcall : call id io t k with
      | ok u =>
          rw [hcall] at hrun
          exact ih hrun
      | error f =>
          rw [hcall] at hrun
          cases hrun
          unfold call at hcall
          split_ifs at hcall
          · cases k <;> cases hcall
          · cases hcall
            rfl

/-- A handler before `handleConn` that returns for the connection. -/
theorem callback_returns {E : LoopFault → Prop} {P : Worker → Prop} {id : Nat} (io : Io)
    {handler : Conn → Except Fault Conn}
    {c : Conn} (hrun : handler (t.objects id).conn = .ok c) (hc : Tame (t.objects id).conn c)
    (hP : P (t.setConn id c)) (hclear : ∀ t, Serving id s t → P t → P (t.clearTimer id))
    (h : Serving id s t) :
    Safe E (fun u => Serving id s u ∧ P u) (callback id io handler t) := by
  obtain ⟨new, hnew, hks⟩ := hc.calls
  have hcalls := calls_rule io hclear (h.setConn hc.httpFd hc.chanFd) hP hks
  rw [callback, if_pos h.live, hrun]
  simp only [hnew, List.drop_left]
  cases hend : new.foldlM (call id io) (t.setConn id c) with
  | ok u =>
      rw [hend] at hcalls
      exact hcalls
  | error e =>
      rw [hend, calls_fault hend] at hcalls
      exact hcalls.elim

/-- In the midst of `handleEvents`, before the first handler. -/
structure Declined (id : Nat) (s t : Worker) : Prop where
  serving : Serving id s t
  refusing : Refusing (t.objects id).conn

theorem Declined.setConn {id : Nat} {c : Conn} (h : Declined id s t) (hc : Tame (t.objects id).conn c)
    (hrefusing : Refusing c) : Declined id s (t.setConn id c) := by
  refine ⟨h.serving.setConn hc.httpFd hc.chanFd, ?_⟩
  rw [setConn_conn]
  exact hrefusing

/-- Changes outside the handlers leave a connection as it is in this respect. -/
theorem refusing_routine :
    Routine fun o o' => (Refusing o.conn → Refusing o'.conn) ∧ o'.conn.http.error = o.conn.http.error ∧
      (o.removed = true → o'.removed = true) where
  refl := fun _ => ⟨fun h => h, rfl, fun h => h⟩
  trans := fun h h' => ⟨fun ho => h'.1 (h.1 ho), h'.2.1.trans h.2.1, fun ho => h'.2.2 (h.2.2 ho)⟩
  chan := fun _ _ _ => ⟨fun h => ⟨h.unanswered, h.outBuffer, h.silent, h.refused⟩, rfl, fun h => h⟩
  disconnected := fun _ => ⟨fun h => ⟨⟨h.unanswered.headers, h.unanswered.plain, h.unanswered.unanalysed,
    h.unanswered.unfinished⟩, h.outBuffer, h.silent, h.refused⟩, rfl, fun h => h⟩
  timer := fun _ _ => ⟨fun h => h, rfl, fun h => h⟩
  removed := fun _ => ⟨fun h => h, rfl, fun _ => rfl⟩
  destroyed := fun _ => ⟨fun h => h, rfl, fun h => h⟩

/-- The log records that the events of a channel lead to go through, and its input can be cut. -/
def Heard (s : Worker) (io : Io) : ChannelRef → Prop
  | .wakeup => True
  | .http id => ¬ (s.objects id).conn.chan.revents.Ignored →
      (s.objects id).conn.chan.revents.has (EPOLLIN ||| EPOLLPRI ||| EPOLLRDHUP) →
        ((s.meet id io).objects id).conn.Logged io.host

/-- They do if there is room for the input of the connection. -/
theorem heard_of_room {id n : Nat} {io : Io} (hroom : io.host.HasRoom n)
    (hn : (readn io.reads (s.objects id).conn.http.inBuffer).inBuffer.length ≤ n) : s.Heard io (.http id) := by
  intro _ _
  rw [meet, setConn_conn]
  exact Conn.logged_of_room hroom hn

theorem clearTimer_refusing {id : Nat} (h : Refusing (t.objects id).conn) :
    Refusing ((t.clearTimer id).objects id).conn := by
  rw [clearTimer_conn]
  exact h

theorem Declined.clearEvents {id : Nat} (h : Declined id s t) : Declined id s (t.clearEvents (.http id)) := by
  obtain ⟨hunanswered, hout, hsilent, hrefused⟩ := h.refusing
  exact h.setConn (clearEvents_tame _) ⟨hunanswered, hout, hsilent, hrefused⟩

/-- `handleRead` returns for the connection just if its records go through. -/
theorem callback_handleRead_refusing {id : Nat} (io : Io) (h : Declined id s t)
    (herror : (t.objects id).conn.http.error = false) :
    Safe (fun _ => ¬ (t.objects id).conn.Logged io.host)
      (fun u => (t.objects id).conn.Logged io.host ∧ Declined id s u)
      (callback id io (handleRead io.host) t) := by
  have hlogged := handleRead_ok_iff io.host h.refusing.unanswered
  cases hread : handleRead io.host (t.objects id).conn with
  | ok d =>
      have hd : Refusing ((t.setConn id d).objects id).conn := by
        rw [setConn_conn]
        exact (handleRead_refusing h.refusing herror hread).1
      have hreturns : Safe (fun _ => ¬ (t.objects id).conn.Logged io.host)
          (fun u => Serving id s u ∧ Refusing (u.objects id).conn) (callback id io (handleRead io.host) t) :=
        callback_returns io hread (handleRead_tame hread) hd (fun _ _ => clearTimer_refusing) h.serving
      exact hreturns.imp fun _ hu => ⟨hlogged.mp ⟨d, hread⟩, hu.1, hu.2⟩
  | error f =>
      rw [callback, if_pos h.serving.live, hread]
      intro hlog
      obtain ⟨d, hd⟩ := hlogged.mpr hlog
      cases hread.symm.trans hd

theorem callback_handleWrite_refusing {E : LoopFault → Prop} {id : Nat} (io : Io) (h : Declined id s t) :
    Safe E (Declined id s) (callback id io (fun c => .ok (handleWrite c)) t) := by
  have hwritten : Refusing ((t.setConn id (handleWrite (t.objects id).conn)).objects id).conn := by
    rw [setConn_conn, handleWrite_empty h.refusing.outBuffer]
    exact h.refusing
  have hreturns : Safe E (fun u => Serving id s u ∧ Refusing (u.objects id).conn)
      (callback id io (fun c => .ok (handleWrite c)) t) :=
    callback_returns io rfl (handleWrite_tame _) hwritten (fun _ _ => clearTimer_refusing) h.serving
  exact hreturns.imp fun _ hu => ⟨hu.1, hu.2⟩

theorem callback_handleConn_refusing {E : LoopFault → Prop} {id : Nat} (io : Io) (h : Declined id s t) :
    Safe E (fun u => Refusing (u.objects id).conn) (callback id io (fun c => .ok (handleConn c)) t) := by
  have hseparated : Refusing ((t.separated id).objects id).conn := by
    rw [separated, clearTimer_conn, setConn_conn]
    exact handleConn_refusing h.refusing
  rcases callback_handleConn_cases io h.serving with ⟨-, hrun⟩ | ⟨timeout, -, -, hrun⟩ | ⟨-, hrun⟩
  all_goals rw [hrun]
  · exact hseparated
  · exact (epollMod_along refusing_routine _ (.http id) timeout io.now io.ctlOk id).1 hseparated
  · exact (handleClose_along refusing_routine _ id io.ctlOk id).1 hseparated

/-- **One `handleEvents`** of a connection that is not in error: it ends with the connection refused, or
the input is not heard. -/
theorem handleEvents_refusing {id : Nat} (hs : Serving id s s) (hc : Refusing (s.objects id).conn)
    (herror : (s.objects id).conn.http.error = false) (io : Io) :
    Safe (fun _ => ¬ s.Heard io (.http id)) (fun u => s.Heard io (.http id) ∧ Refusing (u.objects id).conn)
      (s.handleEvents io (.http id)) := by
  have hmeet : Declined id s (s.meet id io) :=
    Declined.setConn ⟨hs, hc⟩ (meet_tame _ io) ⟨hc.unanswered, hc.outBuffer, hc.silent, hc.refused⟩
  have hstart : (((s.meet id io).clearEvents (.http id)).objects id).conn.http.error = false ∧
      SameInput (((s.meet id io).clearEvents (.http id)).objects id).conn
        ((s.meet id io).objects id).conn := by
    show (((s.meet id io).setConn id _).objects id).conn.http.error = false ∧
      SameInput (((s.meet id io).setConn id _).objects id).conn _
    rw [setConn_conn]
    refine ⟨?_, rfl, rfl, rfl, rfl, rfl, rfl, rfl, rfl, rfl, rfl⟩
    show ((s.meet id io).objects id).conn.http.error = false
    rw [meet, setConn_conn]
    exact herror
  rw [handleEvents]
  by_cases hignored : (s.objects id).conn.chan.revents.Ignored
  · rw [handleEvents_ignored hignored]
    exact ⟨fun h => absurd hignored h, hmeet.clearEvents.clearEvents.refusing⟩
  refine handleEvents_steps (P := fun u => Declined id s u ∧ (u.objects id).conn.http.error = false ∧
      SameInput (u.objects id).conn ((s.meet id io).objects id).conn)
    (R := fun u => s.Heard io (.http id) ∧ Declined id s u)
    (fun hin u hu => ?_) (fun hin u hu => ⟨fun _ h => absurd h hin, hu.1⟩)
    (fun u hu => ?_) (fun u hu => ?_) (fun h => absurd h hignored) ⟨hmeet.clearEvents, hstart⟩
  · obtain ⟨hdeclined, hopen, hinput⟩ := hu
    have hread := callback_handleRead_refusing io hdeclined hopen
    have hheard : (u.objects id).conn.Logged io.host ↔ s.Heard io (.http id) :=
      (hinput.logged_iff io.host).trans ⟨fun h _ _ => h, fun h => h hignored hin⟩
    rw [hheard] at hread
    exact hread
  · exact (callback_handleWrite_refusing io hu.2).imp fun _ h => ⟨hu.1, h⟩
  · exact (callback_handleConn_refusing io hu.2).imp fun _ h => ⟨hu.1, h⟩

/-- Every connection was refused or is still to be, and one that is in error is removed. -/
structure Refuses (s : Worker) : Prop where
  refusing : ∀ id < s.made, Refusing (s.objects id).conn
  removed : ∀ id < s.made, (s.objects id).conn.http.error = true → (s.objects id).removed = true

/-- A connection in error is not served. -/
theorem Refuses.unserved {log : List Nat} (h : s.Refuses) (he : Enrolled log s) {id : Nat}
    (hserving : Serving id s s) : (s.objects id).conn.http.error = false := by
  by_contra hfailed
  have hremoved := h.removed id hserving.live.1 (by simpa using hfailed)
  exact (he.tidy.retired id hremoved).1 hserving.slot

theorem step_refuses {log : List Nat} {a : WorkerStep} (he : Enrolled log s) (h : s.Refuses)
    (hstep : s.step a = some t) : t.Refuses := by
  have hkept (id : Nat) (hid : id < s.made) : Refusing (t.objects id).conn ∧
      ((t.objects id).conn.http.error = true → (t.objects id).removed = true) := by
    rcases step_along refusing_routine he.sound hid hstep with ⟨hrefusing, herror, hremoved⟩ |
      ⟨now, ctlOk, o, -, -, ⟨hrefusing, herror, hremoved⟩, hself⟩ | ⟨io, rest, u, -, -, hserving, hrun, rfl⟩
    · exact ⟨hrefusing (h.refusing id hid), fun hfailed =>
        hremoved (h.removed id hid (herror ▸ hfailed))⟩
    · rw [hself]
      exact ⟨hrefusing (h.refusing id hid), fun hfailed =>
        hremoved (h.removed id hid (herror ▸ hfailed))⟩
    · have herror := h.unserved he hserving
      have hend := handleEvents_refusing hserving (h.refusing id hid) herror io
      have hprogress := handleEvents_progress ⟨hserving, .refl, herror⟩ io
      rw [hrun] at hend hprogress
      exact ⟨hend.2, fun hfailed => (hprogress.2 hfailed).removed⟩
  have hall (id : Nat) (hid : id < t.made) : Refusing (t.objects id).conn ∧
      ((t.objects id).conn.http.error = true → (t.objects id).removed = true) := by
    rcases (step_calls he.sound he.tidy he.paced hstep).fresh hstep hid with hold | ⟨fd, -, rfl, rfl⟩
    · exact hkept id hold
    · rw [s.handNewConn_new fd]
      exact ⟨fresh_refusing fd, fun h => nomatch h⟩
  exact ⟨fun id hid => (hall id hid).1, fun id hid => (hall id hid).2⟩

theorem run_refuses {wakeupFd : Nat} {ctlOk : Bool} {as : List WorkerStep}
    (hrun : Run step (fun _ _ => True) (created wakeupFd ctlOk) as t) :
    Enrolled (emitted step begins (created wakeupFd ctlOk) as) t ∧ t.Refuses := by
  have hnone : (created wakeupFd ctlOk).made = 0 := by
    cases ctlOk <;> rfl
  have hstart : (created wakeupFd ctlOk).Refuses :=
    ⟨fun id hid => absurd hid (by omega), fun id hid => absurd hid (by omega)⟩
  have hend : Enrolled ([] ++ emitted step begins (created wakeupFd ctlOk) as) t ∧ t.Refuses :=
    hrun.emitted_invariant (I := fun s log => Enrolled log s ∧ s.Refuses)
      (fun _ _ _ _ _ hstep h => ⟨step_enrolled h.1 hstep, step_refuses h.1 h.2 hstep⟩)
      ⟨created_enrolled wakeupFd ctlOk, hstart⟩
  exact hend

/-- The handlers of the next channel return just if its log records go through. -/
theorem Refuses.handle_iff {log : List Nat} (h : s.Refuses) (he : Enrolled log s) (hpc : s.pc = .dispatch)
    {request : ChannelRef} {rest : List ChannelRef} (hready : s.ready = request :: rest) (io : Io) :
    (∃ u, s.handle io = some u) ↔ s.Heard io request := by
  simp only [handle, hpc, hready]
  cases request with
  | wakeup => exact iff_of_true ⟨_, rfl⟩ trivial
  | http id =>
      have hslot := he.sound.polled.slots (.http id) (hready ▸ List.mem_cons_self)
      have hserving : Serving id s s := ⟨he.sound.inv, (he.sound.inv.paired _ id).mp hslot, .refl [] s⟩
      have hend := handleEvents_refusing hserving (h.refusing id hserving.live.1) (h.unserved he hserving) io
      have hunharmed := handleEvents_served he.sound.inv hslot io
      cases hrun : s.handleEvents io (.http id) with
      | ok u =>
          rw [hrun] at hend
          exact iff_of_true ⟨_, rfl⟩ hend.1
      | error e =>
          rw [hrun] at hend hunharmed
          cases e with
          | destroyed => exact hunharmed.elim
          | handler f =>
              refine iff_of_false ?_ hend
              rintro ⟨u, hu⟩
              cases hu

/-- **No client is answered.** In every run of a worker, whatever its clients send and the system calls answer,
each connection is still in the parsing states with nothing to send; it has sent nothing, or is in error, was
removed from the poller, and has sent a beginning of the two parts of a response 400. No handler throws but
for the length of its input: the channel that is next can be handled just if its log records go through and its
header can be cut. -/
theorem run_refusals {wakeupFd : Nat} {ctlOk : Bool} {as : List WorkerStep}
    (hrun : Run step (fun _ _ => True) (created wakeupFd ctlOk) as t) :
    (∀ id < t.made, Refusing (t.objects id).conn ∧
        ((t.objects id).conn.http.error = true → (t.objects id).removed = true)) ∧
      (t.pc = .dispatch → ∀ request rest, t.ready = request :: rest →
        ∀ io, (∃ u, t.handle io = some u) ↔ t.Heard io request) := by
  obtain ⟨he, h⟩ := run_refuses hrun
  exact ⟨fun id hid => ⟨h.refusing id hid, h.removed id hid⟩,
    fun hpc _ _ hready io => h.handle_iff he hpc hready io⟩

/-- A connection is added to the poller, and its client has sent something. -/
def firstInput : List WorkerStep :=
  [.accept 5, .acceptorReleases 0, .poll [(3, EPOLLIN)], .handle ⟨someHost, [], [], 0, true⟩, .swapFunctors,
    .functor 0 true, .endFunctors, .sweep 0 1 true, .poll [(5, EPOLLIN)]]

/-- It is a request with one header. -/
def oneHeader : Io := ⟨someHost, deliver (bytes "GET / HTTP/1.1\r\nHost: a\r\n\r\n"), [], 2, true⟩

/-- Its records go through, and the client gets a response 400. -/
theorem run_refusals_get :
    ∃ s t : Worker, s.handle oneHeader = some t ∧ (t.objects 0).conn.sock.sent.length = 236 ∧
      (t.objects 0).removed = true ∧ ∃ shortMsg header body, (t.objects 0).conn.sock.sent = header ++ body ∧
        header <+: cstr (errorHeader 400 shortMsg) ∧ body <+: cstr (errorBody 400 shortMsg) := by
  have hexec : (exec (checked step fun _ _ => True) (created 3 true) firstInput).map
        (fun s => (s.pc, s.ready, (s.objects 0).conn.http.inBuffer.length)) = some (.dispatch, [.http 0], 0) ∧
      ((exec (checked step fun _ _ => True) (created 3 true) firstInput).bind (handle · oneHeader)).map
        (fun t => (t.made, (t.objects 0).conn.http.error, (t.objects 0).conn.sock.sent.length)) =
          some (1, true, 236) := by
    decide +kernel
  obtain ⟨hstart, hend⟩ := hexec
  obtain ⟨s, hs, hends⟩ := Option.map_eq_some_iff.mp hstart
  obtain ⟨hpc, hready, hempty⟩ : _ ∧ _ ∧ _ := by simpa only [Prod.mk.injEq] using hends
  have hheard : s.Heard oneHeader (.http 0) := by
    refine heard_of_room (n := 100) (by decide) ?_
    rw [List.length_eq_zero_iff.mp hempty, oneHeader, readn_deliver]
    decide
  obtain ⟨t, ht⟩ := ((run_refusals (run_of_exec_checked hs)).2 hpc _ _ hready _).mpr hheard
  rw [hs, Option.bind_some, ht, Option.map_some, Option.some.injEq, Prod.mk.injEq, Prod.mk.injEq] at hend
  obtain ⟨hmade, herror, hlength⟩ := hend
  have hstep : s.step (.handle oneHeader) = some t := ht
  obtain ⟨hrefusing, hremoved⟩ :=
    (run_refusals ((run_of_exec_checked hs).append (.cons trivial hstep (.nil t)))).1 0 (by omega)
  exact ⟨s, t, ht, hlength, hremoved herror, hrefusing.refused herror⟩

end Worker

end WebServer
