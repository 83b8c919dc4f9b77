import WebServer.HttpHandleConn

/-! Connections that are used again. `reset` leaves three things of the last request where they are: the
method and the version, which the next request line writes before they are read, and `m_keepAlive`,
which `handleConn` reads and nothing clears. -/

namespace WebServer

open Stages

/-- An event of the channel, with what the system calls answer in its handlers. -/
structure ChannelEvent where
  revents : EventMask
  host : Host
  reads : List ReadOutcome
  writes : List WriteOutcome

/-- The connection when its handlers begin: `getEventsReqeust` has set the events of its channel. -/
def Conn.reported (c : Conn) (e : ChannelEvent) : Conn := { c with
  chan := { c.chan with revents := e.revents, events := 0 }
  sock := { c.sock with reads := e.reads, writes := e.writes } }

/-- What `HttpData::handleClose` sets, where the handlers before have called it. -/
def Conn.closed (c : Conn) (before : List Call) : Conn :=
  if .handleClose ∈ c.calls.drop before.length then { c with http.connectionState := .disconnected } else c

/-- One event of the channel. -/
def Conn.event (c : Conn) (e : ChannelEvent) : Except Fault Conn := do
  let d ← handleEvents e.revents Conn.clearEvents (handleRead e.host) (fun c => .ok (handleWrite c))
    (fun c => .ok (handleConn c)) (c.reported e)
  return d.closed c.calls

def Call.timeout : Call → Option Int
  | .updatePoller timeout => some timeout
  | .clearTimer | .handleError _ _ | .handleClose => none

/-- What is seen of a connection: its output, `m_error`, and the timeouts given to the poller. -/
def Conn.observe (c : Conn) : Bytes × Bool × List Int :=
  (c.sock.sent, c.http.error, c.calls.filterMap Call.timeout)

/-- The connection after `reset`, where its output and its calls are recorded from then on. -/
def Conn.renewed (c : Conn) : Conn := { reset c with sock := ⟨[], [], []⟩, calls := [] }

/-- In all that follows the connection is seen to do what a new one does. -/
def Conn.SameAsFresh (c : Conn) : Prop :=
  ∀ es : List ChannelEvent, (es.foldlM Conn.event c.renewed).map Conn.observe =
    (es.foldlM Conn.event (Conn.fresh c.http.fd)).map Conn.observe

/-- The connection with another method and version, and another channel. -/
def Conn.apart (c : Conn) (m : HttpMethod) (v : HttpVersion) (ch : Channel) : Conn :=
  { c with http.method := m, http.httpVersion := v, chan := ch }

/-- The connections differ in their channels, the version, and the method, which is the same once the
request line has been read. -/
def Akin (c d : Conn) : Prop :=
  ∃ m v ch, d = c.apart m v ch ∧ (c.http.state ≠ .parseURI → m = c.http.method)

/-- Besides, their channels have the same events. -/
def Alike (c d : Conn) : Prop :=
  ∃ m v ch, d = c.apart m v ch ∧ (c.http.state ≠ .parseURI → m = c.http.method) ∧
    ch.events = c.chan.events

theorem Alike.akin {c d : Conn} (h : Alike c d) : Akin c d := by
  obtain ⟨m, v, ch, hd, hm, -⟩ := h
  exact ⟨m, v, ch, hd, hm⟩

theorem Akin.observe {c d : Conn} (h : Akin c d) : c.observe = d.observe := by
  obtain ⟨m, v, ch, rfl, -⟩ := h
  rfl

theorem Akin.reported {c d : Conn} (h : Akin c d) (e : ChannelEvent) :
    Alike (c.reported e) (d.reported e) := by
  obtain ⟨m, v, ch, rfl, hm⟩ := h
  exact ⟨m, v, _, rfl, hm, rfl⟩

/-- The same input is logged on both sides. -/
theorem readSection_lockstep (host : Host) : Stage.Lockstep (readSection host) Alike := by
  rintro c d ⟨m, v, ch, rfl, hm, hevents⟩
  unfold Conn.apart readSection
  simp only [badRequest_ok shortMsg_badRequest]
  cases host.logRequest (readn c.sock.reads c.http.inBuffer).inBuffer with
  | error f => exact rfl
  | ok a =>
      simp only [ok_bind]
      split_ifs
      all_goals exact ⟨rfl, m, v, ch, rfl, hm, hevents⟩

theorem parseVersion_any (line : Bytes) (pos : Nat) :
    ∃ flag, ∀ r, ∃ s, parseVersion r line pos = .ok (flag, s) ∧ s.method = r.method ∧
      s.fileName = r.fileName := by
  unfold parseVersion
  simp only [Nat.not_lt_zero, if_false, substr_ok _ (addSize_find_le line slash pos), bind, Except.bind,
    pure, Except.pure]
  split_ifs
  · exact ⟨.error, fun r => ⟨r, rfl, rfl, rfl⟩⟩
  · exact ⟨.success, fun r => ⟨_, rfl, rfl, rfl⟩⟩
  · exact ⟨.success, fun r => ⟨_, rfl, rfl, rfl⟩⟩
  · exact ⟨.error, fun r => ⟨r, rfl, rfl, rfl⟩⟩

theorem parseTarget_any (line : Bytes) (pos : Nat) :
    ∃ flag fileName, ∀ r, ∃ s, parseTarget r line pos = .ok (flag, s) ∧ s.method = r.method ∧
      s.fileName = fileName := by
  obtain ⟨fileName, hname⟩ := targetName_ok line pos (find line space (find line slash pos))
  obtain ⟨flag, hflag⟩ := parseVersion_any line (find line space (find line slash pos))
  refine ⟨flag, fileName, fun r => ?_⟩
  obtain ⟨s, hs, hmethod, hfile⟩ := hflag { r with fileName := fileName }
  refine ⟨s, ?_, hmethod, hfile⟩
  simp only [parseTarget, Nat.not_lt_zero, if_false, hname]
  exact hs

/-- What the request line says does not depend on the method and the version of the last request. -/
theorem parseRequestLine_any (fileName line : Bytes) :
    ∃ flag method fileName', ∀ m v, ∃ r, parseRequestLine ⟨m, v, fileName⟩ line = .ok (flag, r) ∧
      r.fileName = fileName' ∧ (flag = .success → r.method = method) := by
  have htarget (method : HttpMethod) (pos : Nat) :
      ∃ flag method' fileName', ∀ (m : HttpMethod) v, ∃ r,
        parseTarget ⟨method, v, fileName⟩ line pos = .ok (flag, r) ∧ r.fileName = fileName' ∧
          (flag = .success → r.method = method') := by
    obtain ⟨flag, fileName', hall⟩ := parseTarget_any line pos
    refine ⟨flag, method, fileName', fun _ v => ?_⟩
    obtain ⟨r, hr, hmethod, hname⟩ := hall ⟨method, v, fileName⟩
    exact ⟨r, hr, hname, fun _ => hmethod⟩
  unfold parseRequestLine
  simp only []
  split_ifs
  · exact htarget .get _
  · exact htarget .post _
  · exact htarget .head _
  · exact ⟨.error, .get, fileName, fun m v => ⟨_, rfl, rfl, fun h => by cases h⟩⟩

/-- Nor does what `parseURI` does. -/
theorem parseURI_any (h : HttpData) :
    ∃ flag inBuffer method fileName, flag ≠ .again ∧ ∀ m v, ∃ m' v',
      parseURI { h with method := m, httpVersion := v } = .ok (flag, { h with
        inBuffer := inBuffer, method := m', httpVersion := v', fileName := fileName }) ∧
      (flag = .success → m' = method) := by
  obtain ⟨flag, method, fileName, hall⟩ := parseRequestLine_any h.fileName
    (requestLine h.inBuffer h.nowReadPos)
  obtain ⟨flag', r, hr, hagain⟩ := parseRequestLine_ok ⟨h.method, h.httpVersion, h.fileName⟩
    (requestLine h.inBuffer h.nowReadPos)
  obtain ⟨r', hr', -, -⟩ := hall h.method h.httpVersion
  cases hr.symm.trans hr'
  refine ⟨flag, afterLine h.inBuffer h.nowReadPos, method, fileName, hagain, fun m v => ?_⟩
  obtain ⟨s, hs, hname, hmethod⟩ := hall m v
  have hline := parseURI_eq (h := { h with method := m, httpVersion := v }) hs
  rw [hname] at hline
  exact ⟨s.method, s.httpVersion, hline, hmethod⟩

theorem uriSection_lockstep (host : Host) : Stage.Lockstep (uriSection host) Alike := by
  rintro c d ⟨m, v, ch, rfl, hm, hevents⟩
  by_cases hstate : c.http.state = .parseURI
  · obtain ⟨flag, inBuffer, method, fileName, hagain, hall⟩ := parseURI_any c.http
    obtain ⟨m₁, v₁, h₁, hmethod₁⟩ := hall c.http.method c.http.httpVersion
    obtain ⟨m₂, v₂, h₂, hmethod₂⟩ := hall m v
    have hc : parseURI c.http = _ := h₁
    have hd : parseURI (c.apart m v ch).http = _ := h₂
    unfold uriSection
    rw [if_pos hstate, if_pos (by exact hstate), hc, hd]
    cases flag with
    | again => exact absurd rfl hagain
    | error =>
        simp only [ok_bind, reduceCtorEq, if_false, if_true, badRequest_ok shortMsg_badRequest]
        cases host.logURIFailed c.http.fd inBuffer with
        | error f => exact rfl
        | ok a => exact ⟨rfl, m₂, v₂, ch, rfl, fun h => absurd hstate h, hevents⟩
    | success =>
        exact ⟨rfl, m₂, v₂, ch, rfl, fun _ => (hmethod₂ rfl).trans (hmethod₁ rfl).symm, hevents⟩
  · rw [uriSection_skip host hstate, uriSection_skip host (by exact hstate)]
    exact ⟨rfl, m, v, ch, rfl, hm, hevents⟩

/-- What `parseHeaders` does depends on neither. -/
theorem parseHeaders_any (h : HttpData) :
    (∃ f, ∀ m v, parseHeaders { h with method := m, httpVersion := v } = .error f) ∨
      ∃ flag st headers inBuffer, ∀ m v, parseHeaders { h with method := m, httpVersion := v } =
        .ok (flag, { h with
          method := m, httpVersion := v, hState := st, headers := headers, inBuffer := inBuffer }) := by
  have hinit (m : HttpMethod) (v : HttpVersion) :
      HeaderScan.init { h with method := m, httpVersion := v } = HeaderScan.init h := rfl
  cases hloop : headerLoop h.inBuffer h.inBuffer 0 (HeaderScan.init h) with
  | fault f => exact Or.inl ⟨f, fun m v => by simp only [parseHeaders, hinit, hloop]⟩
  | rejected s =>
      exact Or.inr ⟨.error, s.hState, s.headers, h.inBuffer,
        fun m v => by simp only [parseHeaders, hinit, hloop]⟩
  | finished i s =>
      have hrest (pos : Nat) (flag : HeaderState)
          (hend : ∀ m v, parseHeaders { h with method := m, httpVersion := v } =
            (substrFrom h.inBuffer pos).bind fun str => .ok (flag, { h with
              method := m, httpVersion := v, hState := s.hState, headers := s.headers, inBuffer := str })) :
          (∃ f, ∀ m v, parseHeaders { h with method := m, httpVersion := v } = .error f) ∨
            ∃ flag st headers inBuffer, ∀ m v, parseHeaders { h with method := m, httpVersion := v } =
              .ok (flag, { h with
                method := m, httpVersion := v, hState := st, headers := headers, inBuffer := inBuffer }) := by
        cases hstr : substrFrom h.inBuffer pos with
        | error f => exact Or.inl ⟨f, fun m v => by rw [hend, hstr]; rfl⟩
        | ok str => exact Or.inr ⟨flag, s.hState, s.headers, str, fun m v => by rw [hend, hstr]; rfl⟩
      by_cases hend : s.hState = .endLf
      · apply hrest i .success
        intro m v
        simp only [parseHeaders, hinit, hloop, if_pos hend]
        rfl
      · apply hrest (sizeT s.nowReadLineBegin) .again
        intro m v
        simp only [parseHeaders, hinit, hloop, if_neg hend]
        rfl

theorem headersSection_lockstep (host : Host) : Stage.Lockstep (headersSection host) Alike := by
  rintro c d ⟨m, v, ch, rfl, hm, hevents⟩
  by_cases hstate : c.http.state = .parseHeaders
  · obtain rfl := hm (by simp [hstate])
    unfold headersSection
    rw [if_pos hstate, if_pos (by exact hstate)]
    rcases parseHeaders_any c.http with ⟨f, hall⟩ | ⟨flag, st, headers, inBuffer, hall⟩
    · have hc : parseHeaders c.http = _ := hall c.http.method c.http.httpVersion
      have hd : parseHeaders (c.apart c.http.method v ch).http = _ := hall c.http.method v
      rw [hc, hd]
      exact rfl
    · have hc : parseHeaders c.http = _ := hall c.http.method c.http.httpVersion
      have hd : parseHeaders (c.apart c.http.method v ch).http = _ := hall c.http.method v
      rw [hc, hd]
      simp only [ok_bind, badRequest_ok shortMsg_badRequest]
      cases host.logHeadersFailed c.http.fd inBuffer
      all_goals
        split_ifs
        all_goals first
          | exact rfl
          | exact ⟨rfl, c.http.method, v, ch, rfl, fun _ => rfl, hevents⟩
  · rw [headersSection_skip host hstate, headersSection_skip host (by exact hstate)]
    exact ⟨rfl, m, v, ch, rfl, hm, hevents⟩

theorem bodySection_lockstep : Stage.Lockstep bodySection Alike := by
  rintro c d ⟨m, v, ch, rfl, hm, hevents⟩
  by_cases hstate : c.http.state = .recvBody
  · obtain rfl := hm (by simp [hstate])
    have hd : (c.apart c.http.method v ch).http.state = .recvBody := hstate
    cases hlength : c.http.headers.find (bytes "Content-length") with
    | none =>
        rw [bodySection_rejects hstate hlength, bodySection_rejects hd hlength]
        exact ⟨rfl, c.http.method, v, ch, rfl, fun _ => rfl, hevents⟩
    | some value =>
        rw [bodySection_length hstate hlength, bodySection_length hd hlength]
        cases stoi value with
        | error f => exact rfl
        | ok contentLength =>
            have hlen : (c.apart c.http.method v ch).http.inBuffer = c.http.inBuffer := rfl
            simp only [Except.map, hlen]
            split_ifs
            all_goals exact ⟨rfl, c.http.method, v, ch, rfl, fun _ => rfl, hevents⟩
  · rw [bodySection_skip hstate, bodySection_skip (by exact hstate)]
    exact ⟨rfl, m, v, ch, rfl, hm, hevents⟩

/-- The request is analysed alike, and the method stays the same. -/
theorem analysisRequest_both (fs : FileSystem) (c : Conn) (v : HttpVersion) {ch : Channel}
    (hevents : ch.events = c.chan.events) :
    Both (fun x y => x.1 = y.1 ∧ ∃ v ch, y.2 = x.2.apart x.2.http.method v ch ∧ ch.events = x.2.chan.events)
      (analysisRequest fs c) (analysisRequest fs (c.apart c.http.method v ch)) := by
  -- the tests are the same on both sides
  unfold Conn.apart analysisRequest
  simp only [handleError_ok shortMsg_notFount, handleError_ok shortMsg_notFound, bind, Except.bind, pure,
    Except.pure]
  split
  · exact ⟨rfl, v, ch, rfl, hevents⟩
  · cases hstat : (fs (cstr c.http.fileName)).stat <;> cases hmmap : (fs (cstr c.http.fileName)).mmap <;>
      by_cases hwants : wantsKeepAlive c.http.headers <;>
      simp only [hstat, hmmap, hwants, if_true, if_false, Bool.false_eq_true] <;> split_ifs
    all_goals exact ⟨rfl, v, ch, rfl, hevents⟩

theorem analysisSection_lockstep (fs : FileSystem) : Stage.Lockstep (analysisSection fs) Alike := by
  rintro c d ⟨m, v, ch, rfl, hm, hevents⟩
  by_cases hstate : c.http.state = .analysis
  · obtain rfl := hm (by simp [hstate])
    unfold analysisSection
    rw [if_pos hstate, if_pos (by exact hstate)]
    apply (analysisRequest_both fs c v hevents).bind
    rintro ⟨flag, c'⟩ ⟨flag', d'⟩ ⟨hflag, v', ch', hd', hevents'⟩
    obtain rfl : flag = flag' := hflag
    obtain rfl : d' = c'.apart c'.http.method v' ch' := hd'
    simp only []
    split_ifs
    all_goals exact ⟨rfl, c'.http.method, v', ch', rfl, fun _ => rfl, hevents'⟩
  · rw [analysisSection_skip hstate, analysisSection_skip (by exact hstate)]
    exact ⟨rfl, m, v, ch, rfl, hm, hevents⟩

theorem handleReadBody_lockstep (host : Host) : Stage.Lockstep (handleReadBody host) Alike :=
  .seq (readSection_lockstep host) <| .seq (uriSection_lockstep host) <|
    .seq (headersSection_lockstep host) <| .seq bodySection_lockstep (analysisSection_lockstep host.files)

theorem handleWrite_alike {c d : Conn} (h : Alike c d) : Alike (handleWrite c) (handleWrite d) := by
  obtain ⟨m, v, ch, rfl, hm, hevents⟩ := h
  unfold Conn.apart handleWrite
  simp only []
  split_ifs
  all_goals exact ⟨m, v, _, rfl, hm, by simp [hevents]⟩

theorem handleReadPass_both (host : Host) {c d : Conn} (h : Alike c d) :
    Both Alike (handleReadPass host c) (handleReadPass host d) := by
  apply (handleReadBody_lockstep host c d h).bind
  rintro ⟨flow, c'⟩ ⟨flow', d'⟩ ⟨-, h'⟩
  have herror : d'.http.error = c'.http.error := by
    obtain ⟨m, v, ch, hd', -⟩ := h'
    rw [show d' = c'.apart m v ch from hd']
    rfl
  simp only [herror]
  split_ifs
  · exact h'
  · exact handleWrite_alike h'

theorem reset_alike {c d : Conn} (h : Alike c d) : Alike (reset c) (reset d) := by
  obtain ⟨m, v, ch, rfl, hm, hevents⟩ := h
  exact ⟨m, v, ch, rfl, fun hstate => absurd rfl hstate, hevents⟩

/-- The tests of `handleRead` behind a pass are the same on both sides. -/
theorem handleReadN_both (host : Host) : ∀ (n : Nat) {c d : Conn}, Alike c d →
    Both Alike (handleReadN host n c) (handleReadN host n d)
  | 0, _, _, _ => rfl
  | n + 1, c, d, h => by
      apply (handleReadPass_both host h).bind
      intro c' d' h'
      have hreset := reset_alike h'
      have hagain := handleReadN_both host n hreset
      obtain ⟨m, v, ch, rfl, hm, hevents⟩ := h'
      unfold reset Conn.call Conn.apart at *
      simp only [] at *
      split_ifs
      · exact hagain
      · exact hreset
      · exact ⟨m, v, _, rfl, fun hstate => absurd rfl hstate, by simp [hevents]⟩
      · exact hreset
      · exact ⟨m, v, ch, rfl, hm, hevents⟩

theorem handleConn_akin {c d : Conn} (h : Alike c d) : Akin (handleConn c) (handleConn d) := by
  obtain ⟨m, v, ch, rfl, hm, hevents⟩ := h
  unfold Conn.apart handleConn seperateTimer Conn.call
  simp only [hevents]
  split_ifs
  all_goals exact ⟨m, v, _, rfl, hm⟩

theorem clearEvents_alike {c d : Conn} (h : Alike c d) : Alike c.clearEvents d.clearEvents := by
  obtain ⟨m, v, ch, rfl, hm, -⟩ := h
  exact ⟨m, v, _, rfl, hm, rfl⟩

theorem handleEvents_both (host : Host) (revents : EventMask) {c d : Conn} (h : Alike c d) :
    Both Akin
      (handleEvents revents Conn.clearEvents (handleRead host) (fun c => .ok (handleWrite c))
        (fun c => .ok (handleConn c)) c)
      (handleEvents revents Conn.clearEvents (handleRead host) (fun c => .ok (handleWrite c))
        (fun c => .ok (handleConn c)) d) := by
  by_cases hignored : revents.Ignored
  · rw [handleEvents_ignored hignored, handleEvents_ignored hignored]
    exact (clearEvents_alike (clearEvents_alike h)).akin
  · rw [handleEvents_handlers hignored, handleEvents_handlers hignored]
    have hread : Both Alike
        (if revents.has (EPOLLIN ||| EPOLLPRI ||| EPOLLRDHUP) then handleRead host c.clearEvents
          else pure c.clearEvents)
        (if revents.has (EPOLLIN ||| EPOLLPRI ||| EPOLLRDHUP) then handleRead host d.clearEvents
          else pure d.clearEvents) := by
      split_ifs
      · exact handleReadN_both host 2 (clearEvents_alike h)
      · exact clearEvents_alike h
    apply hread.bind
    intro c' d' h'
    by_cases hout : revents.has EPOLLOUT
    · simp only [if_pos hout]
      exact handleConn_akin (handleWrite_alike h')
    · simp only [if_neg hout]
      exact handleConn_akin h'

theorem closed_calls (c : Conn) (before : List Call) : (c.closed before).calls = c.calls := by
  unfold Conn.closed
  split_ifs <;> rfl

theorem closed_akin {c d : Conn} (h : Akin c d) (before : List Call) :
    Akin (c.closed before) (d.closed before) := by
  obtain ⟨m, v, ch, rfl, hm⟩ := h
  unfold Conn.closed
  have hcalls : (c.apart m v ch).calls = c.calls := rfl
  rw [hcalls]
  split_ifs
  · exact ⟨m, v, ch, rfl, hm⟩
  · exact ⟨m, v, ch, rfl, hm⟩

/-- **Akin connections handle an event alike.** -/
theorem event_both {c d : Conn} (h : Akin c d) (e : ChannelEvent) : Both Akin (c.event e) (d.event e) := by
  have hcalls : d.calls = c.calls := by
    obtain ⟨m, v, ch, rfl, -⟩ := h
    rfl
  unfold Conn.event
  rw [hcalls]
  exact (handleEvents_both e.host e.revents (h.reported e)).bind fun _ _ h' => closed_akin h' c.calls

theorem events_both : ∀ (es : List ChannelEvent) {c d : Conn}, Akin c d →
    Both Akin (es.foldlM Conn.event c) (es.foldlM Conn.event d)
  | [], _, _, h => h
  | e :: es, _, _, h => by
      rw [List.foldlM_cons, List.foldlM_cons]
      exact (event_both h e).bind fun _ _ h' => events_both es h'

theorem fresh_akin {c : Conn} (herror : c.http.error = false)
    (hconnected : c.http.connectionState = .connected) (hin : c.http.inBuffer = [])
    (hout : c.http.outBuffer = []) (hkeep : c.http.keepAlive = false) :
    Akin (Conn.fresh c.http.fd) c.renewed := by
  refine ⟨c.http.method, c.http.httpVersion, c.chan, ?_, fun hstate => absurd rfl hstate⟩
  simp only [Conn.renewed, reset, Conn.call, Conn.apart, Conn.fresh, HttpData.new, herror, hconnected, hin,
    hout, hkeep]

/-- An event without input or output is answered with the timeout of an idle connection. -/
def idleEvent : ChannelEvent := ⟨EPOLLOUT, someHost, [], []⟩

theorem handleConn_idle {c : Conn} (herror : c.http.error = false)
    (hconnected : c.http.connectionState = .connected) (hevents : c.chan.events = 0) :
    (handleConn c).calls = c.calls ++ [.clearTimer, .updatePoller
      (if c.http.keepAlive then DEFAULT_KEEP_ALIVE_TIME else DEFAULT_KEEP_ALIVE_TIME >>> 1)] := by
  by_cases hkeep : c.http.keepAlive
  · simp [handleConn, seperateTimer, Conn.call, herror, hconnected, hevents, hkeep]
  · simp [handleConn, seperateTimer, Conn.call, herror, hconnected, hevents, hkeep]

theorem idleEvent_calls {c : Conn} (herror : c.http.error = false)
    (hconnected : c.http.connectionState = .connected) (hout : c.http.outBuffer = []) :
    ∃ d, c.event idleEvent = .ok d ∧ d.calls = c.calls ++ [.clearTimer, .updatePoller
      (if c.http.keepAlive then DEFAULT_KEEP_ALIVE_TIME else DEFAULT_KEEP_ALIVE_TIME >>> 1)] := by
  have hignored : ¬ idleEvent.revents.Ignored := by decide
  have hread : ¬ idleEvent.revents.has (EPOLLIN ||| EPOLLPRI ||| EPOLLRDHUP) := by decide
  have hwrite : idleEvent.revents.has EPOLLOUT := by decide
  have hcalls := handleConn_idle (c := (c.reported idleEvent).clearEvents) herror hconnected rfl
  have hevent : c.event idleEvent =
      .ok ((handleConn (c.reported idleEvent).clearEvents).closed c.calls) := by
    rw [Conn.event, handleEvents_handlers hignored, if_neg hread]
    simp only [if_pos hwrite, bind, Except.bind, pure, Except.pure]
    rw [handleWrite_empty (by exact hout)]
  exact ⟨_, hevent, (closed_calls _ _).trans hcalls⟩

/-- **Requests on a reused connection** are isolated from the earlier ones if and only if none of them
has asked for the connection to be kept. -/
theorem sameAsFresh_iff {c : Conn} (herror : c.http.error = false)
    (hconnected : c.http.connectionState = .connected) (hin : c.http.inBuffer = [])
    (hout : c.http.outBuffer = []) : c.SameAsFresh ↔ c.http.keepAlive = false := by
  constructor
  · intro hsame
    obtain ⟨d, hd, hcalls⟩ := idleEvent_calls (c := c.renewed) herror hconnected hout
    obtain ⟨d', hd', hcalls'⟩ := idleEvent_calls (c := Conn.fresh c.http.fd) rfl rfl rfl
    have hone := hsame [idleEvent]
    simp only [List.foldlM_cons, List.foldlM_nil, hd, hd', bind, Except.bind, pure, Except.pure, Except.map,
      Except.ok.injEq, Conn.observe, hcalls, hcalls', Prod.mk.injEq] at hone
    obtain ⟨-, -, htimeouts⟩ := hone
    cases hkeep : c.http.keepAlive with
    | false => rfl
    | true =>
        have hrenewed : c.renewed.http.keepAlive = true := hkeep
        have hcalls₁ : c.renewed.calls = [] := rfl
        have hcalls₂ : (Conn.fresh c.http.fd).calls = [] := rfl
        have hfresh : (Conn.fresh c.http.fd).http.keepAlive = false := rfl
        rw [hrenewed, hcalls₁, hcalls₂, hfresh] at htimeouts
        exact absurd htimeouts (by decide)
  · intro hkeep es
    exact ((events_both es (fresh_akin herror hconnected hin hout hkeep)).map_eq
      fun _ _ h => h.observe).symm

/-- A connection that has answered a request with that method and version. -/
def Conn.answered (method : HttpMethod) (version : HttpVersion) (keepAlive : Bool) : Conn :=
  let c := Conn.fresh 5
  { c with
    http.state := .finish, http.hState := .endLf, http.method := method, http.httpVersion := version
    http.keepAlive := keepAlive }

/-- After a POST of HTTP/1.0 the connection is as good as new. -/
theorem sameAsFresh_post : (Conn.answered .post .http10 false).SameAsFresh :=
  (sameAsFresh_iff (c := Conn.answered .post .http10 false) rfl rfl rfl rfl).mpr rfl

/-- After a request that has asked for it, the connection is kept for longer than a new one. -/
theorem sameAsFresh_kept : ¬ (Conn.answered .get .http11 true).SameAsFresh := by
  intro hsame
  have hone := congrArg (Except.toOption ∘ Except.map fun o : Bytes × Bool × List Int => o.2.2)
    (hsame [idleEvent])
  exact absurd hone (by decide)

end WebServer
