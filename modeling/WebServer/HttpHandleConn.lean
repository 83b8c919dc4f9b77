import Mathlib.Data.Int.Bitwise
import WebServer.HttpHandleRead
import WebServer.ChannelEvents

/-! `HttpData::handleConn`, which registers the connection for its next events or closes it, and what
`handleEvents` of its channel does before that. The handlers ask for little outside the connection:
`handleRead` and `handleWrite` for nothing but the end of the timer, `handleConn` for one call more. -/

namespace WebServer

open Stages

/-- `HttpData::handleConn`. -/
def handleConn (c : Conn) : Conn :=
  let c := seperateTimer c
  if c.http.error = false ∧ c.http.connectionState = .connected then
    if c.chan.events ≠ 0 then
      let timeout :=
        if c.http.keepAlive then DEFAULT_KEEP_ALIVE_TIME else DEFAULT_EXPIRED_TIME
      let events :=
        if c.chan.events.has EPOLLIN ∧ c.chan.events.has EPOLLOUT then EPOLLOUT else c.chan.events
      Conn.call { c with chan.events := events ||| EPOLLET } (.updatePoller timeout)
    else if c.http.keepAlive then
      Conn.call { c with chan.events := c.chan.events ||| (EPOLLIN ||| EPOLLET) }
        (.updatePoller DEFAULT_KEEP_ALIVE_TIME)
    else
      Conn.call { c with chan.events := c.chan.events ||| (EPOLLIN ||| EPOLLET) }
        (.updatePoller (DEFAULT_KEEP_ALIVE_TIME >>> 1))
  else if c.http.error = false ∧ c.http.connectionState = .disconnecting ∧ c.chan.events.has EPOLLOUT then
    { c with chan.events := EPOLLOUT ||| EPOLLET }
  else c.call .handleClose

def Conn.clearEvents (c : Conn) : Conn := { c with chan.events := 0 }

/-- The connection as `handleEvents` hands it to `handleConn`, where it gets there. -/
def Conn.beforeConn (host : Host) (c : Conn) : Except Fault Conn :=
  handleEvents c.chan.revents Conn.clearEvents (handleRead host) (fun c => .ok (handleWrite c)) .ok c

/-- A call that reaches neither the poller nor the table of connections. -/
def Call.quiet : Call → Bool
  | .clearTimer => true
  | .handleError _ _ => true
  | .updatePoller _ => false
  | .handleClose => false

/-- From the first state to the second the connection has made quiet calls only, and its channel is the
same. -/
structure Still (c c' : Conn) : Prop where
  calls : ∃ new, c'.calls = c.calls ++ new ∧ ∀ k ∈ new, k.quiet = true
  httpFd : c'.http.fd = c.http.fd
  chan : c'.chan = c.chan

theorem Still.of_eq {c c' : Conn} (hcalls : c'.calls = c.calls) (hhttp : c'.http.fd = c.http.fd)
    (hchan : c'.chan = c.chan) : Still c c' :=
  ⟨⟨[], by rw [hcalls, List.append_nil], by simp⟩, hhttp, hchan⟩

theorem Still.refl (c : Conn) : Still c c := .of_eq rfl rfl rfl

theorem quiet_append {calls calls' calls'' : List Call}
    (h : ∃ new, calls' = calls ++ new ∧ ∀ k ∈ new, k.quiet = true)
    (h' : ∃ new, calls'' = calls' ++ new ∧ ∀ k ∈ new, k.quiet = true) :
    ∃ new, calls'' = calls ++ new ∧ ∀ k ∈ new, k.quiet = true := by
  obtain ⟨new, hnew, hquiet⟩ := h
  obtain ⟨new', hnew', hquiet'⟩ := h'
  refine ⟨new ++ new', by rw [hnew', hnew, List.append_assoc], ?_⟩
  intro k hk
  rcases List.mem_append.mp hk with hk | hk
  · exact hquiet k hk
  · exact hquiet' k hk

theorem Still.trans (c d e : Conn) (hcd : Still c d) (hde : Still d e) : Still c e :=
  ⟨quiet_append hcd.calls hde.calls, hde.httpFd.trans hcd.httpFd, hde.chan.trans hcd.chan⟩

/-- One quiet call more. -/
theorem Still.one {c c' : Conn} {k : Call} (hk : k.quiet = true) (hcalls : c'.calls = c.calls ++ [k])
    (hhttp : c'.http.fd = c.http.fd) (hchan : c'.chan = c.chan) : Still c c' :=
  ⟨⟨[k], hcalls, by simp [hk]⟩, hhttp, hchan⟩

theorem Parses.still {c d : Conn} (h : Parses c d) : Still c d := .of_eq h.calls h.fd h.chan

theorem Rejects.still {c d : Conn} (h : Rejects c d) : Still c d := by
  obtain ⟨m, shortMsg, -, hm, rfl⟩ := h
  have hrejected : Still m (rejected shortMsg m) :=
    .one (k := .handleError 400 shortMsg) rfl rfl rfl rfl
  exact hm.still.trans _ _ _ hrejected

theorem Parsing.still {s : Section} (hs : Parsing s) : Stage.Relates s Still :=
  Stage.Leads.relates (hs.imp (fun _ _ => Parses.still) fun _ _ h => h.elim Parses.still Rejects.still)

theorem answered_still (c : Conn) (keepAlive : Bool) (outBuffer : Bytes) :
    Still c (answered c keepAlive outBuffer) := .of_eq rfl rfl rfl

theorem refused_still (c : Conn) (errNum : Nat) (shortMsg : Bytes) : Still c (refused c errNum shortMsg) :=
  .one (k := .handleError errNum shortMsg) rfl rfl rfl rfl

theorem analysisRequest_still {fs : FileSystem} {c c' : Conn} {flag : AnalysisState}
    (hrun : analysisRequest fs c = .ok (flag, c')) : Still c c' := by
  rcases analysisRequest_results fs c with ⟨-, h⟩ | ⟨-, -, h⟩ | ⟨-, -, -, h⟩ | ⟨-, -, -, -, -, h⟩
  all_goals cases h.symm.trans hrun
  · exact .refl c
  · exact answered_still c _ _
  · exact answered_still c _ _
  · exact (answered_still c _ _).trans _ _ _ (refused_still _ 404 _)

theorem analysisSection_still (fs : FileSystem) : Stage.Relates (analysisSection fs) Still := by
  intro c flow c' hrun
  unfold analysisSection at hrun
  split_ifs at hrun
  · obtain ⟨⟨flag, d⟩, hanalysis, hrun⟩ := bind_eq_ok hrun
    have hcd := analysisRequest_still hanalysis
    simp only [] at hrun
    split_ifs at hrun
    · cases hrun
      exact hcd.trans _ _ _ (.of_eq rfl rfl rfl)
    · cases hrun
      exact hcd.trans _ _ _ (.of_eq rfl rfl rfl)
  · cases hrun
    exact .refl c

theorem handleReadBody_still (host : Host) : Stage.Relates (handleReadBody host) Still :=
  .seq Still.trans (readSection_parsing host).still <| .seq Still.trans (uriSection_parsing host).still <|
    .seq Still.trans (headersSection_parsing host).still <| .seq Still.trans bodySection_parsing.still <|
      analysisSection_still host.files

/-- From the first state to the second the connection has made quiet calls only, and is the same to
the poller. -/
structure Mild (c c' : Conn) : Prop where
  calls : ∃ new, c'.calls = c.calls ++ new ∧ ∀ k ∈ new, k.quiet = true
  httpFd : c'.http.fd = c.http.fd
  chanFd : c'.chan.fd = c.chan.fd
  lastEvents : c'.chan.lastEvents = c.chan.lastEvents

theorem Mild.of_eq {c c' : Conn} (hcalls : c'.calls = c.calls) (hhttp : c'.http.fd = c.http.fd)
    (hfd : c'.chan.fd = c.chan.fd) (hlast : c'.chan.lastEvents = c.chan.lastEvents) : Mild c c' :=
  ⟨⟨[], by rw [hcalls, List.append_nil], by simp⟩, hhttp, hfd, hlast⟩

theorem Still.mild {c c' : Conn} (h : Still c c') : Mild c c' :=
  ⟨h.calls, h.httpFd, congrArg Channel.fd h.chan, congrArg Channel.lastEvents h.chan⟩

theorem Mild.trans (c d e : Conn) (hcd : Mild c d) (hde : Mild d e) : Mild c e :=
  ⟨quiet_append hcd.calls hde.calls, hde.httpFd.trans hcd.httpFd, hde.chanFd.trans hcd.chanFd,
    hde.lastEvents.trans hcd.lastEvents⟩

theorem handleWrite_mild (c : Conn) : Mild c (handleWrite c) := by
  unfold handleWrite
  simp only []
  split_ifs
  all_goals exact .of_eq rfl rfl rfl rfl

theorem handleReadPass_mild {host : Host} {c c' : Conn} (hrun : handleReadPass host c = .ok c') :
    Mild c c' := by
  obtain ⟨flow, d, hbody, ⟨-, rfl⟩ | ⟨-, rfl⟩⟩ := handleReadPass_cases hrun
  · exact (handleReadBody_still host c flow c' hbody).mild
  · exact (handleReadBody_still host c flow d hbody).mild.trans _ _ _ (handleWrite_mild d)

theorem handleRead_mild {host : Host} {c c' : Conn} (hrun : handleRead host c = .ok c') :
    Mild c c' := by
  have hreset (d : Conn) : Still d (reset d) := .one (k := .clearTimer) rfl rfl rfl rfl
  refine handleReadN_rule (R := Mild) (fun _ _ => handleReadPass_mild) ?_ ?_ ?_ hrun
  · intro c d h
    exact h.trans _ _ _ (hreset d).mild
  · intro c d h
    exact h.trans _ _ _ (.of_eq rfl rfl rfl rfl)
  · intro c d e h _
    exact h.trans c d e

/-- The kernel does not disarm a descriptor registered with the mask. -/
def EventMask.Plain (mask : EventMask) : Prop := ¬ mask.has EPOLLONESHOT

instance (mask : EventMask) : Decidable mask.Plain := inferInstanceAs (Decidable (¬ _))

theorem EventMask.Plain.or {a b : EventMask} (ha : a.Plain) (hb : b.Plain) : (a ||| b).Plain := by
  rw [Plain, EventMask.has_or]
  exact not_or.mpr ⟨ha, hb⟩

def Conn.Plain (c : Conn) : Prop := c.chan.events.Plain

theorem handleWrite_plain {c : Conn} (h : c.Plain) : (handleWrite c).Plain := by
  have hout : EPOLLOUT.Plain := by decide
  have hzero : EventMask.Plain 0 := EventMask.not_zero_has _
  unfold handleWrite
  simp only []
  split_ifs
  · exact hzero.or hout
  · exact hzero
  · exact EventMask.Plain.or h hout
  · exact h
  · exact h

theorem handleReadPass_plain {host : Host} {c c' : Conn} (hrun : handleReadPass host c = .ok c')
    (h : c.Plain) : c'.Plain := by
  obtain ⟨flow, d, hbody, hend⟩ := handleReadPass_cases hrun
  have hd : d.Plain := by
    rw [Conn.Plain, (handleReadBody_still host c flow d hbody).chan]
    exact h
  obtain ⟨-, rfl⟩ | ⟨-, rfl⟩ := hend
  · exact hd
  · exact handleWrite_plain hd

theorem handleRead_plain {host : Host} {c c' : Conn} (hrun : handleRead host c = .ok c')
    (h : c.Plain) : c'.Plain := by
  refine handleReadN_rule (R := fun c d => c.Plain → d.Plain) (fun _ _ => handleReadPass_plain)
    (fun _ _ h => h) ?_ ?_ hrun h
  · intro c d h hc
    exact EventMask.Plain.or (h hc) (by decide)
  · intro c d e h _ h' hc
    exact h' (h hc)

/-- What a handler before `handleConn` does to the connection. -/
structure Tame (c c' : Conn) : Prop extends Mild c c' where
  plain : c.Plain → c'.Plain

theorem handleRead_tame {host : Host} {c c' : Conn} (hrun : handleRead host c = .ok c') : Tame c c' :=
  ⟨handleRead_mild hrun, handleRead_plain hrun⟩

theorem handleWrite_tame (c : Conn) : Tame c (handleWrite c) := ⟨handleWrite_mild c, handleWrite_plain⟩

/-- `handleConn` asks for nothing that would disarm the channel. -/
theorem handleConn_plain {c : Conn} (h : c.Plain) : (handleConn c).Plain := by
  have hout : EPOLLOUT.Plain := by decide
  have hedge : EPOLLET.Plain := by decide
  have hidle : (EPOLLIN ||| EPOLLET).Plain := by decide
  unfold handleConn
  simp only []
  split_ifs
  · exact hout.or hedge
  · exact hout.or hedge
  · exact EventMask.Plain.or h hedge
  · exact EventMask.Plain.or h hedge
  · exact EventMask.Plain.or h hidle
  · exact EventMask.Plain.or h hidle
  · exact hout.or hedge
  · exact h

/-- Output left over is waiting for `EPOLLOUT`, unless the connection is done with. -/
def Conn.Armed (c : Conn) : Prop :=
  c.http.error = false → c.http.connectionState ≠ .disconnected → c.http.outBuffer ≠ [] →
    c.chan.events.has EPOLLOUT

theorem handleWrite_armed (c : Conn) : (handleWrite c).Armed := by
  unfold handleWrite
  simp only []
  split_ifs with hopen hfailed hleft hleft
  · exact fun herror => by cases herror
  · exact fun herror => by cases herror
  · exact fun _ _ _ => (EventMask.has_or _ _ _).mpr (Or.inr (by decide))
  · exact fun _ _ hout => absurd hout hleft
  · exact fun herror hstate => absurd ⟨herror, hstate⟩ hopen

theorem handleReadPass_armed {host : Host} {c c' : Conn} (hrun : handleReadPass host c = .ok c') :
    c'.Armed := by
  obtain ⟨flow, d, -, ⟨hfailed, rfl⟩ | ⟨-, rfl⟩⟩ := handleReadPass_cases hrun
  · exact fun herror => absurd (herror.symm.trans hfailed) (by decide)
  · exact handleWrite_armed d

theorem handleRead_armed {host : Host} {c c' : Conn} (hrun : handleRead host c = .ok c') : c'.Armed := by
  refine handleReadN_rule (R := fun _ d => d.Armed) (fun _ _ => handleReadPass_armed) (fun _ _ h => h) ?_
    (fun _ _ _ _ _ h => h) hrun
  intro _ d hd herror hstate hout
  exact (EventMask.has_or _ _ _).mpr (Or.inl (hd herror hstate hout))

/-- The peer is done sending and output is left: the branch of `handleConn` without a call. -/
def Conn.Draining (c : Conn) : Prop :=
  c.http.error = false ∧ c.http.connectionState = .disconnecting ∧ c.chan.events.has EPOLLOUT

instance (c : Conn) : Decidable c.Draining := inferInstanceAs (Decidable (_ ∧ _ ∧ _))

/-- The registration for the next events: it keeps `EPOLLOUT`, and does not add it. -/
structure Rearmed (c c' : Conn) : Prop where
  http : c'.http = c.http
  fd : c'.chan.fd = c.chan.fd
  lastEvents : c'.chan.lastEvents = c.chan.lastEvents
  out : c.chan.events.has EPOLLOUT → c'.chan.events.has EPOLLOUT
  idle : c.chan.events = 0 → ¬ c'.chan.events.has EPOLLOUT

theorem handleConn_connected {c : Conn} (herror : c.http.error = false)
    (hstate : c.http.connectionState = .connected) :
    ∃ timeout > 0, (handleConn c).calls = c.calls ++ [.clearTimer, .updatePoller timeout] ∧
      Rearmed c (handleConn c) := by
  have hopen : (seperateTimer c).http.error = false ∧
      (seperateTimer c).http.connectionState = .connected := ⟨herror, hstate⟩
  by_cases hevents : (seperateTimer c).chan.events ≠ 0
  · rw [handleConn, if_pos hopen, if_pos hevents]
    refine ⟨if c.http.keepAlive then DEFAULT_KEEP_ALIVE_TIME else DEFAULT_EXPIRED_TIME, ?_,
      List.append_assoc _ _ _, rfl, rfl, rfl, ?_, fun h => absurd h hevents⟩
    · split_ifs
      · decide
      · decide
    · intro hout
      refine (EventMask.has_or _ _ _).mpr (Or.inl ?_)
      split_ifs
      · decide
      · exact hout
  · have hzero : c.chan.events = 0 := not_not.mp hevents
    have hout : ¬ c.chan.events.has EPOLLOUT := by
      rw [hzero]
      exact EventMask.not_zero_has _
    have hidle : ¬ (c.chan.events ||| (EPOLLIN ||| EPOLLET)).has EPOLLOUT := by
      rw [hzero]
      decide
    rw [handleConn, if_pos hopen, if_neg hevents]
    split_ifs
    · exact ⟨DEFAULT_KEEP_ALIVE_TIME, by decide, List.append_assoc _ _ _, rfl, rfl, rfl,
        fun h => absurd h hout, fun _ => hidle⟩
    · exact ⟨DEFAULT_KEEP_ALIVE_TIME >>> 1, by decide, List.append_assoc _ _ _, rfl, rfl, rfl,
        fun h => absurd h hout, fun _ => hidle⟩

theorem handleConn_draining {c : Conn} (h : c.Draining) :
    handleConn c =
      { c with chan.events := EPOLLOUT ||| EPOLLET, calls := c.calls ++ [.clearTimer] } := by
  have hopen : ¬ ((seperateTimer c).http.error = false ∧
      (seperateTimer c).http.connectionState = .connected) := by
    rintro ⟨-, hstate⟩
    exact absurd (h.2.1.symm.trans hstate) (by decide)
  have hdrain : (seperateTimer c).http.error = false ∧
      (seperateTimer c).http.connectionState = .disconnecting ∧
        (seperateTimer c).chan.events.has EPOLLOUT := h
  rw [handleConn, if_neg hopen, if_pos hdrain]
  rfl

theorem handleConn_closes {c : Conn}
    (hconn : ¬ (c.http.error = false ∧ c.http.connectionState = .connected)) (h : ¬ c.Draining) :
    handleConn c = { c with calls := c.calls ++ [.clearTimer, .handleClose] } := by
  have hopen : ¬ ((seperateTimer c).http.error = false ∧
      (seperateTimer c).http.connectionState = .connected) := hconn
  have hdrain : ¬ ((seperateTimer c).http.error = false ∧
      (seperateTimer c).http.connectionState = .disconnecting ∧
        (seperateTimer c).chan.events.has EPOLLOUT) := h
  rw [handleConn, if_neg hopen, if_neg hdrain]
  simp [Conn.call, seperateTimer]

end WebServer
