import WebServer.EpollOperations
import WebServer.HttpHalfClosed

/-! What one `handleEvents` leaves of a connection. Either it is removed from the poller, or it is
registered and has a timer: so it is unless `handleConn` takes the branch that makes no call to the
poller, or is called for output that no handler before it has tried to write. -/

namespace WebServer

open Stages

namespace Worker

variable {s t u : Worker}

/-- The linked timer node is in the queue, live, and holds the connection. -/
def TimerLive (s : Worker) (id : Nat) : Prop :=
  ∃ nid node, (s.objects id).timer = some nid ∧ s.timers.get nid = some node ∧
    node.deleted = false ∧ node.requestData = some id

/-- The connection is registered in the poller, and is linked to no timer node but a live one. -/
structure Attended (s : Worker) (id : Nat) : Prop where
  live : s.Live id
  chanSlot : s.fd2chan.get (s.objects id).conn.chan.fd = some (.http id)
  slot : s.Slot id
  interest : s.interest (s.objects id).conn.chan.fd = some (s.objects id).conn.chan.lastEvents
  timer : (s.objects id).timer = none ∨ s.TimerLive id

/-- The connection is registered in the poller, and its linked timer is live. -/
structure Watched (s : Worker) (id : Nat) : Prop where
  live : s.Live id
  chanSlot : s.fd2chan.get (s.objects id).conn.chan.fd = some (.http id)
  slot : s.Slot id
  interest : s.interest (s.objects id).conn.chan.fd = some (s.objects id).conn.chan.lastEvents
  timer : s.TimerLive id

theorem Watched.attended {id : Nat} (h : s.Watched id) : s.Attended id :=
  ⟨h.live, h.chanSlot, h.slot, h.interest, Or.inr h.timer⟩

/-- `handleClose` has removed the connection from the poller. -/
structure Removed (s : Worker) (id : Nat) : Prop where
  removed : (s.objects id).removed = true
  state : (s.objects id).conn.http.connectionState = .disconnected
  chanSlot : s.fd2chan.get (s.objects id).conn.chan.fd = none
  slot : s.fd2http.get (s.objects id).conn.chan.fd = none
  interest : s.interest (s.objects id).conn.chan.fd = none

/-- The kernel reports when the connection can be written to. -/
def AwaitsOut (s : Worker) (id : Nat) : Prop :=
  ∃ mask, s.interest (s.objects id).conn.chan.fd = some mask ∧ mask.has EPOLLOUT

/-- The connection is removed, or it has a timer and, if `connRan`, output left over is awaited. -/
def Kept (s : Worker) (id : Nat) (connRan : Prop) : Prop :=
  s.Removed id ∨ s.TimerLive id ∧
    (connRan → (s.objects id).conn.http.outBuffer ≠ [] → s.AwaitsOut id)

theorem Attended.setConn {id : Nat} (h : t.Attended id) {c : Conn}
    (hfd : c.chan.fd = (t.objects id).conn.chan.fd)
    (hlast : c.chan.lastEvents = (t.objects id).conn.chan.lastEvents) : (t.setConn id c).Attended id := by
  obtain ⟨hlive, hchan, hslot, hinterest, htimer⟩ := h
  have hself := t.setConn_self id c
  refine ⟨⟨hlive.1, ?_⟩, ?_, ?_, ?_, ?_⟩
  · rw [hself]
    exact hlive.2
  · rw [hself, hfd]
    exact hchan
  · rw [Slot, hself, hfd]
    exact hslot
  · rw [hself, hfd, hlast]
    exact hinterest
  · rw [TimerLive, hself]
    exact htimer

/-- A connection that clears its timer is linked to none, and stays as it was but for that. -/
theorem clearTimer_attended {id : Nat} (h : t.Attended id) :
    (t.clearTimer id).Attended id ∧ ((t.clearTimer id).objects id).conn = (t.objects id).conn ∧
      ((t.clearTimer id).objects id).timer = none := by
  rcases h.timer with hnone | ⟨nid, node, hlink, hget, -, hdata⟩
  · rw [clearTimer_unlinked hnone]
    exact ⟨h, rfl, hnone⟩
  · have hself : Function.update t.objects id { t.objects id with timer := none } id =
        { t.objects id with timer := none } := Function.update_self _ _ _
    have hslot : Slot { t.setObject id { t.objects id with timer := none } with
        timers := t.timers.set nid { node with requestData := none, deleted := true } } id := by
      simp only [Slot, setObject, hself]
      exact h.slot
    have hcleared : t.clearTimer id = { t.setObject id { t.objects id with timer := none } with
        timers := t.timers.set nid { node with requestData := none, deleted := true } } := by
      rw [clearTimer_linked hlink hget, hdata]
      exact if_pos hslot.owned
    rw [hcleared]
    simp only [setObject, hself, true_and]
    refine ⟨⟨⟨h.live.1, ?_⟩, ?_, hslot, ?_, Or.inl ?_⟩, trivial⟩
    · simpa only [hself] using h.live.2
    · simpa only [hself] using h.chanSlot
    · simpa only [hself] using h.interest
    · simp only [hself]

theorem calls_attended {id : Nat} (io : Io) {ks : List Call} (h : t.Attended id)
    (hks : ∀ k ∈ ks, k.quiet = true) : ∃ u, ks.foldlM (call id io) t = .ok u ∧ u.Attended id ∧
      (u.objects id).conn = (t.objects id).conn := by
  induction ks generalizing t with
  | nil => exact ⟨t, rfl, h, rfl⟩
  | cons k ks ih =>
      have hk := hks k List.mem_cons_self
      have hrest : ∀ k' ∈ ks, k'.quiet = true := fun k' hk' => hks k' (List.mem_cons_of_mem k hk')
      cases k with
      | clearTimer =>
          obtain ⟨hcleared, hconn, -⟩ := clearTimer_attended h
          have hcall : call id io t .clearTimer = .ok (t.clearTimer id) := if_pos h.live
          obtain ⟨u, hu, hattended, hsame⟩ := ih hcleared hrest
          refine ⟨u, ?_, hattended, hsame.trans hconn⟩
          rw [List.foldlM_cons, hcall]
          exact hu
      | handleError errNum shortMsg =>
          have hcall : call id io t (.handleError errNum shortMsg) = .ok t := if_pos h.live
          obtain ⟨u, hu, hattended, hsame⟩ := ih h hrest
          refine ⟨u, ?_, hattended, hsame⟩
          rw [List.foldlM_cons, hcall]
          exact hu
      | updatePoller timeout => cases hk
      | handleClose => cases hk

/-- The worker runs the handlers of the connection, and remains attentive to it. -/
structure Runs (id : Nat) (t : Worker) (c : Conn) : Prop where
  attended : t.Attended id
  conn : (t.objects id).conn = c

theorem callback_runs {id : Nat} {io : Io} {handler : Conn → Except Fault Conn}
    (hmild : ∀ c c', handler c = .ok c' → Mild c c') {c : Conn} (h : Runs id t c)
    (hrun : callback id io handler t = .ok u) : ∃ c', handler c = .ok c' ∧ Runs id u c' := by
  rw [callback, if_pos h.attended.live, h.conn] at hrun
  cases hhandler : handler c with
  | error f =>
      rw [hhandler] at hrun
      cases hrun
  | ok c' =>
      obtain ⟨⟨new, hnew, hks⟩, -, hfd, hlast⟩ := hmild c c' hhandler
      simp only [hhandler, hnew, List.drop_left] at hrun
      have hset : (t.setConn id c').Attended id :=
        h.attended.setConn (hfd.trans (congrArg (·.chan.fd) h.conn.symm))
          (hlast.trans (congrArg (·.chan.lastEvents) h.conn.symm))
      obtain ⟨v, hv, hattended, hsame⟩ := calls_attended io hset hks
      obtain rfl := Except.ok.inj (hv.symm.trans hrun)
      refine ⟨c', rfl, hattended, hsame.trans ?_⟩
      simp only [setConn_self]

theorem clearEvents_runs {id : Nat} {c : Conn} (h : Runs id t c) :
    Runs id (t.clearEvents (.http id)) c.clearEvents := by
  obtain ⟨hattended, rfl⟩ := h
  refine ⟨hattended.setConn ?_ ?_, ?_⟩
  · rfl
  · rfl
  · simp only [clearEvents, setChan, setConn_self]
    rfl

theorem setConn_timerLive {id : Nat} (h : t.TimerLive id) (c : Conn) : (t.setConn id c).TimerLive id := by
  obtain ⟨nid, node, hlink, hrest⟩ := h
  refine ⟨nid, node, ?_, hrest⟩
  simp only [setConn_self]
  exact hlink

/-- The poller takes the connection back, with a new timer. -/
theorem epollMod_attended {id : Nat} (h : t.Attended id) {timeout : Int} (htimeout : 0 < timeout)
    (now : Nat) :
    (t.epollMod (.http id) timeout now true).TimerLive id ∧
      (t.epollMod (.http id) timeout now true).Slot id ∧
      (t.epollMod (.http id) timeout now true).interest (t.objects id).conn.chan.fd =
        some (t.objects id).conn.chan.events ∧
      ((t.epollMod (.http id) timeout now true).objects id).conn.http = (t.objects id).conn.http ∧
      ((t.epollMod (.http id) timeout now true).objects id).conn.chan.fd = (t.objects id).conn.chan.fd := by
  have hadded := t.addTimer_self id timeout now
  have hnoted : ((t.addTimer id timeout now).noteEvents (.http id)).objects id =
      { t.objects id with
        timer := some t.timersMade
        conn := { (t.objects id).conn with chan.lastEvents := (t.objects id).conn.chan.events } } := by
    simp only [noteEvents, setChan, setConn_self, chan,
      Channel.equalAndUpdateLastEvents, hadded]
  have htimer : ((t.addTimer id timeout now).noteEvents (.http id)).TimerLive id :=
    ⟨t.timersMade, ⟨false, now + timeout.toNat, some id⟩, by rw [hnoted], Table.get_set_self _ _ _, rfl, rfl⟩
  have hslot : ((t.addTimer id timeout now).noteEvents (.http id)).Slot id := by
    rw [Slot, hnoted]
    exact h.slot
  have hchan : (t.addTimer id timeout now).chan (.http id) = (t.objects id).conn.chan := by
    rw [chan, hadded]
  rw [epollMod_eq, startTimer_live h.live htimeout]
  simp only [hchan]
  split_ifs with hsame
  · refine ⟨htimer, hslot, ?_, by rw [hnoted], by rw [hnoted]⟩
    rw [← beq_iff_eq.mp hsame]
    exact h.interest
  · exact ⟨htimer, hslot, Function.update_self _ _ _, congrArg (·.conn.http) hnoted,
      congrArg (·.conn.chan.fd) hnoted⟩

/-- A descriptor that is not registered is not registered after a connection is destroyed. -/
theorem releaseOption_interest {fd : Nat} (h : s.interest fd = none) (o : Option Nat) :
    (s.releaseOption o).interest fd = none := by
  cases o with
  | none => exact h
  | some id =>
      rw [releaseOption, release]
      split_ifs
      · exact h
      · by_cases hfd : fd = (s.objects id).conn.http.fd
        · rw [destroy, hfd]
          exact Function.update_self _ _ _
        · exact (Function.update_of_ne hfd _ _).trans h

theorem handleClose_conn (s : Worker) (id : Nat) (ctlOk : Bool) :
    ((s.handleClose id ctlOk).objects id).conn =
      { (s.objects id).conn with http.connectionState := .disconnected } := by
  unfold handleClose epollDel resetSlots
  obtain ⟨b, hb⟩ := releaseOption_object _ _ id
  rw [hb]
  cases ctlOk
  all_goals simp only [if_true, Bool.false_eq_true, if_false, setConn_self, setObject_self]

/-- Neither table has an entry for the descriptor of a connection that was closed. -/
theorem handleClose_tables (s : Worker) (id : Nat) (ctlOk : Bool) :
    (s.handleClose id ctlOk).fd2chan.get ((s.handleClose id ctlOk).objects id).conn.chan.fd = none ∧
      (s.handleClose id ctlOk).fd2http.get ((s.handleClose id ctlOk).objects id).conn.chan.fd = none := by
  have hfd : ((s.setConn id { (s.objects id).conn with http.connectionState := .disconnected }).chan
      (.http id)).fd = (s.objects id).conn.chan.fd := by
    simp only [chan, setConn_self]
  rw [handleClose_conn, handleClose, epollDel]
  simp only [hfd]
  exact resetSlots_get _ _

theorem handleClose_removes (s : Worker) (id : Nat) : (s.handleClose id true).Removed id := by
  obtain ⟨hchan, hhttp⟩ := handleClose_tables s id true
  refine ⟨handleClose_removed s id true, by rw [handleClose_conn], hchan, hhttp, ?_⟩
  have hfd : ((s.setConn id { (s.objects id).conn with http.connectionState := .disconnected }).chan
      (.http id)).fd = (s.objects id).conn.chan.fd := by
    simp only [chan, setConn_self]
  rw [handleClose_conn, handleClose, epollDel]
  simp only [hfd, if_true]
  exact releaseOption_interest (Function.update_self _ _ _) _

/-- The calls of `handleConn` from the state its callback begins in. -/
theorem handleConn_runs {id : Nat} {io : Io} {d : Conn} (h : Runs id t d) {ks : List Call}
    (hfd : (handleConn d).chan.fd = d.chan.fd) (hlast : (handleConn d).chan.lastEvents = d.chan.lastEvents)
    (hcalls : (handleConn d).calls = d.calls ++ .clearTimer :: ks)
    (hrun : callback id io (fun c => .ok (handleConn c)) t = .ok u) :
    ∃ v, v.Attended id ∧ (v.objects id).conn = handleConn d ∧ (v.objects id).timer = none ∧
      ks.foldlM (call id io) v = .ok u := by
  rw [callback, if_pos h.attended.live, h.conn] at hrun
  simp only [hcalls, List.drop_left, List.foldlM_cons] at hrun
  have hset : (t.setConn id (handleConn d)).Attended id :=
    h.attended.setConn (hfd.trans (congrArg (·.chan.fd) h.conn.symm))
      (hlast.trans (congrArg (·.chan.lastEvents) h.conn.symm))
  obtain ⟨hcleared, hconn, htimer⟩ := clearTimer_attended hset
  have hcall : call id io (t.setConn id (handleConn d)) .clearTimer = _ := if_pos hset.live
  rw [hcall] at hrun
  refine ⟨_, hcleared, hconn.trans ?_, htimer, hrun⟩
  simp only [setConn_self]

/-- The output that `handleConn` leaves waiting without a registration for it, or with no timer. -/
def Strands (d : Conn) : Prop :=
  d.Draining ∨ d.http.error = false ∧ d.http.connectionState = .connected ∧ d.http.outBuffer ≠ [] ∧
    ¬ (handleConn d).chan.events.has EPOLLOUT

theorem handleConn_kept_iff {id : Nat} {io : Io} {d : Conn} (h : Runs id t d) (hctl : io.ctlOk = true)
    (hrun : callback id io (fun c => .ok (handleConn c)) t = .ok u) :
    u.Kept id True ↔ ¬ Strands d := by
  by_cases hconn : d.http.error = false ∧ d.http.connectionState = .connected
  · obtain ⟨timeout, htimeout, hcalls, hrearmed⟩ := handleConn_connected hconn.1 hconn.2
    obtain ⟨v, hv, hvconn, -, hlast⟩ := handleConn_runs h hrearmed.fd hrearmed.lastEvents hcalls hrun
    have hcall : call id io v (.updatePoller timeout) = .ok (v.epollMod (.http id) timeout io.now true) :=
      hctl ▸ if_pos hv.live
    rw [List.foldlM_cons, hcall] at hlast
    obtain rfl : v.epollMod (.http id) timeout io.now true = u := Except.ok.inj hlast
    obtain ⟨htimer, hslot, hinterest, hhttp, hfd⟩ := epollMod_attended hv htimeout io.now
    rw [hvconn] at hinterest hhttp hfd
    have hout : (v.epollMod (.http id) timeout io.now true).AwaitsOut id ↔
        (handleConn d).chan.events.has EPOLLOUT := by
      rw [AwaitsOut, hfd, hinterest]
      simp
    constructor
    · rintro (hremoved | ⟨-, hawaits⟩) (hdrain | ⟨-, -, hleft, hnot⟩)
      · exact absurd (hconn.2.symm.trans hdrain.2.1) (by decide)
      · exact absurd (hremoved.slot.symm.trans hslot) (by simp)
      · exact absurd (hconn.2.symm.trans hdrain.2.1) (by decide)
      · refine hnot (hout.mp (hawaits trivial ?_))
        rw [hhttp, hrearmed.http]
        exact hleft
    · intro hnot
      refine Or.inr ⟨htimer, fun _ hleft => hout.mpr ?_⟩
      rw [hhttp, hrearmed.http] at hleft
      by_contra hawaits
      exact hnot (Or.inr ⟨hconn.1, hconn.2, hleft, hawaits⟩)
  · by_cases hdrain : d.Draining
    · have hrun' := handleConn_draining hdrain
      have hcalls : (handleConn d).calls = d.calls ++ [.clearTimer] := congrArg Conn.calls hrun'
      obtain ⟨v, hv, hvconn, hvtimer, hlast⟩ := handleConn_runs h (congrArg (·.chan.fd) hrun')
        (congrArg (·.chan.lastEvents) hrun') hcalls hrun
      obtain rfl : v = u := Except.ok.inj hlast
      constructor
      · rintro (hremoved | ⟨⟨nid, node, hlink, -⟩, -⟩)
        · exact absurd (hremoved.slot.symm.trans hv.slot) (by simp)
        · rw [hvtimer] at hlink
          cases hlink
      · exact fun hnot => absurd (Or.inl hdrain) hnot
    · have hrun' := handleConn_closes hconn hdrain
      have hcalls : (handleConn d).calls = d.calls ++ [.clearTimer, .handleClose] :=
        congrArg Conn.calls hrun'
      obtain ⟨v, hv, hvconn, -, hlast⟩ := handleConn_runs h (congrArg (·.chan.fd) hrun')
        (congrArg (·.chan.lastEvents) hrun') hcalls hrun
      have hcall : call id io v .handleClose = .ok (v.handleClose id true) := hctl ▸ if_pos hv.live
      rw [List.foldlM_cons, hcall] at hlast
      obtain rfl : v.handleClose id true = u := Except.ok.inj hlast
      refine ⟨fun _ => ?_, fun _ => Or.inl (handleClose_removes v id)⟩
      rintro (h' | ⟨herror, hstate, -⟩)
      · exact hdrain h'
      · exact hconn ⟨herror, hstate⟩

end Worker

/-- `handleConn` finds the connection half closed with output waiting, or it is called on its own while
there is output. What the former is on the event say `beforeConn_draining` and `beforeConn_drains`. -/
def Conn.Abandons (host : Host) (c : Conn) : Prop :=
  ¬ c.chan.revents.Ignored ∧
    ((∃ d, c.beforeConn host = .ok d ∧ d.Draining) ∨
      ¬ c.chan.revents.Handled ∧ c.http.error = false ∧ c.http.connectionState = .connected ∧
        c.http.outBuffer ≠ [])

namespace Worker

variable {s t : Worker}

theorem strands_iff {host : Host} {c d : Conn} (hignored : ¬ c.chan.revents.Ignored)
    (hrun : c.beforeConn host = .ok d) : Strands d ↔ c.Abandons host := by
  have hdraining : (∃ d, c.beforeConn host = .ok d ∧ d.Draining) ↔ d.Draining := by
    simp only [hrun, Except.ok.injEq, exists_eq_left']
  rw [Conn.Abandons, hdraining, Strands, and_iff_right hignored]
  refine or_congr_right ⟨fun ⟨herror, hstate, hleft, hnot⟩ => ?_, fun ⟨hidle, hopen⟩ => ?_⟩
  · obtain ⟨timeout, -, -, hrearmed⟩ := handleConn_connected herror hstate
    by_cases hhandled : c.chan.revents.Handled
    · have hout := beforeConn_armed hignored hhandled hrun herror (by simp [hstate]) hleft
      exact absurd (hrearmed.out hout) hnot
    · obtain rfl := Except.ok.inj ((beforeConn_unhandled host hignored hhandled).symm.trans hrun)
      exact ⟨hhandled, herror, hstate, hleft⟩
  · obtain rfl := Except.ok.inj ((beforeConn_unhandled host hignored hidle).symm.trans hrun)
    obtain ⟨herror, hstate, hleft⟩ := hopen
    obtain ⟨timeout, -, -, hrearmed⟩ := handleConn_connected (c := c.clearEvents) herror hstate
    exact ⟨herror, hstate, hleft, hrearmed.idle rfl⟩

/-- **A connection is kept exactly if it is not abandoned**: after one `handleEvents` it is removed from
the poller, or it has a live timer and what output is left is awaited, unless it was half closed with
output waiting, or `handleConn` was called on its own while there was output. -/
theorem handleEvents_kept_iff {id : Nat} {io : Io} (hs : s.Watched id) (hctl : io.ctlOk = true)
    (hrun : s.handleEvents io (.http id) = .ok t) :
    t.Kept id (¬ (s.objects id).conn.chan.revents.Ignored) ↔
      ¬ ((s.meet id io).objects id).conn.Abandons io.host := by
  have hmet : ((s.meet id io).objects id).conn = { (s.objects id).conn with
      sock := { (s.objects id).conn.sock with reads := io.reads, writes := io.writes } } := by
    simp only [meet, setConn_self]
  have hrevents : ((s.meet id io).objects id).conn.chan.revents = (s.objects id).conn.chan.revents := by
    rw [hmet]
  have hmeet : (s.meet id io).Attended id := hs.attended.setConn rfl rfl
  rw [handleEvents] at hrun
  by_cases hignored : (s.objects id).conn.chan.revents.Ignored
  · have hnot : ¬ ((s.meet id io).objects id).conn.Abandons io.host := fun h =>
      h.1 (hrevents.symm ▸ hignored)
    refine ⟨fun _ => hnot, fun _ => Or.inr ⟨?_, fun h => absurd hignored h⟩⟩
    rw [handleEvents_ignored hignored] at hrun
    obtain rfl := Except.ok.inj hrun
    exact setConn_timerLive (setConn_timerLive (setConn_timerLive hs.timer _) _) _
  · have hstart : Runs id (s.meet id io) ((s.meet id io).objects id).conn := ⟨hmeet, rfl⟩
    have hwrite (c c' : Conn) (h : Except.ok (handleWrite c) = (.ok c' : Except Fault Conn)) :
        Mild c c' := Except.ok.inj h ▸ handleWrite_mild c
    have hsim : ∃ d, ((s.meet id io).objects id).conn.beforeConn io.host = .ok d ∧
        ∃ v, Runs id v d ∧ callback id io (fun c => .ok (handleConn c)) v = .ok t := by
      rw [Conn.beforeConn, hrevents]
      refine handleEvents_sim (R := Runs id)
        (S := fun u d => ∃ v, Runs id v d ∧ callback id io (fun c => .ok (handleConn c)) v = .ok u)
        ?_ ?_ ?_ ?_ hstart hignored hrun
      · exact fun _ _ => clearEvents_runs
      · exact fun _ _ _ h hread => callback_runs (fun _ _ => handleRead_mild) h hread
      · exact fun _ _ _ h hwritten => callback_runs hwrite h hwritten
      · exact fun v d u h hlast => ⟨d, rfl, v, h, hlast⟩
    obtain ⟨d, hd, v, hv, hlast⟩ := hsim
    rw [← hrevents] at hignored ⊢
    rw [← strands_iff hignored hd, ← handleConn_kept_iff hv hctl hlast]
    simp only [hignored, not_false_eq_true]

/-- A connection with the last byte of a response still to be sent, for which `revents` is reported. -/
def responding (revents : EventMask) : Worker where
  wakeupChannel := ⟨3, EventLoop.wakeupEvents, 0, EventLoop.wakeupEvents⟩
  objects := fun _ =>
    { conn := { Conn.fresh 5 with
        http.outBuffer := bytes "x"
        chan := ⟨5, 0, revents, EPOLLOUT ||| EPOLLET⟩ }
      timer := some 0
      registered := true
      removed := false
      destroyed := false }
  made := 1
  fd2chan := (Table.empty.set 3 .wakeup).set 5 (.http 0)
  fd2http := Table.empty.set 5 0
  timers := Table.empty.set 0 ⟨false, 2000, some 0⟩
  timersMade := 1
  interest := fun fd => if fd = 5 then some (EPOLLOUT ||| EPOLLET) else none
  acceptors := []
  pendingFunctors := []
  functors := []
  called := 0
  ready := [.http 0]
  pc := .dispatch
  misuse := false

theorem responding_watched (revents : EventMask) : (responding revents).Watched 0 where
  live := ⟨Nat.one_pos, rfl⟩
  chanSlot := rfl
  slot := rfl
  interest := rfl
  timer := ⟨0, _, rfl, rfl, rfl, rfl⟩

/-- The socket does not take the byte: the connection waits for it with a new timer. -/
theorem handleEvents_kept_responding :
    ∃ t, (responding EPOLLOUT).handleEvents ⟨someHost, [], [.eagain], 0, true⟩ (.http 0) = .ok t ∧
      t.Kept 0 (¬ EPOLLOUT.Ignored) := by
  have hexec : ∃ t, (responding EPOLLOUT).handleEvents ⟨someHost, [], [.eagain], 0, true⟩
      (.http 0) = .ok t := ⟨_, rfl⟩
  obtain ⟨t, ht⟩ := hexec
  refine ⟨t, ht, (handleEvents_kept_iff (responding_watched EPOLLOUT) rfl ht).mpr ?_⟩
  rintro ⟨hignored, ⟨d, hd, hdrain⟩ | ⟨hunhandled, -⟩⟩
  · -- the connection is open, and nothing is read
    obtain ⟨-, hclosed | ⟨read, hread, heof⟩, -⟩ := beforeConn_draining hignored hd hdrain
    · cases hclosed
    · rw [(List.append_eq_nil_iff.mp hread.symm).1] at heof
      cases heof
  · exact hunhandled (by decide)

/-- The peer is done sending, and the socket does not take the byte: the connection has no timer. -/
theorem handleEvents_half_closed_abandoned :
    (responding EPOLLIN).Watched 0 ∧
      ∃ t, (responding EPOLLIN).handleEvents ⟨someHost, [.eof], [.eagain], 0, true⟩ (.http 0) =
          .ok t ∧ ¬ t.Kept 0 (¬ EPOLLIN.Ignored) := by
  have hexec : ((responding EPOLLIN).handleEvents ⟨someHost, [.eof], [.eagain], 0, true⟩ (.http 0)).map
      (fun t => ((t.objects 0).timer, (t.objects 0).removed)) = .ok (none, false) := by
    decide +kernel
  obtain ⟨t, ht, hends⟩ := map_eq_ok hexec
  obtain ⟨htimer, hremoved⟩ : _ ∧ _ := by simpa only [Prod.mk.injEq] using hends
  refine ⟨responding_watched EPOLLIN, t, ht, ?_⟩
  rintro (h | ⟨⟨nid, node, hlink, -⟩, -⟩)
  · exact absurd (h.removed.symm.trans hremoved) (by decide)
  · exact absurd (hlink.symm.trans htimer) (by simp)

end Worker

end WebServer
