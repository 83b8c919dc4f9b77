import WebServer.HttpHandleRead

/-! Connections that are never answered. A connection that has read no header is stuck in the parsing
states: every section of `handleRead` keeps it there, and writes nothing unless it ends in an error. In
particular `handleRead` calls itself at most once, and whether it returns depends on its log records. -/

namespace WebServer

open Stages

/-- No header was read, and the header scan is in a state it does not leave. -/
structure Unanswered (h : HttpData) : Prop where
  headers : h.headers = []
  plain : h.hState.Plain
  unanalysed : h.state ≠ .analysis
  unfinished : h.state ≠ .finish

/-- From the first state to the second nothing was answered, unless the second is in error. -/
def Silent (c c' : Conn) : Prop :=
  c'.http.error = false →
    c.http.error = false ∧ c'.http.outBuffer = c.http.outBuffer ∧ c'.sock.sent = c.sock.sent

theorem Silent.trans (c d e : Conn) (hcd : Silent c d) (hde : Silent d e) : Silent c e := by
  intro he
  obtain ⟨hd, hout, hsent⟩ := hde he
  obtain ⟨hc, hout', hsent'⟩ := hcd hd
  exact ⟨hc, hout.trans hout', hsent.trans hsent'⟩

theorem rejected_silent (shortMsg : Bytes) (c d : Conn) : Silent d (rejected shortMsg c) :=
  fun h => absurd h (by simp [rejected])

/-- The section keeps a connection unanswered, and is silent. -/
def Unanswering (s : Section) : Prop :=
  s.Relates fun c d => Unanswered c.http → Unanswered d.http ∧ Silent c d

theorem Unanswering.seq {first second : Section} (hfirst : Unanswering first) (hsecond : Unanswering second) :
    Unanswering (first.seq second) := by
  refine Stage.Relates.seq (fun c d e hcd hde hc => ?_) hfirst hsecond
  obtain ⟨hd, hsilent⟩ := hcd hc
  obtain ⟨he, hsilent'⟩ := hde hd
  exact ⟨he, hsilent.trans _ _ _ hsilent'⟩

theorem readSection_unanswering (host : Host) : Unanswering (readSection host) := by
  rintro c flow d hrun ⟨hheaders, hplain, hanalysis, hfinish⟩
  unfold readSection at hrun
  obtain ⟨-, -, hrun⟩ := bind_eq_ok hrun
  simp only [badRequest_ok shortMsg_badRequest] at hrun
  split_ifs at hrun
  · cases hrun
    exact ⟨⟨hheaders, hplain, hanalysis, hfinish⟩, fun h => ⟨h, rfl, rfl⟩⟩
  · cases hrun
    exact ⟨⟨hheaders, hplain, hanalysis, hfinish⟩, rejected_silent _ _ _⟩
  all_goals
    cases hrun
    exact ⟨⟨hheaders, hplain, hanalysis, hfinish⟩, fun h => ⟨h, rfl, rfl⟩⟩

theorem uriSection_unanswering (host : Host) : Unanswering (uriSection host) := by
  intro c flow d hrun hc
  rcases uriSection_cases c with ⟨r, hstate, hline⟩ | ⟨r, hstate, hline⟩ | hstate
  · rw [uriSection_rejects host hstate hline] at hrun
    obtain ⟨-, -, ⟨⟩⟩ := map_eq_ok hrun
    exact ⟨⟨hc.headers, hc.plain, hc.unanalysed, hc.unfinished⟩, rejected_silent _ _ _⟩
  · rw [uriSection_accepts host hstate hline] at hrun
    cases hrun
    exact ⟨⟨hc.headers, hc.plain, by simp, by simp⟩, fun h => ⟨h, rfl, rfl⟩⟩
  · rw [uriSection_skip host hstate] at hrun
    cases hrun
    exact ⟨hc, fun h => ⟨h, rfl, rfl⟩⟩

/-- A header of which more is to come is logged and rejected, if it can be cut at its beginning. -/
theorem headersSection_waits (host : Host) {c : Conn} (hstate : c.http.state = .parseHeaders)
    (hplain : c.http.hState.Plain) (hstop : headerStop c.http.hState c.http.inBuffer = none)
    (hcut : keptFrom c.http.hState c.http.inBuffer ≤ c.http.inBuffer.length) :
    headersSection host c =
      (host.logHeadersFailed c.http.fd (kept c.http.hState c.http.inBuffer)).map fun _ =>
        (.brk, rejected (bytes "Bad Request") { c with http := { c.http with
          hState := plainEnd c.http.hState c.http.inBuffer, inBuffer := [] } }) := by
  rw [headersSection_again host hstate (parseHeaders_waits hplain hcut hstop)]

theorem headersSection_throws (host : Host) {c : Conn} (hstate : c.http.state = .parseHeaders)
    (hplain : c.http.hState.Plain) (hstop : headerStop c.http.hState c.http.inBuffer = none)
    (hcut : c.http.inBuffer.length < keptFrom c.http.hState c.http.inBuffer) :
    headersSection host c = .error .substrRange := by
  rw [headersSection, if_pos hstate, parseHeaders_throws hplain hcut hstop]
  rfl

theorem headersSection_unanswering (host : Host) : Unanswering (headersSection host) := by
  intro c flow d hrun hc
  by_cases hstate : c.http.state = .parseHeaders
  · cases hstop : headerStop c.http.hState c.http.inBuffer with
    | none =>
        rcases Nat.lt_or_ge c.http.inBuffer.length (keptFrom c.http.hState c.http.inBuffer) with hcut | hcut
        · rw [headersSection_throws host hstate hc.plain hstop hcut] at hrun
          cases hrun
        · rw [headersSection_waits host hstate hc.plain hstop hcut] at hrun
          obtain ⟨-, -, ⟨⟩⟩ := map_eq_ok hrun
          exact ⟨⟨hc.headers, plainEnd_plain hc.plain hstop, hc.unanalysed, hc.unfinished⟩,
            rejected_silent _ _ _⟩
    | some st =>
        have hst := headerStop_plain hc.plain hstop
        by_cases hpost : c.http.method = .post
        · rw [headersSection_post host hstate hstop hpost] at hrun
          cases hrun
          exact ⟨⟨hc.headers, hst, by simp, by simp⟩, fun h => ⟨h, rfl, rfl⟩⟩
        · rw [headersSection_other host hstate hstop hpost] at hrun
          cases hrun
          exact ⟨⟨hc.headers, hst, hc.unanalysed, hc.unfinished⟩, fun h => ⟨h, rfl, rfl⟩⟩
  · rw [headersSection_skip host hstate] at hrun
    cases hrun
    exact ⟨hc, fun h => ⟨h, rfl, rfl⟩⟩

/-- Without a header there is no length. -/
theorem Unanswered.lacks_length {h : HttpData} (hc : Unanswered h) :
    h.headers.find (bytes "Content-length") = none := by
  rw [hc.headers]
  rfl

theorem bodySection_unanswering : Unanswering bodySection := by
  intro c flow d hrun hc
  by_cases hstate : c.http.state = .recvBody
  · rw [bodySection_rejects hstate hc.lacks_length] at hrun
    cases hrun
    exact ⟨⟨hc.headers, hc.plain, hc.unanalysed, hc.unfinished⟩, rejected_silent _ _ _⟩
  · rw [bodySection_skip hstate] at hrun
    cases hrun
    exact ⟨hc, fun h => ⟨h, rfl, rfl⟩⟩

theorem analysisSection_unanswering (fs : FileSystem) : Unanswering (analysisSection fs) := by
  intro c flow d hrun hc
  rw [analysisSection_skip hc.unanalysed] at hrun
  cases hrun
  exact ⟨hc, fun h => ⟨h, rfl, rfl⟩⟩

theorem handleReadBody_unanswering (host : Host) : Unanswering (handleReadBody host) :=
  (readSection_unanswering host).seq <| (uriSection_unanswering host).seq <|
    (headersSection_unanswering host).seq <| bodySection_unanswering.seq <|
      analysisSection_unanswering host.files

/-- A header of which more is to come can be cut at its beginning (from `2 ^ 31` bytes on the `int` position of
the cut can lie outside), and the record of what is kept of it goes through. -/
def HeaderLogged (host : Host) (fd : Nat) (st : ParseState) (text : Bytes) : Prop :=
  headerStop st text = none →
    keptFrom st text ≤ text.length ∧ host.logHeadersFailed fd (kept st text) = .ok ()

/-- The records of what is parsed go through, and the header can be cut. -/
def Conn.ParsedLogged (host : Host) (c : Conn) : Prop :=
  match c.http.state with
  | .parseURI => ∀ flag r, c.readsLine flag r →
      if flag = .success then
        HeaderLogged host c.http.fd c.http.hState (afterLine c.http.inBuffer c.http.nowReadPos)
      else host.logURIFailed c.http.fd (afterLine c.http.inBuffer c.http.nowReadPos) = .ok ()
  | .parseHeaders => HeaderLogged host c.http.fd c.http.hState c.http.inBuffer
  | .recvBody | .analysis | .finish => True

/-- The records of `handleRead` go through, and its input can be cut. -/
def Conn.Logged (host : Host) (c : Conn) : Prop :=
  host.logRequest c.afterRead.http.inBuffer = .ok () ∧ (c.ReadsOn → c.afterRead.ParsedLogged host)

theorem headerSections_ok_iff (host : Host) {c : Conn} (hc : Unanswered c.http) :
    (∃ r, headerSections host c = .ok r) ↔
      (c.http.state = .parseHeaders → HeaderLogged host c.http.fd c.http.hState c.http.inBuffer) := by
  have hrest {d : Conn} (hd : Unanswered d.http) :
      ∃ r, bodySection.seq (analysisSection host.files) d = .ok r := by
    by_cases hbody : d.http.state = .recvBody
    · exact ⟨_, seq_brk (bodySection_rejects hbody hd.lacks_length)⟩
    · exact ⟨_, (seq_next (bodySection_skip hbody)).trans (analysisSection_skip hd.unanalysed)⟩
  by_cases hstate : c.http.state = .parseHeaders
  · rw [headerSections]
    cases hstop : headerStop c.http.hState c.http.inBuffer with
    | none =>
        rcases Nat.lt_or_ge c.http.inBuffer.length (keptFrom c.http.hState c.http.inBuffer) with hcut | hcut
        · rw [seq_error (headersSection_throws host hstate hc.plain hstop hcut)]
          exact iff_of_false (error_ne_ok _) fun h => absurd (h hstate hstop).1 (by omega)
        · have hwaits := headersSection_waits host hstate hc.plain hstop hcut
          cases hlog : host.logHeadersFailed c.http.fd (kept c.http.hState c.http.inBuffer) with
          | error f =>
              rw [hlog] at hwaits
              rw [seq_error hwaits]
              refine iff_of_false (error_ne_ok _) fun h => ?_
              cases hlog.symm.trans (h hstate hstop).2
          | ok _ =>
              rw [hlog] at hwaits
              exact iff_of_true ⟨_, seq_brk hwaits⟩ fun _ _ => ⟨hcut, hlog⟩
    | some st =>
        have hst := headerStop_plain hc.plain hstop
        refine iff_of_true ?_ fun _ hnone => by cases hstop.symm.trans hnone
        by_cases hpost : c.http.method = .post
        · rw [seq_next (headersSection_post host hstate hstop hpost)]
          exact hrest ⟨hc.headers, hst, by simp, by simp⟩
        · rw [seq_next (headersSection_other host hstate hstop hpost)]
          exact hrest ⟨hc.headers, hst, hc.unanalysed, hc.unfinished⟩
  · rw [headerSections, seq_next (headersSection_skip host hstate)]
    exact iff_of_true (hrest hc) fun h => absurd h hstate

theorem parsedSections_ok_iff (host : Host) {c : Conn} (hc : Unanswered c.http) :
    (∃ r, (uriSection host).seq (headerSections host) c = .ok r) ↔ c.ParsedLogged host := by
  rcases uriSection_cases c with ⟨r, hstate, hline⟩ | ⟨r, hstate, hline⟩ | hstate
  · have hlogged : c.ParsedLogged host ↔
        host.logURIFailed c.http.fd (afterLine c.http.inBuffer c.http.nowReadPos) = .ok () := by
      simp only [Conn.ParsedLogged, hstate]
      constructor
      · exact fun h => h .error r hline
      · intro hlog flag r' hline'
        cases hline.symm.trans hline'
        exact hlog
    have hsection := uriSection_rejects host hstate hline
    rw [hlogged]
    cases hlog : host.logURIFailed c.http.fd (afterLine c.http.inBuffer c.http.nowReadPos) with
    | error f =>
        rw [hlog] at hsection
        rw [seq_error hsection]
        exact iff_of_false (error_ne_ok _) fun h => by cases h
    | ok _ =>
        rw [hlog] at hsection
        exact iff_of_true ⟨_, seq_brk hsection⟩ rfl
  · have hlogged : c.ParsedLogged host ↔
        HeaderLogged host c.http.fd c.http.hState (afterLine c.http.inBuffer c.http.nowReadPos) := by
      simp only [Conn.ParsedLogged, hstate]
      constructor
      · exact fun h => h .success r hline
      · intro hlog flag r' hline'
        cases hline.symm.trans hline'
        exact hlog
    rw [seq_next (uriSection_accepts host hstate hline), hlogged,
      headerSections_ok_iff host (c := { c.withLine r with http.state := .parseHeaders })
        ⟨hc.headers, hc.plain, by simp, by simp⟩]
    exact ⟨fun h => h rfl, fun h _ => h⟩
  · rw [seq_next (uriSection_skip host hstate), headerSections_ok_iff host hc]
    unfold Conn.ParsedLogged
    cases hst : c.http.state with
    | parseURI => exact absurd hst hstate
    | parseHeaders => exact ⟨fun h => h rfl, fun h _ => h⟩
    | _ => exact iff_of_true (fun h => by cases h) trivial

/-- **Whether the body of `handleRead` ends** depends on its log records, and on where the input can be cut. -/
theorem handleReadBody_ok_iff (host : Host) {c : Conn} (hc : Unanswered c.http) :
    (∃ r, handleReadBody host c = .ok r) ↔ c.Logged host := by
  obtain ⟨flow, st, d, hread, hflow, hnext⟩ := readSection_logs host c
  rw [handleReadBody, Conn.Logged]
  cases hlog : host.logRequest c.afterRead.http.inBuffer with
  | error f =>
      rw [hlog] at hread
      rw [seq_error hread]
      exact iff_of_false (error_ne_ok f) fun h => by cases h.1
  | ok _ =>
      rw [hlog] at hread
      cases flow with
      | brk =>
          rw [seq_brk hread]
          exact iff_of_true ⟨_, rfl⟩ ⟨rfl, fun h => by cases hflow.mpr h⟩
      | next =>
          obtain rfl := hnext rfl
          rw [seq_next hread]
          have hparsed := parsedSections_ok_iff host (c := { c.afterRead with http.connectionState := st })
            ⟨hc.headers, hc.plain, hc.unanalysed, hc.unfinished⟩
          exact ⟨fun h => ⟨rfl, fun _ => hparsed.mp h⟩, fun h => hparsed.mpr (h.2 (hflow.mp rfl))⟩

/-- `handleWrite` leaves what the parser works on alone. -/
theorem handleWrite_unanswered {c : Conn} (hc : Unanswered c.http) : Unanswered (handleWrite c).http := by
  obtain ⟨hheaders, hplain, hanalysis, hfinish⟩ := hc
  unfold handleWrite
  simp only []
  split_ifs <;> exact ⟨hheaders, hplain, hanalysis, hfinish⟩

/-- A pass ends without a request finished. -/
theorem handleReadPass_unanswered {host : Host} {c c' : Conn} (hc : Unanswered c.http)
    (hrun : handleReadPass host c = .ok c') : Unanswered c'.http := by
  obtain ⟨flow, d, hbody, ⟨-, rfl⟩ | ⟨-, rfl⟩⟩ := handleReadPass_cases hrun
  · exact (handleReadBody_unanswering host c flow _ hbody hc).1
  · exact handleWrite_unanswered (handleReadBody_unanswering host c flow d hbody hc).1

theorem handleReadPass_ok_iff (host : Host) {c : Conn} (hc : Unanswered c.http) :
    (∃ d, handleReadPass host c = .ok d) ↔ c.Logged host := by
  rw [← handleReadBody_ok_iff host hc]
  constructor
  · rintro ⟨d, hrun⟩
    obtain ⟨flow, e, hbody, -⟩ := handleReadPass_cases hrun
    exact ⟨_, hbody⟩
  · rintro ⟨⟨flow, d⟩, hbody⟩
    cases herror : d.http.error with
    | true => exact ⟨d, handleReadPass_error hbody herror⟩
    | false => exact ⟨_, handleReadPass_write hbody herror⟩

theorem handleReadN_unanswered (host : Host) (n : Nat) {c : Conn} (hc : Unanswered c.http) :
    handleReadN host (n + 1) c = handleReadPass host c := by
  cases hpass : handleReadPass host c with
  | error f => simp only [handleReadN, hpass, bind, Except.bind]
  | ok c' => exact handleReadN_pass hpass (Or.inr (handleReadPass_unanswered hc hpass).unfinished)

theorem reset_unanswered (c : Conn) : Unanswered (reset c).http :=
  ⟨rfl, Or.inl rfl, by simp [reset, Conn.call], by simp [reset, Conn.call]⟩

/-- **The self-call of `handleRead` is not nested**: a bound of two on its depth is no bound. -/
theorem handleReadN_eq (host : Host) (n : Nat) (c : Conn) :
    handleReadN host (n + 2) c = handleRead host c := by
  rw [handleRead, handleReadN, handleReadN]
  simp only [handleReadN_unanswered host _ (reset_unanswered _)]

/-- **`handleRead` returns**, for a connection that is unanswered, just if its records go through. -/
theorem handleRead_ok_iff (host : Host) {c : Conn} (hc : Unanswered c.http) :
    (∃ d, handleRead host c = .ok d) ↔ c.Logged host := by
  rw [handleRead, handleReadN_unanswered host 1 hc]
  exact handleReadPass_ok_iff host hc

/-- `handleRead` calls itself behind the pass. -/
def Conn.CallsAgain (c : Conn) : Prop :=
  c.http.error = false ∧ c.http.state = .finish ∧ c.http.inBuffer ≠ [] ∧
    c.http.connectionState ≠ .disconnecting

/-- After a pass `handleRead` returns just if its self-call does, where there is one. -/
theorem handleRead_returns_iff {host : Host} {c e : Conn} (hpass : handleReadPass host c = .ok e) :
    (∃ d, handleRead host c = .ok d) ↔ (e.CallsAgain → (reset e).Logged host) := by
  have hagain := handleReadPass_ok_iff host (reset_unanswered e)
  rw [← handleReadN_unanswered host 0 (reset_unanswered e)] at hagain
  rw [handleRead, handleReadN]
  simp only [hpass, bind, Except.bind]
  by_cases hdone : e.http.error = false ∧ e.http.state = .finish
  · rw [if_pos hdone]
    by_cases hleft : (reset e).http.inBuffer ≠ []
    · rw [if_pos hleft]
      by_cases hopen : (reset e).http.connectionState ≠ .disconnecting
      · rw [if_pos hopen, hagain]
        exact ⟨fun h _ => h, fun h => h ⟨hdone.1, hdone.2, hleft, hopen⟩⟩
      · rw [if_neg hopen]
        exact iff_of_true ⟨_, rfl⟩ fun h => absurd h.2.2.2 hopen
    · rw [if_neg hleft]
      refine iff_of_true ?_ fun h => absurd h.2.2.1 hleft
      split_ifs <;> exact ⟨_, rfl⟩
  · rw [if_neg hdone]
    exact iff_of_true ⟨_, rfl⟩ fun h => absurd ⟨h.1, h.2.1⟩ hdone

/-- The records depend on the input of a connection, and on what it is parsed as. -/
structure SameInput (c d : Conn) : Prop where
  fd : c.http.fd = d.http.fd
  inBuffer : c.http.inBuffer = d.http.inBuffer
  connectionState : c.http.connectionState = d.http.connectionState
  method : c.http.method = d.http.method
  httpVersion : c.http.httpVersion = d.http.httpVersion
  fileName : c.http.fileName = d.http.fileName
  nowReadPos : c.http.nowReadPos = d.http.nowReadPos
  state : c.http.state = d.http.state
  hState : c.http.hState = d.http.hState
  reads : c.sock.reads = d.sock.reads

theorem SameInput.logged_iff {c d : Conn} (h : SameInput c d) (host : Host) : c.Logged host ↔ d.Logged host := by
  simp only [Conn.Logged, Conn.ReadsOn, Conn.ParsedLogged, Conn.readsLine, Conn.afterRead, h.fd, h.inBuffer,
    h.connectionState, h.method, h.httpVersion, h.fileName, h.nowReadPos, h.state, h.hState, h.reads]

theorem handleWrite_sameInput (c : Conn) : SameInput (handleWrite c) c := by
  unfold handleWrite
  simp only []
  split_ifs
  any_goals exact ⟨rfl, rfl, rfl, rfl, rfl, rfl, rfl, rfl, rfl, rfl⟩
  all_goals
    refine ⟨rfl, rfl, rfl, rfl, rfl, rfl, rfl, rfl, rfl, ?_⟩
    unfold writenString
    simp only []
    split_ifs <;> rfl

/-- Without output pending, an unanswered connection that is not in error has sent nothing more. -/
theorem handleRead_silent (host : Host) {c c' : Conn} (hc : Unanswered c.http)
    (hout : c.http.outBuffer = []) (hrun : handleRead host c = .ok c') : Silent c c' := by
  rw [handleRead, handleReadN_unanswered host 1 hc] at hrun
  obtain ⟨flow, d, hbody, hend⟩ := handleReadPass_cases hrun
  obtain ⟨-, hsilent⟩ := handleReadBody_unanswering host c flow d hbody hc
  obtain ⟨-, rfl⟩ | ⟨herror, rfl⟩ := hend
  · exact hsilent
  · rwa [handleWrite_empty ((hsilent herror).2.1.trans hout)]

theorem headerLogged_of_room {host : Host} {n fd : Nat} (hroom : host.HasRoom n) (st : ParseState) {text : Bytes}
    (htext : text.length ≤ n) : HeaderLogged host fd st text := by
  have hshort : n < kSmallBuffer := by
    unfold Host.HasRoom at hroom
    omega
  have hsmall : kSmallBuffer = 4096 := rfl
  exact fun _ => ⟨keptFrom_le st (by omega), hroom.logFailed ((kept_length_le st text).trans htext) (by decide)⟩

/-- The records of a short input go through. -/
theorem Conn.logged_of_room {host : Host} {c : Conn} {n : Nat} (hroom : host.HasRoom n)
    (hn : c.afterRead.http.inBuffer.length ≤ n) : c.Logged host := by
  refine ⟨hroom.logRequest hn, fun _ => ?_⟩
  have hline := ((afterLine_suffix c.afterRead.http.inBuffer c.http.nowReadPos).length_le).trans hn
  unfold Conn.ParsedLogged
  split
  · intro flag r _
    split_ifs
    · exact headerLogged_of_room hroom _ hline
    · exact hroom.logFailed hline (by decide)
  · exact headerLogged_of_room hroom _ hn
  all_goals trivial

end WebServer
