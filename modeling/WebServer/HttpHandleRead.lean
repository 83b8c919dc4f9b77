import WebServer.HttpRequestLine
import WebServer.HttpHeaders
import WebServer.HttpAnalysis
import WebServer.HttpLog
import WebServer.Stages

/-! `HttpData::handleRead` and `handleWrite`. The body of `handleRead` is a `do … while(false)` whose
sections either go on to the next one or break out. After it, a request that was answered resets the
connection, and `handleRead` calls itself while input is left. What is read is logged first, and what is
rejected once more: a record that is lost takes the handler with it. -/

namespace WebServer

open Stages

/-- A section of the body of `handleRead`. -/
abbrev Section := Stage Fault Conn

/-- `m_error = true; handleError(m_fd, 400, shortMsg); break;` -/
def badRequest (shortMsg : Bytes) : Section := fun c => do
  let c ← handleError { c with http.error := true } 400 shortMsg
  return (.brk, c)

def readSection (host : Host) : Section := fun c => do
  let r := readn c.sock.reads c.http.inBuffer
  let readNum := toInt r.value
  let c := { c with http.inBuffer := r.inBuffer, sock.reads := r.reads }
  host.logRequest c.http.inBuffer
  if c.http.connectionState = .disconnecting then return (.brk, { c with http.inBuffer := [] })
  else if readNum < 0 then badRequest (bytes "Bad Request") c
  else if r.zero then
    let c := { c with http.connectionState := .disconnecting }
    if readNum = 0 then return (.brk, c) else return (.next, c)
  else return (.next, c)

def uriSection (host : Host) : Section := fun c =>
  if c.http.state = .parseURI then do
    let (flag, h) ← parseURI c.http
    let c := { c with http := h }
    if flag = .again then return (.brk, c)
    else if flag = .error then
      host.logURIFailed c.http.fd c.http.inBuffer
      badRequest (bytes "Bad Request") { c with http.inBuffer := [] }
    else return (.next, { c with http.state := .parseHeaders })
  else .ok (.next, c)

/-- The two tests compare a `HeaderState` with enumerators of `URIState`, and the last assignment of
the source is a comparison. -/
def headersSection (host : Host) : Section := fun c =>
  if c.http.state = .parseHeaders then do
    let (flag, h) ← parseHeaders c.http
    let c := { c with http := h }
    if flag.toNat = URIState.again.toNat then return (.brk, c)
    else if flag.toNat = URIState.error.toNat then
      host.logHeadersFailed c.http.fd c.http.inBuffer
      badRequest (bytes "Bad Request") { c with http.inBuffer := [] }
    else if c.http.method = .post then return (.next, { c with http.state := .recvBody })
    else return (.next, c)
  else .ok (.next, c)

def bodySection : Section := fun c =>
  if c.http.state = .recvBody then
    match c.http.headers.find (bytes "Content-length") with
    | some value => do
        let contentLength ← stoi value
        if toInt c.http.inBuffer.length < contentLength then return (.brk, c)
        else return (.next, { c with http.state := .analysis })
    | none => badRequest (bytes "Bad Reqeust: Lack of argument(Conten-length)") c
  else .ok (.next, c)

def analysisSection (fs : FileSystem) : Section := fun c =>
  if c.http.state = .analysis then do
    let (flag, c) ← analysisRequest fs c
    if flag = .success then return (.brk, { c with http.state := .finish })
    else return (.brk, { c with http.error := true })
  else .ok (.next, c)

/-- The sections after that of the request line. -/
def headerSections (host : Host) : Section :=
  Stage.seq (headersSection host) (Stage.seq bodySection (analysisSection host.files))

/-- The body of the `do … while(false)`. -/
def handleReadBody (host : Host) : Section :=
  Stage.seq (readSection host) (Stage.seq (uriSection host) (headerSections host))

/-- `HttpData::handleWrite`. -/
def handleWrite (c : Conn) : Conn :=
  if c.http.error = false ∧ c.http.connectionState ≠ .disconnected then
    let r := writenString c.sock c.http.outBuffer
    let c := { c with sock := r.sock, http.outBuffer := r.sbuff }
    let c := if toInt r.value < 0 then { c with chan.events := 0, http.error := true } else c
    if c.http.outBuffer ≠ [] then { c with chan.events := c.chan.events ||| EPOLLOUT } else c
  else c

/-- One pass of `handleRead` up to the reset: the body, and the write after it. -/
def handleReadPass (host : Host) (c : Conn) : Except Fault Conn := do
  let (_, c) ← handleReadBody host c
  if c.http.error then return c else return handleWrite c

/-- `HttpData::handleRead`, its self-calls nested at most `n` deep. -/
def handleReadN (host : Host) : Nat → Conn → Except Fault Conn
  | 0, _ => .error .depth
  | n + 1, c => do
      let c ← handleReadPass host c
      if c.http.error = false ∧ c.http.state = .finish then
        let c := reset c
        if c.http.inBuffer ≠ [] then
          if c.http.connectionState ≠ .disconnecting then handleReadN host n c else return c
        else if c.http.error = false ∧ c.http.connectionState ≠ .disconnected then
          return { c with chan.events := c.chan.events ||| EPOLLIN }
        else return c
      else return c

/-- `HttpData::handleRead`. It calls itself at most once: see `handleReadN_eq`. -/
def handleRead (host : Host) (c : Conn) : Except Fault Conn := handleReadN host 2 c

set_option maxRecDepth 2000 in
theorem shortMsg_badRequest : ShortMsg 400 (bytes "Bad Request") := ⟨by decide, by decide⟩

set_option maxRecDepth 4000 in
theorem shortMsg_lackOfLength : ShortMsg 400 (bytes "Bad Reqeust: Lack of argument(Conten-length)") :=
  ⟨by decide, by decide⟩

/-- The connection after a request was rejected. -/
def rejected (shortMsg : Bytes) (c : Conn) : Conn := { c with
  http.error := true
  sock := writenBuff (writenBuff c.sock (cstr (errorHeader 400 shortMsg)))
    (cstr (errorBody 400 shortMsg))
  calls := c.calls ++ [.handleError 400 shortMsg] }

theorem badRequest_ok {shortMsg : Bytes} (h : ShortMsg 400 shortMsg) (c : Conn) :
    badRequest shortMsg c = .ok (.brk, rejected shortMsg c) := by
  simp only [badRequest, handleError_ok h, bind, Except.bind, pure, Except.pure, rejected]

/-! ### What the sections do -/

/-- What `parseURI` writes. -/
theorem parseURI_frame {h h' : HttpData} {flag : URIState} (hrun : parseURI h = .ok (flag, h')) :
    ∃ (inBuffer : Bytes) (r : RequestLine), h' = { h with
      inBuffer := inBuffer, method := r.method, httpVersion := r.httpVersion, fileName := r.fileName } := by
  obtain ⟨flag', r, hline, -⟩ := parseRequestLine_ok ⟨h.method, h.httpVersion, h.fileName⟩
    (requestLine h.inBuffer h.nowReadPos)
  rw [parseURI_eq hline] at hrun
  cases hrun
  exact ⟨_, r, rfl⟩

/-- What `parseHeaders` writes. -/
theorem parseHeaders_frame {h h' : HttpData} {flag : HeaderState} (hrun : parseHeaders h = .ok (flag, h')) :
    ∃ st headers inBuffer, h' = { h with hState := st, headers := headers, inBuffer := inBuffer } := by
  unfold parseHeaders at hrun
  split at hrun
  · cases hrun
  · cases hrun
    exact ⟨_, _, h.inBuffer, rfl⟩
  · split_ifs at hrun
    all_goals
      obtain ⟨str, -, hrun⟩ := bind_eq_ok hrun
      cases hrun
      exact ⟨_, _, _, rfl⟩

/-- The connection after a read without an error and without the end of the input. -/
def Conn.afterRead (c : Conn) : Conn := { c with
  http.inBuffer := (readn c.sock.reads c.http.inBuffer).inBuffer
  sock.reads := (readn c.sock.reads c.http.inBuffer).reads }

/-- After the read there is something to parse. -/
def Conn.ReadsOn (c : Conn) : Prop :=
  c.http.connectionState ≠ .disconnecting ∧ 0 ≤ toInt (readn c.sock.reads c.http.inBuffer).value ∧
    ((readn c.sock.reads c.http.inBuffer).zero = true → toInt (readn c.sock.reads c.http.inBuffer).value ≠ 0)

theorem readSection_next (host : Host) {c : Conn} (hopen : c.http.connectionState ≠ .disconnecting)
    (hvalue : 0 ≤ toInt (readn c.sock.reads c.http.inBuffer).value)
    (hzero : (readn c.sock.reads c.http.inBuffer).zero = false) :
    readSection host c = (host.logRequest c.afterRead.http.inBuffer).map fun _ => (.next, c.afterRead) := by
  simp only [readSection, Conn.afterRead, if_neg hopen, if_neg (Int.not_lt.mpr hvalue), hzero,
    Bool.false_eq_true, if_false]
  cases host.logRequest (readn c.sock.reads c.http.inBuffer).inBuffer <;> rfl

/-- A read is taken for one that failed also where the number of its bytes is negative as an `int`. -/
theorem readSection_fails (host : Host) {c : Conn} (hopen : c.http.connectionState ≠ .disconnecting)
    (hvalue : toInt (readn c.sock.reads c.http.inBuffer).value < 0) :
    readSection host c = (host.logRequest c.afterRead.http.inBuffer).map fun _ =>
      (.brk, rejected (bytes "Bad Request") c.afterRead) := by
  simp only [readSection, Conn.afterRead, if_neg hopen, if_pos hvalue, badRequest_ok shortMsg_badRequest]
  cases host.logRequest (readn c.sock.reads c.http.inBuffer).inBuffer <;> rfl

/-- The read is logged, and where there is something to parse the section goes on. -/
theorem readSection_logs (host : Host) (c : Conn) :
    ∃ flow st d, readSection host c =
        (host.logRequest c.afterRead.http.inBuffer).map (fun _ => (flow, d)) ∧
      (flow = .next ↔ c.ReadsOn) ∧
      (flow = .next → d = { c.afterRead with http.connectionState := st }) := by
  by_cases hopen : c.http.connectionState ≠ .disconnecting
  · by_cases hneg : toInt (readn c.sock.reads c.http.inBuffer).value < 0
    · refine ⟨.brk, .connected, _, readSection_fails host hopen hneg, ?_, fun h => by cases h⟩
      exact iff_of_false (fun h => by cases h) fun h => absurd hneg (Int.not_lt.mpr h.2.1)
    have hvalue := Int.not_lt.mp hneg
    cases hzero : (readn c.sock.reads c.http.inBuffer).zero with
    | false =>
        refine ⟨.next, c.http.connectionState, _, readSection_next host hopen hvalue hzero, ?_, fun _ => rfl⟩
        exact iff_of_true rfl ⟨hopen, hvalue, fun h => by cases hzero.symm.trans h⟩
    | true =>
        by_cases hnone : toInt (readn c.sock.reads c.http.inBuffer).value = 0
        · refine ⟨.brk, .connected, { c.afterRead with http.connectionState := .disconnecting }, ?_, ?_,
            fun h => by cases h⟩
          · simp only [readSection, Conn.afterRead, if_neg hopen, if_neg hneg, hzero, if_true, if_pos hnone]
            cases host.logRequest (readn c.sock.reads c.http.inBuffer).inBuffer <;> rfl
          · exact iff_of_false (fun h => by cases h) fun h => h.2.2 hzero hnone
        · refine ⟨.next, .disconnecting, { c.afterRead with http.connectionState := .disconnecting }, ?_, ?_,
            fun _ => rfl⟩
          · simp only [readSection, Conn.afterRead, if_neg hopen, if_neg hneg, hzero, if_true, if_neg hnone]
            cases host.logRequest (readn c.sock.reads c.http.inBuffer).inBuffer <;> rfl
          · exact iff_of_true rfl ⟨hopen, hvalue, fun _ => hnone⟩
  · have hclosing := not_not.mp hopen
    refine ⟨.brk, .connected, { c.afterRead with http.inBuffer := [] }, ?_, ?_, fun h => by cases h⟩
    · simp only [readSection, Conn.afterRead, if_pos hclosing]
      cases host.logRequest (readn c.sock.reads c.http.inBuffer).inBuffer <;> rfl
    · exact iff_of_false (fun h => by cases h) fun h => h.1 hclosing

/-- Nothing is parsed of an input whose record is lost. -/
theorem handleReadBody_record {host : Host} {c d : Conn} {flow : Flow}
    (hrun : handleReadBody host c = .ok (flow, d)) : host.logRequest c.afterRead.http.inBuffer = .ok () := by
  obtain ⟨flow', st, e, hread, -⟩ := readSection_logs host c
  cases hlog : host.logRequest c.afterRead.http.inBuffer with
  | ok _ => rfl
  | error f =>
      rw [hlog] at hread
      rw [handleReadBody, seq_error hread] at hrun
      cases hrun

/-- The connection with the request line cut off its input. -/
def Conn.withLine (c : Conn) (r : RequestLine) : Conn := { c with http := { c.http with
  inBuffer := afterLine c.http.inBuffer c.http.nowReadPos
  method := r.method
  httpVersion := r.httpVersion
  fileName := r.fileName } }

/-- The request line of the connection is read, starting from the values left by the last one. -/
def Conn.readsLine (c : Conn) (flag : URIState) (r : RequestLine) : Prop :=
  parseRequestLine ⟨c.http.method, c.http.httpVersion, c.http.fileName⟩
    (requestLine c.http.inBuffer c.http.nowReadPos) = .ok (flag, r)

theorem uriSection_skip (host : Host) {c : Conn} (hstate : c.http.state ≠ .parseURI) :
    uriSection host c = .ok (.next, c) := if_neg hstate

theorem uriSection_rejects (host : Host) {c : Conn} {r : RequestLine} (hstate : c.http.state = .parseURI)
    (hline : c.readsLine .error r) :
    uriSection host c =
      (host.logURIFailed c.http.fd (afterLine c.http.inBuffer c.http.nowReadPos)).map fun _ =>
        (.brk, rejected (bytes "Bad Request") { c.withLine r with http.inBuffer := [] }) := by
  rw [uriSection, if_pos hstate, parseURI_eq hline]
  simp only [bind, Except.bind, pure, Except.pure, badRequest_ok shortMsg_badRequest]
  rfl

theorem uriSection_accepts (host : Host) {c : Conn} {r : RequestLine} (hstate : c.http.state = .parseURI)
    (hline : c.readsLine .success r) :
    uriSection host c = .ok (.next, { c.withLine r with http.state := .parseHeaders }) := by
  rw [uriSection, if_pos hstate, parseURI_eq hline]
  rfl

/-- The request line is rejected, or accepted, or it was read before. -/
theorem uriSection_cases (c : Conn) :
    (∃ r, c.http.state = .parseURI ∧ c.readsLine .error r) ∨
      (∃ r, c.http.state = .parseURI ∧ c.readsLine .success r) ∨ c.http.state ≠ .parseURI := by
  by_cases hstate : c.http.state = .parseURI
  · obtain ⟨flag, r, hline, hflag⟩ := parseRequestLine_ok
      ⟨c.http.method, c.http.httpVersion, c.http.fileName⟩
      (requestLine c.http.inBuffer c.http.nowReadPos)
    cases flag with
    | again => exact absurd rfl hflag
    | error => exact Or.inl ⟨r, hstate, hline⟩
    | success => exact Or.inr (Or.inl ⟨r, hstate, hline⟩)
  · exact Or.inr (Or.inr hstate)

theorem headersSection_skip (host : Host) {c : Conn} (hstate : c.http.state ≠ .parseHeaders) :
    headersSection host c = .ok (.next, c) := if_neg hstate

/-- A header that is complete ends the pass, as if there were more to come. -/
theorem headersSection_success (host : Host) {c : Conn} {h : HttpData} (hstate : c.http.state = .parseHeaders)
    (hparse : parseHeaders c.http = .ok (.success, h)) :
    headersSection host c = .ok (.brk, { c with http := h }) := by
  rw [headersSection, if_pos hstate, hparse]
  rfl

/-- A header of which more is to come is rejected. -/
theorem headersSection_again (host : Host) {c : Conn} {h : HttpData} (hstate : c.http.state = .parseHeaders)
    (hparse : parseHeaders c.http = .ok (.again, h)) :
    headersSection host c = (host.logHeadersFailed h.fd h.inBuffer).map fun _ =>
      (.brk, rejected (bytes "Bad Request") { c with http := { h with inBuffer := [] } }) := by
  rw [headersSection, if_pos hstate, hparse]
  simp only [bind, Except.bind, pure, Except.pure, badRequest_ok shortMsg_badRequest]
  rfl

/-- A rejected header of a `POST` request is followed by its body. -/
theorem headersSection_post (host : Host) {c : Conn} {st : ParseState} (hstate : c.http.state = .parseHeaders)
    (hstop : headerStop c.http.hState c.http.inBuffer = some st) (hpost : c.http.method = .post) :
    headersSection host c =
      .ok (.next, { c with http := { c.http with hState := st, state := .recvBody } }) := by
  rw [headersSection, if_pos hstate, parseHeaders_stop hstop]
  simp only [bind, Except.bind, pure, Except.pure, hpost]
  rfl

/-- A rejected header of any other request is passed over. -/
theorem headersSection_other (host : Host) {c : Conn} {st : ParseState} (hstate : c.http.state = .parseHeaders)
    (hstop : headerStop c.http.hState c.http.inBuffer = some st) (hmethod : c.http.method ≠ .post) :
    headersSection host c = .ok (.next, { c with http.hState := st }) := by
  rw [headersSection, if_pos hstate, parseHeaders_stop hstop]
  simp only [bind, Except.bind, pure, Except.pure, if_neg hmethod]
  rfl

theorem bodySection_skip {c : Conn} (hstate : c.http.state ≠ .recvBody) :
    bodySection c = .ok (.next, c) := if_neg hstate

theorem bodySection_rejects {c : Conn} (hstate : c.http.state = .recvBody)
    (hnone : c.http.headers.find (bytes "Content-length") = none) :
    bodySection c =
      .ok (.brk, rejected (bytes "Bad Reqeust: Lack of argument(Conten-length)") c) := by
  rw [bodySection, if_pos hstate, hnone]
  exact badRequest_ok shortMsg_lackOfLength c

theorem bodySection_length {c : Conn} {value : Bytes} (hstate : c.http.state = .recvBody)
    (hlength : c.http.headers.find (bytes "Content-length") = some value) :
    bodySection c = (stoi value).map fun contentLength =>
      if toInt c.http.inBuffer.length < contentLength then (.brk, c)
      else (.next, { c with http.state := .analysis }) := by
  rw [bodySection, if_pos hstate, hlength]
  cases hvalue : stoi value with
  | error f => simp only [hvalue, bind, Except.bind, Except.map]
  | ok contentLength =>
      simp only [hvalue, bind, Except.bind, pure, Except.pure, Except.map]
      split_ifs <;> rfl

theorem analysisSection_skip {fs : FileSystem} {c : Conn} (hstate : c.http.state ≠ .analysis) :
    analysisSection fs c = .ok (.next, c) := if_neg hstate

/-- A request with a body is never answered. -/
theorem analysisSection_post {fs : FileSystem} {c : Conn} (hstate : c.http.state = .analysis)
    (hpost : c.http.method = .post) :
    analysisSection fs c = .ok (.brk, { c with http.error := true }) := by
  rw [analysisSection, if_pos hstate, analysisRequest, hpost]
  rfl

/-- The second connection is the first with more of its input read and parsed. -/
structure Parses (c d : Conn) : Prop where
  fd : d.http.fd = c.http.fd
  error : d.http.error = c.http.error
  outBuffer : d.http.outBuffer = c.http.outBuffer
  chan : d.chan = c.chan
  sent : d.sock.sent = c.sock.sent
  writes : d.sock.writes = c.sock.writes
  calls : d.calls = c.calls

/-- More is read, and what is parsed leaves the descriptor, the error and the output alone. -/
theorem Parses.of_http {c : Conn} {h : HttpData} {reads : List ReadOutcome} (hfd : h.fd = c.http.fd)
    (herror : h.error = c.http.error) (hout : h.outBuffer = c.http.outBuffer) :
    Parses c { c with http := h, sock.reads := reads } := ⟨hfd, herror, hout, rfl, rfl, rfl, rfl⟩

theorem Parses.refl (c : Conn) : Parses c c := .of_http rfl rfl rfl

/-- The request was rejected, after more of the input was read and parsed. -/
def Rejects (c d : Conn) : Prop :=
  ∃ m shortMsg, ShortMsg 400 shortMsg ∧ Parses c m ∧ d = rejected shortMsg m

/-- The section reads and parses; it may break out with a rejection. -/
def Parsing (s : Section) : Prop := s.Leads Parses fun c d => Parses c d ∨ Rejects c d

/-- A section that hands the connection, changed in passing, to a rejection. -/
theorem badRequest_parsing {c m d : Conn} {flow : Flow} {shortMsg : Bytes}
    (hrun : badRequest shortMsg m = .ok (flow, d)) (hshort : ShortMsg 400 shortMsg) (hcm : Parses c m) :
    flow.Leads (Parses c d) (Parses c d ∨ Rejects c d) := by
  rw [badRequest_ok hshort] at hrun
  cases hrun
  exact Or.inr ⟨m, shortMsg, hshort, hcm, rfl⟩

theorem readSection_parsing (host : Host) : Parsing (readSection host) := by
  intro c flow d hrun
  unfold readSection at hrun
  obtain ⟨-, -, hrun⟩ := bind_eq_ok hrun
  simp only [] at hrun
  split_ifs at hrun
  · cases hrun
    exact Or.inl (.of_http rfl rfl rfl)
  · exact badRequest_parsing hrun shortMsg_badRequest (.of_http rfl rfl rfl)
  · cases hrun
    exact Or.inl (.of_http rfl rfl rfl)
  · cases hrun
    exact .of_http rfl rfl rfl
  · cases hrun
    exact .of_http rfl rfl rfl

theorem uriSection_parsing (host : Host) : Parsing (uriSection host) := by
  intro c flow d hrun
  unfold uriSection at hrun
  split_ifs at hrun
  · obtain ⟨⟨flag, h⟩, hparse, hrun⟩ := bind_eq_ok hrun
    obtain ⟨inBuffer, r, rfl⟩ := parseURI_frame hparse
    simp only [] at hrun
    split_ifs at hrun
    · cases hrun
      exact Or.inl (.of_http rfl rfl rfl)
    · obtain ⟨-, -, hrun⟩ := bind_eq_ok hrun
      exact badRequest_parsing hrun shortMsg_badRequest (.of_http rfl rfl rfl)
    · cases hrun
      exact .of_http rfl rfl rfl
  · cases hrun
    exact .refl c

theorem headersSection_parsing (host : Host) : Parsing (headersSection host) := by
  intro c flow d hrun
  unfold headersSection at hrun
  split_ifs at hrun
  · obtain ⟨⟨flag, h⟩, hparse, hrun⟩ := bind_eq_ok hrun
    obtain ⟨st, headers, inBuffer, rfl⟩ := parseHeaders_frame hparse
    simp only [] at hrun
    split_ifs at hrun
    · cases hrun
      exact Or.inl (.of_http rfl rfl rfl)
    · obtain ⟨-, -, hrun⟩ := bind_eq_ok hrun
      exact badRequest_parsing hrun shortMsg_badRequest (.of_http rfl rfl rfl)
    · cases hrun
      exact .of_http rfl rfl rfl
    · cases hrun
      exact .of_http rfl rfl rfl
  · cases hrun
    exact .refl c

theorem bodySection_parsing : Parsing bodySection := by
  intro c flow d hrun
  unfold bodySection at hrun
  split_ifs at hrun
  · split at hrun
    · obtain ⟨contentLength, -, hrun⟩ := bind_eq_ok hrun
      split_ifs at hrun
      · cases hrun
        exact Or.inl (.refl c)
      · cases hrun
        exact .of_http rfl rfl rfl
    · exact badRequest_parsing hrun shortMsg_lackOfLength (.refl c)
  · cases hrun
    exact .refl c

/-- A write that is not refused: it is an error just if the value of `writen` is negative as an `int`. -/
theorem handleWrite_open {c : Conn} (herror : c.http.error = false)
    (hstate : c.http.connectionState ≠ .disconnected) :
    (handleWrite c).sock = (writenString c.sock c.http.outBuffer).sock ∧
      (handleWrite c).http.outBuffer = (writenString c.sock c.http.outBuffer).sbuff ∧
      ((handleWrite c).http.error = false ↔ 0 ≤ toInt (writenString c.sock c.http.outBuffer).value) := by
  rw [handleWrite, if_pos ⟨herror, hstate⟩, ← Int.not_lt]
  simp only []
  split_ifs with hneg hleft hleft
  · exact ⟨rfl, rfl, iff_of_false not_false (not_not.mpr hneg)⟩
  · exact ⟨rfl, rfl, iff_of_false not_false (not_not.mpr hneg)⟩
  · exact ⟨rfl, rfl, iff_of_true herror hneg⟩
  · exact ⟨rfl, rfl, iff_of_true herror hneg⟩

theorem handleWrite_closed {c : Conn} (h : ¬ (c.http.error = false ∧ c.http.connectionState ≠ .disconnected)) :
    handleWrite c = c := if_neg h

theorem handleWrite_calls (c : Conn) : (handleWrite c).calls = c.calls := by
  unfold handleWrite
  simp only []
  split_ifs <;> rfl

theorem handleWrite_state (c : Conn) : (handleWrite c).http.state = c.http.state := by
  unfold handleWrite
  simp only []
  split_ifs <;> rfl

/-- With nothing to write, `handleWrite` does nothing. -/
theorem handleWrite_empty {c : Conn} (hout : c.http.outBuffer = []) : handleWrite c = c := by
  obtain ⟨http, chan, sock, calls⟩ := c
  cases http
  simp only at hout
  subst hout
  simp [handleWrite, writenString_nil, toInt_zero]

/-- A pass that ends in an error ends there. -/
theorem handleReadPass_error {host : Host} {c c' : Conn} {flow : Flow}
    (hrun : handleReadBody host c = .ok (flow, c')) (herror : c'.http.error = true) :
    handleReadPass host c = .ok c' := by
  simp only [handleReadPass, hrun, bind, Except.bind, pure, Except.pure, herror, if_true]

theorem handleReadPass_write {host : Host} {c c' : Conn} {flow : Flow}
    (hrun : handleReadBody host c = .ok (flow, c')) (herror : c'.http.error = false) :
    handleReadPass host c = .ok (handleWrite c') := by
  simp only [handleReadPass, hrun, bind, Except.bind, pure, Except.pure, herror]
  rfl

/-- A pass is its body, and a write after it unless it is in error. -/
theorem handleReadPass_cases {host : Host} {c e : Conn} (hrun : handleReadPass host c = .ok e) :
    ∃ flow d, handleReadBody host c = .ok (flow, d) ∧
      (d.http.error = true ∧ e = d ∨ d.http.error = false ∧ e = handleWrite d) := by
  obtain ⟨⟨flow, d⟩, hbody, -⟩ := bind_eq_ok hrun
  refine ⟨flow, d, hbody, ?_⟩
  cases herror : d.http.error with
  | true => exact Or.inl ⟨rfl, Except.ok.inj (hrun.symm.trans (handleReadPass_error hbody herror))⟩
  | false => exact Or.inr ⟨rfl, Except.ok.inj (hrun.symm.trans (handleReadPass_write hbody herror))⟩

/-- All that `handleRead` does begins with the record of the input. -/
theorem handleRead_record {host : Host} {c d : Conn} (hrun : handleRead host c = .ok d) :
    host.logRequest c.afterRead.http.inBuffer = .ok () := by
  obtain ⟨e, hpass, -⟩ := bind_eq_ok hrun
  obtain ⟨flow, e', hbody, -⟩ := handleReadPass_cases hpass
  exact handleReadBody_record hbody

/-- What the passes of `handleRead` and the resets between them keep, `handleRead` keeps. -/
theorem handleReadN_rule {host : Host} {R : Conn → Conn → Prop}
    (hpass : ∀ c d, handleReadPass host c = .ok d → R c d) (hreset : ∀ c d, R c d → R c (reset d))
    (hlisten : ∀ c d, R c d → R c { d with chan.events := d.chan.events ||| EPOLLIN })
    (hagain : ∀ c d e, R c d → d.http.error = false → R d e → R c e)
    {n : Nat} {c e : Conn} (hrun : handleReadN host n c = .ok e) : R c e := by
  induction n generalizing c with
  | zero => cases hrun
  | succ n ih =>
      obtain ⟨d, hd, hrun⟩ := bind_eq_ok hrun
      have hcd := hpass c d hd
      have hcr := hreset c d hcd
      simp only [] at hrun
      split_ifs at hrun with hdone
      · exact hagain c (reset d) e hcr hdone.1 (ih hrun)
      · cases hrun
        exact hcr
      · cases hrun
        exact hlisten c (reset d) hcr
      · cases hrun
        exact hcr
      · cases hrun
        exact hcd

/-- A pass that does not finish a request is all of `handleRead`. -/
theorem handleReadN_pass {host : Host} {n : Nat} {c c' : Conn} (hpass : handleReadPass host c = .ok c')
    (hend : c'.http.error = true ∨ c'.http.state ≠ .finish) : handleReadN host (n + 1) c = .ok c' := by
  have hnot : ¬ (c'.http.error = false ∧ c'.http.state = .finish) := by
    rintro ⟨herror, hfinish⟩
    rcases hend with hend | hend
    · rw [herror] at hend
      cases hend
    · exact hend hfinish
  simp only [handleReadN, hpass, bind, Except.bind, pure, Except.pure, if_neg hnot]

theorem handleRead_of_error {host : Host} {c c' : Conn} {flow : Flow}
    (hbody : handleReadBody host c = .ok (flow, c')) (herror : c'.http.error = true) :
    handleRead host c = .ok c' :=
  handleReadN_pass (handleReadPass_error hbody herror) (Or.inl herror)

theorem handleRead_of_write {host : Host} {c c' : Conn} {flow : Flow}
    (hbody : handleReadBody host c = .ok (flow, c')) (herror : c'.http.error = false)
    (hstate : c'.http.state ≠ .finish) : handleRead host c = .ok (handleWrite c') :=
  handleReadN_pass (handleReadPass_write hbody herror) (Or.inr (by rwa [handleWrite_state]))

end WebServer
