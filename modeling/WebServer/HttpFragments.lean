import WebServer.HttpServing

/-! Requests that arrive in pieces. `parseURI` never asks for more input, and the header scan starts
again from the state it was rejected in, so what a connection makes of its input depends on where the
input is cut; and each call logs all there is so far, so that whether the calls return does. The theorem at
the end says for which cuts it makes no difference. -/

namespace WebServer

open Stages

/-- The calls of `handleRead` on chunks that arrive one by one. A connection in error is closed, and
reads no more. -/
def feed (host : Host) : Conn → List Bytes → Except Fault Conn
  | c, [] => .ok c
  | c, chunk :: chunks =>
      if c.http.error then .ok c
      else do
        let c ← handleRead host (c.receives chunk)
        feed host c chunks

/-- What is compared of two connections. -/
structure Outcome where
  error : Bool
  state : ProcessState
  method : HttpMethod
  fileName : Bytes
  headers : HeaderMap
  sent : Bytes
  deriving DecidableEq

def Conn.outcome (c : Conn) : Outcome where
  error := c.http.error
  state := c.http.state
  method := c.http.method
  fileName := c.http.fileName
  headers := c.http.headers
  sent := c.sock.sent

/-- The request line of `s`, read by a fresh connection. -/
def readLine (s : Bytes) : Except Fault (URIState × RequestLine) :=
  parseRequestLine ⟨.get, .http11, []⟩ (requestLine s 0)

/-- The part of the request line that is compared: whether it is accepted, its method and its file. -/
def lineView (s : Bytes) : Except Fault (URIState × HttpMethod × Bytes) :=
  (readLine s).map fun line => (line.1, line.2.method, line.2.fileName)

/-- The text after the request line is rejected as a header. -/
def brokenHeader (text : Bytes) : Bool := (headerStop .start text).isSome

/-- It is rejected, and rejected again in a scan that goes on in the state of the first rejection.
A `POST` request is in error after the first. -/
def brokenTwice (method : HttpMethod) (text : Bytes) : Bool :=
  match headerStop .start text with
  | none => false
  | some st => method == .post || (headerStop st text).isSome

/-- The cuts that change nothing: the first chunk has the request line of the whole input, and its
header text is broken for good just when that of the whole input is broken. -/
def CutHarmless : List Bytes → Prop
  | [] => False
  | [_] => True
  | first :: rest =>
      lineView first = lineView (first ++ rest.flatten) ∧
        ∀ r, readLine first = .ok (.success, r) →
          brokenTwice r.method (afterLine first 0) =
            brokenHeader (afterLine (first ++ rest.flatten) 0)

/-- The records of the calls after the first go through: `text` is the header text so far, and the scan of the
last call was rejected in the state `st`. -/
def LaterLogged (host : Host) (connfd : Nat) : ParseState → Bytes → List Bytes → Prop
  | _, _, [] => True
  | st, text, chunk :: chunks =>
      host.logRequest (text ++ chunk) = .ok () ∧ HeaderLogged host connfd st (text ++ chunk) ∧
        ∀ st', headerStop st (text ++ chunk) = some st' →
          LaterLogged host connfd st' (text ++ chunk) chunks

/-- The records of all the calls go through. There is a second one just if the first has passed over a broken
header. -/
def FeedLogged (host : Host) (connfd : Nat) : List Bytes → Prop
  | [] => True
  | first :: rest =>
      ((Conn.fresh connfd).receives first).Logged host ∧
        ∀ r st, readLine first = .ok (.success, r) → r.method ≠ .post →
          headerStop .start (afterLine first 0) = some st →
            LaterLogged host connfd st (afterLine first 0) rest

theorem keyStop_key_or_colon {t : Bytes} {st : ParseState} (h : keyStop t = some st) :
    st = .key ∨ st = .colon := by
  unfold keyStop keyStopFrom at h
  split at h
  · cases h
  · rename_i c rest _
    split_ifs at h
    · cases rest with
      | nil => cases h
      | cons d rest =>
          rw [colonStop] at h
          split_ifs at h
          cases h
          exact Or.inr rfl
    · cases h
      exact Or.inl rfl

theorem startStop_key_or_colon {t : Bytes} {st : ParseState} (h : startStop t = some st) :
    st = .key ∨ st = .colon := by
  induction t with
  | nil => cases h
  | cons c t ih =>
      rw [startStop_cons] at h
      split_ifs at h
      · exact ih h
      · exact keyStop_key_or_colon h

/-- A key that was rejected stays rejected when more input follows. -/
theorem keyStop_append {t more : Bytes} {st : ParseState} (hshort : (t ++ more).length < 2 ^ 31)
    (h : keyStop t = some st) : keyStop (t ++ more) = some st := by
  induction t with
  | nil => cases h
  | cons c t ih =>
      have hshort' : (c :: t).length < 2 ^ 31 := by
        rw [List.length_append] at hshort
        omega
      rw [keyStop_cons hshort'] at h
      rw [List.cons_append] at hshort ⊢
      rw [keyStop_cons hshort]
      split_ifs at h ⊢
      · cases t with
        | nil => cases h
        | cons d t => exact h
      · exact h
      · exact ih (Nat.lt_of_succ_lt hshort) h

/-- After a rejection a second scan decides: either it and all later ones find the header incomplete,
or all of them reject it, in a state that does not change any more. -/
theorem headerStop_settles {t : Bytes} {st : ParseState} (h : headerStop .start t = some st) :
    (∀ more, (t ++ more).length < 2 ^ 31 → headerStop st (t ++ more) = none) ∨
      ∃ st', ∀ more, (t ++ more).length < 2 ^ 31 →
        headerStop st (t ++ more) = some st' ∧ headerStop st' (t ++ more) = some st' := by
  rw [headerStop] at h
  cases t with
  | nil => cases h
  | cons c t =>
      have hst := startStop_key_or_colon h
      rw [startStop_cons] at h
      split_ifs at h with heol
      · have hcolon : c ≠ colon := by rcases heol with rfl | rfl <;> decide
        have hspace : c ≠ space := by rcases heol with rfl | rfl <;> decide
        right
        refine ⟨st, fun more hshort => ?_⟩
        rw [List.cons_append] at hshort ⊢
        rcases hst with rfl | rfl
        · simp only [headerStop, keyStop_cons hshort, if_neg hcolon, if_pos heol.symm, and_self]
        · simp only [headerStop, colonStop, if_neg hspace, and_self]
      · rcases hst with rfl | rfl
        · by_cases hcolon : c = colon
          · subst hcolon
            cases t with
            | nil => cases h
            | cons d t =>
                by_cases hspace : d = space
                · left
                  intro more hshort
                  rw [List.cons_append, List.cons_append] at hshort ⊢
                  simp only [headerStop, keyStop_cons hshort, if_true, colonStop, if_pos hspace]
                · right
                  refine ⟨.colon, fun more hshort => ?_⟩
                  rw [List.cons_append, List.cons_append] at hshort ⊢
                  simp only [headerStop, keyStop_cons hshort, if_true, colonStop, if_neg hspace, if_neg (show ¬ colon = space by decide), and_self]
          · right
            refine ⟨.key, fun more hshort => ?_⟩
            rw [List.cons_append] at hshort ⊢
            have hkey := keyStop_append (Nat.lt_of_succ_lt hshort) h
            simp only [headerStop, keyStop_cons hshort, if_neg hcolon,
              if_neg (not_or.mpr ⟨fun hlf => heol (Or.inr hlf), fun hcr => heol (Or.inl hcr)⟩), hkey,
              and_self]
        · by_cases hspace : c = space
          · left
            intro more _
            simp only [headerStop, List.cons_append, colonStop, if_pos hspace]
          · right
            refine ⟨.colon, fun more _ => ?_⟩
            simp only [headerStop, List.cons_append, colonStop, if_neg hspace, and_self]

/-! ### What a call makes of a connection that was quiet so far -/

/-- Nothing went wrong, no header was read, and nothing was sent or is waiting to be. -/
structure Quiet (c : Conn) : Prop where
  connected : c.http.connectionState = .connected
  error : c.http.error = false
  headers : c.http.headers = []
  outBuffer : c.http.outBuffer = []
  writes : c.sock.writes = []
  sent : c.sock.sent = []

/-- The bytes of an error response. -/
def errorResponse (shortMsg : Bytes) : Bytes :=
  cstr (errorHeader 400 shortMsg) ++ cstr (errorBody 400 shortMsg)

theorem rejected_sent {c : Conn} (shortMsg : Bytes) (hwrites : c.sock.writes = []) :
    (rejected shortMsg c).sock.sent = c.sock.sent ++ errorResponse shortMsg := by
  simp [rejected, writenBuff, hwrites, errorResponse]

/-- The outcome of a request line, and of a header text that is broken or not. -/
def lineOutcome (flag : URIState) (r : RequestLine) (broken : Bool) : Outcome :=
  if flag = .success then
    if broken then
      if r.method = .post then
        ⟨true, .recvBody, r.method, r.fileName, [],
          errorResponse (bytes "Bad Reqeust: Lack of argument(Conten-length)")⟩
      else ⟨false, .parseHeaders, r.method, r.fileName, [], []⟩
    else ⟨true, .parseHeaders, r.method, r.fileName, [], errorResponse (bytes "Bad Request")⟩
  else ⟨true, .parseURI, r.method, r.fileName, [], errorResponse (bytes "Bad Request")⟩

/-- The connection with `x` read into its buffer. -/
def Conn.received (c : Conn) (x : Bytes) : Conn := { c with
  http.inBuffer := c.http.inBuffer ++ x
  sock.reads := [] }

section

variable {host : Host} {c : Conn}

theorem Quiet.received (hc : Quiet c) (x : Bytes) : Quiet (c.received x) :=
  ⟨hc.connected, hc.error, hc.headers, hc.outBuffer, hc.writes, hc.sent⟩

theorem afterRead_receives (c : Conn) (x : Bytes) : (c.receives x).afterRead = c.received x := by
  simp [Conn.afterRead, Conn.receives, readn_deliver, Conn.received]

theorem readsOn_receives (hconn : c.http.connectionState = .connected) {x : Bytes} (hx : x.length < 2 ^ 31) :
    (c.receives x).ReadsOn := by
  have hread : readn (c.receives x).sock.reads (c.receives x).http.inBuffer =
      ⟨x.length, c.http.inBuffer ++ x, false, []⟩ := readn_deliver x c.http.inBuffer
  have hopen : (c.receives x).http.connectionState = .connected := hconn
  rw [Conn.ReadsOn, hread, hopen, toInt_of_lt hx]
  exact ⟨by decide, Int.natCast_nonneg _, fun h => by cases h⟩

theorem handleReadBody_receives (hconn : c.http.connectionState = .connected) {x : Bytes}
    (hx : x.length < 2 ^ 31) (hlog : host.logRequest (c.http.inBuffer ++ x) = .ok ()) :
    handleReadBody host (c.receives x) =
      Stage.seq (uriSection host) (headerSections host) (c.received x) := by
  obtain ⟨hopen, hvalue, -⟩ := readsOn_receives hconn hx
  have hsection := readSection_next host hopen hvalue (by simp [Conn.receives, readn_deliver])
  have hrecord : host.logRequest (c.received x).http.inBuffer = .ok () := hlog
  rw [afterRead_receives, hrecord] at hsection
  exact seq_next hsection

/-- The input of a call that returns, where it is less than `2 ^ 32` bytes. -/
theorem receives_short {d : Conn} {x : Bytes} (hrun : handleRead host (c.receives x) = .ok d)
    (hbound : (c.http.inBuffer ++ x).length < 2 ^ 32) :
    host.logRequest (c.http.inBuffer ++ x) = .ok () ∧ (c.http.inBuffer ++ x).length < 2 ^ 31 := by
  have hlog := handleRead_record hrun
  rw [afterRead_receives] at hlog
  exact ⟨hlog, Host.logRequest_short hbound hlog⟩

/-- A header that is not complete. -/
theorem headerSections_again {d : Conn} {flow : Flow} (hstate : c.http.state = .parseHeaders)
    (hplain : c.http.hState.Plain) (hstop : headerStop c.http.hState c.http.inBuffer = none)
    (hrun : headerSections host c = .ok (flow, d)) :
    d = rejected (bytes "Bad Request") { c with http := { c.http with
      hState := plainEnd c.http.hState c.http.inBuffer, inBuffer := [] } } := by
  rw [headerSections] at hrun
  rcases Nat.lt_or_ge c.http.inBuffer.length (keptFrom c.http.hState c.http.inBuffer) with hcut | hcut
  · rw [seq_error (headersSection_throws host hstate hplain hstop hcut)] at hrun
    cases hrun
  · have hwaits := headersSection_waits host hstate hplain hstop hcut
    cases hlog : host.logHeadersFailed c.http.fd (kept c.http.hState c.http.inBuffer) with
    | error f =>
        rw [hlog] at hwaits
        rw [seq_error hwaits] at hrun
        cases hrun
    | ok _ =>
        rw [hlog] at hwaits
        rw [seq_brk hwaits] at hrun
        cases hrun
        rfl

/-- A broken header of a `POST` request. -/
theorem headerSections_post (host : Host) {st : ParseState} (hstate : c.http.state = .parseHeaders)
    (hheaders : c.http.headers = []) (hstop : headerStop c.http.hState c.http.inBuffer = some st)
    (hpost : c.http.method = .post) :
    headerSections host c = .ok (.brk, rejected (bytes "Bad Reqeust: Lack of argument(Conten-length)")
      { c with http := { c.http with hState := st, state := .recvBody } }) :=
  (seq_next (headersSection_post host hstate hstop hpost)).trans
    (seq_brk (bodySection_rejects rfl (by simp [hheaders, HeaderMap.find])))

/-- A broken header of any other request. -/
theorem headerSections_other (host : Host) {st : ParseState} (hstate : c.http.state = .parseHeaders)
    (hstop : headerStop c.http.hState c.http.inBuffer = some st) (hmethod : c.http.method ≠ .post) :
    headerSections host c = .ok (.next, { c with http.hState := st }) := by
  rw [headerSections, seq_next (headersSection_other host hstate hstop hmethod),
    seq_next (bodySection_skip (by simp [hstate])), analysisSection_skip (by simp [hstate])]

/-- A call that returns has the end of its body. -/
theorem handleRead_body {c' d : Conn} (hrun : handleRead host c' = .ok d) :
    ∃ flow e, handleReadBody host c' = .ok (flow, e) := by
  obtain ⟨f, hpass, -⟩ := bind_eq_ok hrun
  obtain ⟨flow, e, hbody, -⟩ := handleReadPass_cases hpass
  exact ⟨flow, e, hbody⟩

/-- The outcome of a call that gets as far as the header text, which is broken or not. -/
theorem headers_outcome {c' d : Conn} {r : RequestLine} (hrun : handleRead host c' = .ok d)
    (hbody : handleReadBody host c' = headerSections host c)
    (hc : Quiet c) (hstate : c.http.state = .parseHeaders) (hplain : c.http.hState.Plain)
    (hmethod : c.http.method = r.method) (hfile : c.http.fileName = r.fileName) :
    d.outcome = lineOutcome .success r (headerStop c.http.hState c.http.inBuffer).isSome := by
  cases hstop : headerStop c.http.hState c.http.inBuffer with
  | none =>
      obtain ⟨flow, e, hends⟩ := handleRead_body hrun
      obtain rfl := headerSections_again hstate hplain hstop (hbody.symm.trans hends)
      rw [handleRead_of_error hends rfl] at hrun
      cases hrun
      rw [Conn.outcome, rejected_sent _ (by exact hc.writes)]
      simp [rejected, lineOutcome, hstate, hmethod, hfile, hc.headers, hc.sent]
  | some st =>
      by_cases hpost : c.http.method = .post
      · have hends := headerSections_post host hstate hc.headers hstop hpost
        rw [handleRead_of_error (hbody.trans hends) rfl] at hrun
        cases hrun
        rw [Conn.outcome, rejected_sent _ (by exact hc.writes)]
        simp [rejected, lineOutcome, ← hmethod, hpost, hfile, hc.headers, hc.sent]
      · have hends := headerSections_other host hstate hstop hpost
        rw [handleRead_of_write (hbody.trans hends) hc.error (by simp [hstate]),
          handleWrite_empty (by exact hc.outBuffer)] at hrun
        cases hrun
        simp [Conn.outcome, lineOutcome, ← hmethod, hpost, hfile, hc.headers, hc.sent, hc.error, hstate]

/-- The request line was accepted, and the text after it passed over as a broken header. -/
structure PassedOver (connfd : Nat) (c : Conn) (r : RequestLine) (st : ParseState) (text : Bytes) : Prop where
  quiet : Quiet c
  fd : c.http.fd = connfd
  state : c.http.state = .parseHeaders
  hState : c.http.hState = st
  plain : st.Plain
  inBuffer : c.http.inBuffer = text
  method : c.http.method = r.method
  notPost : r.method ≠ .post
  fileName : c.http.fileName = r.fileName

theorem PassedOver.unanswered {connfd : Nat} {r : RequestLine} {st : ParseState} {text : Bytes}
    (hc : PassedOver connfd c r st text) : Unanswered c.http :=
  ⟨hc.quiet.headers, hc.hState ▸ hc.plain, by simp [hc.state], by simp [hc.state]⟩

theorem handleRead_passes {connfd : Nat} {c' d : Conn} {r : RequestLine} {st : ParseState}
    (hrun : handleRead host c' = .ok d) (hbody : handleReadBody host c' = headerSections host c)
    (hc : Quiet c) (hfd : c.http.fd = connfd) (hstate : c.http.state = .parseHeaders)
    (hplain : c.http.hState.Plain) (hmethod : c.http.method = r.method) (hpost : r.method ≠ .post)
    (hfile : c.http.fileName = r.fileName) (hstop : headerStop c.http.hState c.http.inBuffer = some st) :
    PassedOver connfd d r st c.http.inBuffer := by
  have hends := headerSections_other host hstate hstop (hmethod ▸ hpost)
  rw [handleRead_of_write (hbody.trans hends) hc.error (by simp [hstate]),
    handleWrite_empty (by exact hc.outBuffer)] at hrun
  cases hrun
  exact ⟨⟨hc.connected, hc.error, hc.headers, hc.outBuffer, hc.writes, hc.sent⟩, hfd, hstate, rfl,
    headerStop_plain hplain hstop, rfl, hmethod, hpost, hfile⟩

theorem readsLine_fresh (connfd : Nat) {s : Bytes} {flag : URIState} {r : RequestLine}
    (hline : readLine s = .ok (flag, r)) : ((Conn.fresh connfd).received s).readsLine flag r := hline

/-- A fresh connection after a request line was accepted. -/
def atHeaderText (connfd : Nat) (s : Bytes) (r : RequestLine) : Conn :=
  { ((Conn.fresh connfd).received s).withLine r with http.state := .parseHeaders }

theorem atHeaderText_quiet (connfd : Nat) (s : Bytes) (r : RequestLine) :
    Quiet (atHeaderText connfd s r) := ⟨rfl, rfl, rfl, rfl, rfl, rfl⟩

theorem readLine_cases (s : Bytes) : ∃ flag r, readLine s = .ok (flag, r) ∧ flag ≠ .again :=
  parseRequestLine_ok ⟨.get, .http11, []⟩ (requestLine s 0)

section First

variable {connfd : Nat} {s : Bytes} {r : RequestLine} {d : Conn}

theorem first_short (hbound : s.length < 2 ^ 32)
    (hrun : handleRead host ((Conn.fresh connfd).receives s) = .ok d) :
    host.logRequest s = .ok () ∧ s.length < 2 ^ 31 :=
  receives_short (c := Conn.fresh connfd) hrun hbound

theorem handleReadBody_accepts (hbound : s.length < 2 ^ 32)
    (hrun : handleRead host ((Conn.fresh connfd).receives s) = .ok d)
    (hline : readLine s = .ok (.success, r)) :
    handleReadBody host ((Conn.fresh connfd).receives s) = headerSections host (atHeaderText connfd s r) := by
  obtain ⟨hlog, hshort⟩ := first_short hbound hrun
  exact (handleReadBody_receives (c := Conn.fresh connfd) rfl hshort hlog).trans
    (seq_next (uriSection_accepts host rfl (readsLine_fresh connfd hline)))

/-- What a fresh connection makes of its first input, where the call returns. -/
theorem handleRead_outcome {flag : URIState} (hbound : s.length < 2 ^ 32)
    (hrun : handleRead host ((Conn.fresh connfd).receives s) = .ok d) (hline : readLine s = .ok (flag, r)) :
    d.outcome = lineOutcome flag r (brokenHeader (afterLine s 0)) := by
  cases flag with
  | again =>
      obtain ⟨flag, r', hline', hflag⟩ := readLine_cases s
      rw [hline'] at hline
      cases hline
      exact absurd rfl hflag
  | error =>
      obtain ⟨hlog, hshort⟩ := first_short hbound hrun
      obtain ⟨flow, e, hends⟩ := handleRead_body hrun
      have hbody := handleReadBody_receives (c := Conn.fresh connfd) rfl hshort hlog
      have hsection := uriSection_rejects host (c := (Conn.fresh connfd).received s) rfl
        (readsLine_fresh connfd hline)
      cases hfailed : host.logURIFailed ((Conn.fresh connfd).received s).http.fd
          (afterLine ((Conn.fresh connfd).received s).http.inBuffer
            ((Conn.fresh connfd).received s).http.nowReadPos) with
      | error f =>
          rw [hfailed] at hsection
          rw [hbody, seq_error hsection] at hends
          cases hends
      | ok _ =>
          rw [hfailed] at hsection
          rw [handleRead_of_error (hbody.trans (seq_brk hsection)) rfl] at hrun
          cases hrun
          rw [Conn.outcome, rejected_sent _ rfl]
          rfl
  | success =>
      exact headers_outcome hrun (handleReadBody_accepts hbound hrun hline) (atHeaderText_quiet connfd s r) rfl
        (Or.inl rfl) rfl rfl

end First

/-! ### The calls after it -/

section Later

variable {connfd : Nat} {r : RequestLine} {st : ParseState} {text x : Bytes} {d : Conn}

theorem handleReadBody_later (hc : PassedOver connfd c r st text) (hx : x.length < 2 ^ 31)
    (hlog : host.logRequest (text ++ x) = .ok ()) :
    handleReadBody host (c.receives x) = headerSections host (c.received x) :=
  (handleReadBody_receives hc.quiet.connected hx (hc.inBuffer.symm ▸ hlog)).trans
    (seq_next (uriSection_skip host (by simp [Conn.received, hc.state])))

theorem later_short (hc : PassedOver connfd c r st text) (hbound : (text ++ x).length < 2 ^ 32)
    (hrun : handleRead host (c.receives x) = .ok d) :
    host.logRequest (text ++ x) = .ok () ∧ x.length < 2 ^ 31 := by
  have hshort := receives_short hrun (by rwa [hc.inBuffer])
  rw [hc.inBuffer, List.length_append] at hshort
  exact ⟨hshort.1, by omega⟩

theorem later_outcome (hc : PassedOver connfd c r st text) (hbound : (text ++ x).length < 2 ^ 32)
    (hrun : handleRead host (c.receives x) = .ok d) :
    d.outcome = lineOutcome .success r (headerStop st (text ++ x)).isSome := by
  obtain ⟨hlog, hx⟩ := later_short hc hbound hrun
  have hout := headers_outcome hrun (handleReadBody_later hc hx hlog) (hc.quiet.received x) hc.state
    (by rw [show (c.received x).http.hState = st from hc.hState]; exact hc.plain) hc.method hc.fileName
  rw [hout]
  simp [Conn.received, hc.hState, hc.inBuffer]

theorem later_passes {st' : ParseState} (hc : PassedOver connfd c r st text)
    (hbound : (text ++ x).length < 2 ^ 32) (hrun : handleRead host (c.receives x) = .ok d)
    (hstop : headerStop st (text ++ x) = some st') : PassedOver connfd d r st' (text ++ x) := by
  obtain ⟨hlog, hx⟩ := later_short hc hbound hrun
  have hhState : (c.received x).http.hState = st := hc.hState
  have hinBuffer : (c.received x).http.inBuffer = text ++ x := by rw [← hc.inBuffer]; rfl
  rw [← hinBuffer]
  exact handleRead_passes hrun (handleReadBody_later hc hx hlog) (hc.quiet.received x) hc.fd hc.state
    (by rw [hhState]; exact hc.plain) hc.method hc.notPost hc.fileName (by rwa [hhState, hinBuffer])

/-- A later call returns just if its records go through. -/
theorem later_ok_iff (hc : PassedOver connfd c r st text) (hbound : (text ++ x).length < 2 ^ 32) :
    (∃ d, handleRead host (c.receives x) = .ok d) ↔
      host.logRequest (text ++ x) = .ok () ∧ HeaderLogged host connfd st (text ++ x) := by
  have hunanswered : Unanswered (c.receives x).http := hc.unanswered
  have hinBuffer : (c.received x).http.inBuffer = text ++ x := by rw [← hc.inBuffer]; rfl
  have hparsed : (c.received x).ParsedLogged host ↔ HeaderLogged host connfd st (text ++ x) := by
    have hstate : (c.received x).http.state = .parseHeaders := hc.state
    have hhState : (c.received x).http.hState = st := hc.hState
    have hfd : (c.received x).http.fd = connfd := hc.fd
    simp only [Conn.ParsedLogged, hstate, hhState, hfd, hinBuffer]
  rw [handleRead_ok_iff host hunanswered, Conn.Logged, afterRead_receives, hparsed, hinBuffer]
  refine and_congr_right fun hlog => ⟨fun h => h ?_, fun h _ => h⟩
  have hshort := Host.logRequest_short hbound hlog
  rw [List.length_append] at hshort
  exact readsOn_receives hc.quiet.connected (by omega)

theorem feed_error (hc : c.http.error = true) (chunks : List Bytes) : feed host c chunks = .ok c := by
  cases chunks with
  | nil => rfl
  | cons chunk chunks => rw [feed, if_pos hc]

theorem feed_cons {chunk : Bytes} {chunks : List Bytes} (hc : c.http.error = false) :
    feed host c (chunk :: chunks) = (handleRead host (c.receives chunk)).bind fun d => feed host d chunks := by
  rw [feed, if_neg (by simp [hc])]
  rfl

/-- The calls of a feed that returns. -/
theorem feed_cons_ok {chunk : Bytes} {chunks : List Bytes} {e : Conn} (hc : c.http.error = false)
    (hfeed : feed host c (chunk :: chunks) = .ok e) :
    ∃ d, handleRead host (c.receives chunk) = .ok d ∧ feed host d chunks = .ok e := by
  rw [feed_cons hc] at hfeed
  exact bind_eq_ok hfeed

/-- A connection in error returns as it is, and one that has passed over its header goes on. -/
theorem later_feed_iff (hc : PassedOver connfd c r st text) (hbound : (text ++ x).length < 2 ^ 32)
    (hrun : handleRead host (c.receives x) = .ok d) {chunks : List Bytes} {P : ParseState → Prop}
    (hpasses : ∀ st', PassedOver connfd d r st' (text ++ x) →
      ((∃ e, feed host d chunks = .ok e) ↔ P st')) :
    (∃ e, feed host d chunks = .ok e) ↔ ∀ st', headerStop st (text ++ x) = some st' → P st' := by
  cases hstop : headerStop st (text ++ x) with
  | none =>
      have hout := later_outcome hc hbound hrun
      rw [hstop] at hout
      have herror : d.http.error = true := congrArg Outcome.error hout
      exact iff_of_true ⟨d, feed_error herror chunks⟩ fun st' h => by cases h
  | some st' =>
      rw [hpasses st' (later_passes hc hbound hrun hstop)]
      exact ⟨fun h _ hst' => Option.some.inj hst' ▸ h, fun h => h st' rfl⟩

theorem feed_later_iff (chunks : List Bytes) :
    ∀ {c : Conn} {st : ParseState} {text : Bytes}, PassedOver connfd c r st text →
      (text ++ chunks.flatten).length < 2 ^ 32 →
      ((∃ d, feed host c chunks = .ok d) ↔ LaterLogged host connfd st text chunks) := by
  induction chunks with
  | nil => exact fun _ _ => iff_of_true ⟨_, rfl⟩ trivial
  | cons chunk chunks ih =>
      intro c st text hc hbound
      rw [List.flatten_cons, ← List.append_assoc] at hbound
      have hfirst : (text ++ chunk).length < 2 ^ 32 := by
        rw [List.length_append] at hbound
        omega
      have hcalls : (∃ d, handleRead host (c.receives chunk) = .ok d) ↔ _ := later_ok_iff hc hfirst
      rw [feed_cons hc.quiet.error, LaterLogged]
      cases hrun : handleRead host (c.receives chunk) with
      | error f =>
          refine iff_of_false (error_ne_ok _) fun h => ?_
          obtain ⟨d, hd⟩ := hcalls.mpr ⟨h.1, h.2.1⟩
          cases hrun.symm.trans hd
      | ok d =>
          obtain ⟨hlog, hheader⟩ := hcalls.mp ⟨d, hrun⟩
          rw [and_iff_right hlog, and_iff_right hheader]
          exact later_feed_iff hc hfirst hrun fun st' hd => ih hd hbound

/-- Once the rejection is settled, the rest of the input makes no difference. -/
theorem feed_settled (chunks : List Bytes) :
    ∀ {c e : Conn} {text : Bytes}, PassedOver connfd c r st text →
      (∀ more, (text ++ more).length < 2 ^ 31 → headerStop st (text ++ more) = some st) →
      (text ++ chunks.flatten).length < 2 ^ 31 → feed host c chunks = .ok e →
      PassedOver connfd e r st (text ++ chunks.flatten) := by
  induction chunks with
  | nil =>
      intro c e text hc _ _ hfeed
      cases hfeed
      rwa [List.flatten_nil, List.append_nil]
  | cons chunk chunks ih =>
      intro c e text hc hsettled hbound hfeed
      rw [List.flatten_cons, ← List.append_assoc] at hbound ⊢
      have hfirst : (text ++ chunk).length < 2 ^ 31 := by
        rw [List.length_append] at hbound
        omega
      obtain ⟨d, hrun, hfeed⟩ := feed_cons_ok hc.quiet.error hfeed
      have hd := later_passes hc (by omega) hrun (hsettled chunk hfirst)
      refine ih hd (fun more hmore => ?_) hbound hfeed
      rw [List.append_assoc] at hmore ⊢
      exact hsettled _ hmore

theorem PassedOver.outcome (hc : PassedOver connfd c r st text) : c.outcome = lineOutcome .success r true := by
  simp [Conn.outcome, lineOutcome, hc.quiet.error, hc.state, hc.method, hc.fileName, hc.quiet.headers,
    hc.quiet.sent, hc.notPost]

end Later

/-- Only a broken header that is not that of a `POST` request is passed over. -/
theorem lineOutcome_error {flag : URIState} {r : RequestLine} {broken : Bool}
    (h : (lineOutcome flag r broken).error = false) :
    flag = .success ∧ broken = true ∧ r.method ≠ .post := by
  unfold lineOutcome at h
  split_ifs at h with hflag hbroken hpost
  exact ⟨hflag, hbroken, hpost⟩

/-- What is in error after the first scan is not scanned again. -/
theorem lineOutcome_twice {flag : URIState} {r : RequestLine} {text : Bytes}
    (herror : (lineOutcome flag r (brokenHeader text)).error = true) :
    lineOutcome flag r (brokenTwice r.method text) = lineOutcome flag r (brokenHeader text) := by
  by_cases hpost : r.method = .post
  · have htwice : brokenTwice r.method text = brokenHeader text := by
      unfold brokenTwice brokenHeader
      cases headerStop .start text <;> simp [hpost]
    rw [htwice]
  · by_cases hflag : flag = .success
    · have hwhole : brokenHeader text = false := by
        by_contra hbroken
        rw [Bool.not_eq_false] at hbroken
        simp [lineOutcome, hflag, hpost, hbroken] at herror
      have htwice : brokenTwice r.method text = false := by
        rw [brokenHeader, Option.isSome_eq_false_iff, Option.isNone_iff_eq_none] at hwhole
        rw [brokenTwice, hwhole]
      rw [hwhole, htwice]
    · simp [lineOutcome, hflag]

section Feed

variable {connfd : Nat} {first : Bytes} {rest : List Bytes} {d : Conn}

/-- The connection after a first call that is not in error. -/
theorem first_passes (hbound : first.length < 2 ^ 32)
    (hrun : handleRead host ((Conn.fresh connfd).receives first) = .ok d) (herror : d.http.error = false) :
    ∃ r st, readLine first = .ok (.success, r) ∧ r.method ≠ .post ∧
      headerStop .start (afterLine first 0) = some st ∧ PassedOver connfd d r st (afterLine first 0) := by
  obtain ⟨flag, r, hline, -⟩ := readLine_cases first
  have hout := handleRead_outcome hbound hrun hline
  have hgood : (lineOutcome flag r (brokenHeader (afterLine first 0))).error = false := by
    rw [← hout]
    exact herror
  obtain ⟨rfl, hbroken, hpost⟩ := lineOutcome_error hgood
  obtain ⟨st, hstop⟩ := Option.isSome_iff_exists.mp hbroken
  exact ⟨r, st, hline, hpost, hstop, handleRead_passes hrun (handleReadBody_accepts hbound hrun hline)
    (atHeaderText_quiet connfd first r) rfl rfl (Or.inl rfl) rfl hpost rfl hstop⟩

/-- **A feed returns** just if the records of its calls go through. -/
theorem feed_ok_iff (connfd : Nat) {chunks : List Bytes} (hbound : chunks.flatten.length < 2 ^ 32) :
    (∃ d, feed host (Conn.fresh connfd) chunks = .ok d) ↔ FeedLogged host connfd chunks := by
  cases chunks with
  | nil => exact iff_of_true ⟨_, rfl⟩ trivial
  | cons first rest =>
      rw [List.flatten_cons, List.length_append] at hbound
      have hfirst : first.length < 2 ^ 32 := by omega
      have hcalls := handleRead_ok_iff host (fresh_unanswered connfd first)
      rw [feed_cons rfl, FeedLogged]
      cases hrun : handleRead host ((Conn.fresh connfd).receives first) with
      | error f =>
          refine iff_of_false (error_ne_ok _) fun h => ?_
          obtain ⟨d, hd⟩ := hcalls.mpr h.1
          cases hrun.symm.trans hd
      | ok d =>
          rw [and_iff_right (hcalls.mp ⟨d, hrun⟩)]
          show (∃ e, feed host d rest = .ok e) ↔ _
          cases herror : d.http.error with
          | true =>
              refine iff_of_true ⟨d, feed_error herror rest⟩ fun r st hline hpost hstop => ?_
              have hout := congrArg Outcome.error (handleRead_outcome hfirst hrun hline)
              have hgood : (lineOutcome .success r (brokenHeader (afterLine first 0))).error = false := by
                simp [lineOutcome, brokenHeader, hstop, hpost]
              cases (herror.symm.trans hout).trans hgood
          | false =>
              obtain ⟨r, st, hline, hpost, hstop, hpassed⟩ := first_passes hfirst hrun herror
              have hlength := (afterLine_suffix first 0).length_le
              rw [feed_later_iff rest hpassed (by rw [List.length_append]; omega)]
              constructor
              · intro hlater r' st' hline' _ hstop'
                cases hstop.symm.trans hstop'
                exact hlater
              · exact fun h => h r st hline hpost hstop

/-- What becomes of a header that the first call has passed over. -/
theorem passed_outcome {c : Conn} {r : RequestLine} {st : ParseState} {text chunk : Bytes}
    (hpassed : PassedOver connfd c r st text) (hstop : headerStop .start text = some st)
    (hbound : (text ++ chunk).length + rest.flatten.length < 2 ^ 31)
    (hfeed : feed host c (chunk :: rest) = .ok d) :
    d.outcome = lineOutcome .success r (headerStop st text).isSome := by
  have htext : (text ++ []).length < 2 ^ 31 := by
    rw [List.length_append] at hbound
    rw [List.append_nil]
    omega
  obtain ⟨e, hrun, hfeed⟩ := feed_cons_ok hpassed.quiet.error hfeed
  rcases headerStop_settles hstop with hnone | ⟨st', hsome⟩
  · -- the second scan asks for more input: the connection is in error, and reads no more
    have hincomplete := hnone [] htext
    rw [List.append_nil] at hincomplete
    have hout := later_outcome hpassed (by omega) hrun
    rw [hnone chunk (by omega)] at hout
    rw [feed_error (congrArg Outcome.error hout)] at hfeed
    cases hfeed
    rw [hout, hincomplete]
  · -- the second scan is rejected like the first, and so are all that follow it
    have hrejected := (hsome [] htext).1
    rw [List.append_nil] at hrejected
    have hpassed' := later_passes hpassed (by omega) hrun (hsome chunk (by omega)).1
    have hsettled (more : Bytes) (hmore : (text ++ chunk ++ more).length < 2 ^ 31) :
        headerStop st' (text ++ chunk ++ more) = some st' := by
      rw [List.append_assoc] at hmore ⊢
      exact (hsome (chunk ++ more) hmore).2
    have hend := feed_settled rest hpassed' hsettled (by rwa [List.length_append]) hfeed
    rw [hend.outcome, hrejected]
    rfl

/-- What a fresh connection makes of an input that comes in two or more chunks. -/
theorem feed_outcome {chunk : Bytes} {flag : URIState} {r : RequestLine}
    (hbound : (first :: chunk :: rest).flatten.length < 2 ^ 31)
    (hfeed : feed host (Conn.fresh connfd) (first :: chunk :: rest) = .ok d)
    (hline : readLine first = .ok (flag, r)) :
    d.outcome = lineOutcome flag r (brokenTwice r.method (afterLine first 0)) := by
  rw [List.flatten_cons, List.flatten_cons, List.length_append, List.length_append] at hbound
  have hlength := (afterLine_suffix first 0).length_le
  obtain ⟨e, hrun, hfeed⟩ := feed_cons_ok rfl hfeed
  have hout := handleRead_outcome (by omega) hrun hline
  cases herror : e.http.error with
  | true =>
      rw [feed_error herror] at hfeed
      cases hfeed
      rw [hout, lineOutcome_twice]
      rw [← hout]
      exact herror
  | false =>
      obtain ⟨r', st, hline', hpost, hstop, hpassed⟩ := first_passes (by omega) hrun herror
      cases hline.symm.trans hline'
      have htwice : brokenTwice r.method (afterLine first 0) =
          (headerStop st (afterLine first 0)).isSome := by
        simp [brokenTwice, hstop, hpost]
      rw [htwice]
      exact passed_outcome hpassed hstop (by rw [List.length_append]; omega) hfeed

end Feed

end

/-! ### The cuts that make no difference -/

theorem lineOutcome_eq_iff {flag flag' : URIState} {r r' : RequestLine} {broken broken' : Bool}
    (hflag : flag ≠ .again) (hflag' : flag' ≠ .again) :
    lineOutcome flag r broken = lineOutcome flag' r' broken' ↔
      (flag = flag' ∧ r.method = r'.method ∧ r.fileName = r'.fileName) ∧
        (flag = .success → broken = broken') := by
  unfold lineOutcome
  constructor
  · intro h
    have hcases : ∀ f : URIState, f ≠ .again → f ≠ .success → f = .error := by
      intro f
      cases f <;> simp
    have hflag := hcases flag hflag
    have hflag' := hcases flag' hflag'
    split_ifs at h <;> grind
  · rintro ⟨⟨rfl, hmethod, hfile⟩, hbroken⟩
    by_cases hsuccess : flag = .success
    · rw [hbroken hsuccess, hmethod, hfile]
    · rw [if_neg hsuccess, if_neg hsuccess, hmethod, hfile]

/-- Two runs end alike: both return, and what is compared of them is the same. -/
def EndAlike (x y : Except Fault Conn) : Prop :=
  ∃ c d, x = .ok c ∧ y = .ok d ∧ c.outcome = d.outcome

/-- Where all returns, the cut decides. -/
theorem outcome_eq_iff {host : Host} {connfd : Nat} {chunks : List Bytes} {c d : Conn}
    (hbound : chunks.flatten.length < 2 ^ 31)
    (hfeed : feed host (Conn.fresh connfd) chunks = .ok c)
    (hrun : handleRead host ((Conn.fresh connfd).receives chunks.flatten) = .ok d) :
    c.outcome = d.outcome ↔ CutHarmless chunks := by
  match chunks with
  | [] =>
      have hline : readLine [].flatten = .ok (.error, ⟨.get, .http11, []⟩) := by decide
      have hout := handleRead_outcome (by omega) hrun hline
      cases hfeed
      rw [hout]
      exact iff_of_false (fun h => by cases congrArg Outcome.error h) id
  | [chunk] =>
      refine iff_of_true ?_ trivial
      obtain ⟨e, hrun', hfeed⟩ := feed_cons_ok rfl hfeed
      cases hfeed
      rw [List.flatten_singleton] at hrun
      cases hrun.symm.trans hrun'
      rfl
  | first :: chunk :: rest =>
      obtain ⟨flag, r, hline, hflag⟩ := readLine_cases first
      obtain ⟨flag', r', hline', hflag'⟩ := readLine_cases (first ++ (chunk :: rest).flatten)
      have hview : lineView first = .ok (flag, r.method, r.fileName) := by
        rw [lineView, hline]
        rfl
      have hview' : lineView (first ++ (chunk :: rest).flatten) = .ok (flag', r'.method, r'.fileName) := by
        rw [lineView, hline']
        rfl
      rw [feed_outcome hbound hfeed hline, handleRead_outcome (by omega) hrun hline', List.flatten_cons,
        lineOutcome_eq_iff hflag hflag', CutHarmless.eq_3 _ _ (List.cons_ne_nil _ _), hview, hview',
        Except.ok.injEq, Prod.mk.injEq, Prod.mk.injEq, hline]
      refine and_congr_right fun _ => ⟨?_, ?_⟩
      · rintro h r₀ hr₀
        cases hr₀
        exact h rfl
      · rintro h rfl
        exact h r rfl

/-- **Fragmentation.** A connection makes the same of an input in one piece and of its chunks, one by
one, for the harmless cuts and for no others, of the inputs whose records go through, in one piece and in
chunks. -/
theorem feed_outcome_iff (host : Host) (connfd : Nat) {chunks : List Bytes}
    (hbound : chunks.flatten.length < 2 ^ 32) :
    EndAlike (feed host (Conn.fresh connfd) chunks)
        (handleRead host ((Conn.fresh connfd).receives chunks.flatten)) ↔
      CutHarmless chunks ∧ ((Conn.fresh connfd).receives chunks.flatten).Logged host ∧
        FeedLogged host connfd chunks := by
  rw [← handleRead_ok_iff host (fresh_unanswered connfd _), ← feed_ok_iff connfd hbound]
  constructor
  · rintro ⟨c, d, hfeed, hrun, hout⟩
    exact ⟨(outcome_eq_iff (first_short hbound hrun).2 hfeed hrun).mp hout, ⟨d, hrun⟩, ⟨c, hfeed⟩⟩
  · rintro ⟨hcut, ⟨d, hrun⟩, ⟨c, hfeed⟩⟩
    exact ⟨c, d, hfeed, hrun, (outcome_eq_iff (first_short hbound hrun).2 hfeed hrun).mpr hcut⟩

/-- The records of a short input go through, however it is cut. -/
theorem laterLogged_of_room {host : Host} {n : Nat} (hroom : host.HasRoom n) (connfd : Nat) (chunks : List Bytes) :
    ∀ {st : ParseState} {text : Bytes}, (text ++ chunks.flatten).length ≤ n →
      LaterLogged host connfd st text chunks := by
  induction chunks with
  | nil => exact fun _ => trivial
  | cons chunk chunks ih =>
      intro st text hn
      rw [List.flatten_cons, ← List.append_assoc] at hn
      have hfirst : (text ++ chunk).length ≤ n := by
        rw [List.length_append] at hn
        omega
      exact ⟨hroom.logRequest hfirst, headerLogged_of_room hroom st hfirst, fun st' _ => ih hn⟩

theorem feedLogged_of_room {host : Host} {n : Nat} (hroom : host.HasRoom n) (connfd : Nat) {chunks : List Bytes}
    (hn : chunks.flatten.length ≤ n) : FeedLogged host connfd chunks := by
  cases chunks with
  | nil => trivial
  | cons first rest =>
      rw [List.flatten_cons, List.length_append] at hn
      have hlength := (afterLine_suffix first 0).length_le
      refine ⟨Conn.logged_of_room hroom ?_, fun r st _ _ _ => laterLogged_of_room hroom connfd rest ?_⟩
      · rw [afterRead_receives]
        show ([] ++ first).length ≤ n
        rw [List.nil_append]
        omega
      · rw [List.length_append]
        omega

/-- A cut behind a header that is broken for good. -/
theorem feed_outcome_iff_broken :
    EndAlike (feed someHost (Conn.fresh 5) [bytes "GET /a HTTP/1.1\r\nX\r\n", bytes "Y"])
      (handleRead someHost ((Conn.fresh 5).receives [bytes "GET /a HTTP/1.1\r\nX\r\n", bytes "Y"].flatten)) := by
  have hroom : someHost.HasRoom 100 := by decide
  apply (feed_outcome_iff someHost 5 (by decide)).mpr
  refine ⟨⟨by decide, fun r hline => ?_⟩, Conn.logged_of_room hroom ?_, feedLogged_of_room hroom 5 (by decide)⟩
  · cases (show readLine (bytes "GET /a HTTP/1.1\r\nX\r\n") = .ok (.success, ⟨.get, .http11, bytes "a"⟩) by
      decide).symm.trans hline
    decide
  · rw [afterRead_receives]
    decide

/-- A cut inside the request line. -/
theorem feed_cut_line :
    ¬ EndAlike (feed oneHost (Conn.fresh 5) [bytes "GET ", bytes "/a HTTP/1.1\r\nX\r\n"])
      (handleRead oneHost ((Conn.fresh 5).receives
        [bytes "GET ", bytes "/a HTTP/1.1\r\nX\r\n"].flatten)) := by
  rintro ⟨c, d, hfeed, hrun, hout⟩
  have herror : (feed oneHost (Conn.fresh 5) [bytes "GET ", bytes "/a HTTP/1.1\r\nX\r\n"]).map
      (fun c => c.http.error) = .ok true := by decide +kernel
  have hfine : (handleRead oneHost ((Conn.fresh 5).receives
      [bytes "GET ", bytes "/a HTTP/1.1\r\nX\r\n"].flatten)).map (fun c => c.http.error) = .ok false := by
    decide +kernel
  rw [hfeed] at herror
  rw [hrun] at hfine
  have hsame : c.http.error = d.http.error := congrArg Outcome.error hout
  cases (Except.ok.inj herror).symm.trans (hsame.trans (Except.ok.inj hfine))

end WebServer
