import WebServer.HttpServing

/-! What `handleRead` makes of the value `parseHeaders` returns. The values of the two enumerations it
compares differ by one, so that a complete header is left lying, an incomplete one is rejected, and a
rejected one is passed on. -/

namespace WebServer

open Stages

/-- A connection in the middle of its header, about to read more of it. -/
structure InHeaders (c : Conn) : Prop where
  connected : c.http.connectionState = .connected
  state : c.http.state = .parseHeaders
  error : c.http.error = false
  read : 0 ≤ (readn c.sock.reads c.http.inBuffer).value
  more : (readn c.sock.reads c.http.inBuffer).zero = false

/-- `handleRead` acts on the value of `parseHeaders` as the name of the value says. -/
def ActsOn (host : Host) (c : Conn) : HeaderState → Prop
  | .again => ∃ c', handleRead host c = .ok c' ∧ c'.http.state = .parseHeaders ∧
      c'.http.error = false ∧ c'.calls = c.calls
  | .error => ∃ c' shortMsg, handleRead host c = .ok c' ∧ c'.http.error = true ∧
      c'.calls = c.calls ++ [.handleError 400 shortMsg]
  | .success => ∃ c', headersSection host c.afterRead = .ok (.next, c') ∧
      c'.http.state = if c.http.method = .post then .recvBody else .analysis

/-- The input is logged, the parser rejects it, and the rejection is made up for: in the section after that of
the header, or because the number of bytes read, as an `int`, is that of a failure. -/
structure RejectedLater (host : Host) (c : Conn) : Prop where
  logged : host.logRequest c.afterRead.http.inBuffer = .ok ()
  stops : (headerStop c.http.hState c.afterRead.http.inBuffer).isSome
  answered : toInt (readn c.sock.reads c.http.inBuffer).value < 0 ∨
    c.http.method = .post ∧ c.http.headers.find (bytes "Content-length") = none

section

variable {host : Host} {c : Conn}

theorem InHeaders.open (hc : InHeaders c) : c.http.connectionState ≠ .disconnecting := by
  rw [hc.connected]
  decide

theorem handleReadBody_headers (hc : InHeaders c) (hlog : host.logRequest c.afterRead.http.inBuffer = .ok ())
    (hvalue : 0 ≤ toInt (readn c.sock.reads c.http.inBuffer).value) :
    handleReadBody host c = headerSections host c.afterRead := by
  have hread := readSection_next host hc.open hvalue hc.more
  rw [hlog] at hread
  rw [handleReadBody, seq_next hread, seq_next (uriSection_skip host _)]
  simp [Conn.afterRead, hc.state]

/-- The read is taken for one that failed. -/
theorem handleRead_fails (hc : InHeaders c) (hlog : host.logRequest c.afterRead.http.inBuffer = .ok ())
    (hvalue : toInt (readn c.sock.reads c.http.inBuffer).value < 0) :
    handleRead host c = .ok (rejected (bytes "Bad Request") c.afterRead) := by
  have hread := readSection_fails host hc.open hvalue
  rw [hlog] at hread
  exact handleRead_of_error (seq_brk hread) rfl

/-- An incomplete header is answered with an error. -/
theorem not_actsOn_again {h : HttpData} (hc : InHeaders c)
    (hparse : parseHeaders c.afterRead.http = .ok (.again, h)) : ¬ ActsOn host c .again := by
  rintro ⟨c', hrun, -, herror, -⟩
  have hlog := handleRead_record hrun
  rcases Int.lt_or_le (toInt (readn c.sock.reads c.http.inBuffer).value) 0 with hvalue | hvalue
  · rw [handleRead_fails hc hlog hvalue] at hrun
    cases hrun
    cases herror
  · have hsection := headersSection_again host (c := c.afterRead) hc.state hparse
    have hbody := handleReadBody_headers hc hlog hvalue
    cases hfailed : host.logHeadersFailed h.fd h.inBuffer with
    | error f =>
        rw [hfailed] at hsection
        rw [headerSections, seq_error hsection] at hbody
        simp [handleRead, handleReadN, handleReadPass, hbody, bind, Except.bind] at hrun
    | ok _ =>
        rw [hfailed] at hsection
        rw [handleRead_of_error (hbody.trans (seq_brk hsection)) rfl] at hrun
        cases hrun
        cases herror

/-- A complete header ends the pass. -/
theorem not_actsOn_success {h : HttpData} (hc : InHeaders c)
    (hparse : parseHeaders c.afterRead.http = .ok (.success, h)) : ¬ ActsOn host c .success := by
  rintro ⟨c', hsection, -⟩
  rw [headersSection_success host (c := c.afterRead) hc.state hparse] at hsection
  cases hsection

/-- A rejected header of a request that has no body is passed over in silence. -/
theorem not_actsOn_error_of_method {st : ParseState} (hc : InHeaders c)
    (hstop : headerStop c.http.hState c.afterRead.http.inBuffer = some st)
    (hvalue : 0 ≤ toInt (readn c.sock.reads c.http.inBuffer).value) (hmethod : c.http.method ≠ .post) :
    ¬ ActsOn host c .error := by
  rintro ⟨c', shortMsg, hrun, -, hcalls⟩
  have hsection := headersSection_other host (c := c.afterRead) hc.state hstop hmethod
  have hstate : c.afterRead.http.state = .parseHeaders := hc.state
  have hbody := (handleReadBody_headers hc (handleRead_record hrun) hvalue).trans (seq_next hsection)
  rw [seq_next (bodySection_skip (by simp [hstate])), analysisSection_skip (by simp [hstate])] at hbody
  rw [handleRead_of_write hbody hc.error (by simp [hstate])] at hrun
  cases hrun
  rw [handleWrite_calls] at hcalls
  simp [Conn.afterRead] at hcalls

/-- With the length of an earlier header, the body is waited for, or the request is dropped. -/
theorem not_actsOn_error_of_length {st : ParseState} {value : Bytes} (hc : InHeaders c)
    (hstop : headerStop c.http.hState c.afterRead.http.inBuffer = some st)
    (hvalue : 0 ≤ toInt (readn c.sock.reads c.http.inBuffer).value) (hpost : c.http.method = .post)
    (hlength : c.http.headers.find (bytes "Content-length") = some value) : ¬ ActsOn host c .error := by
  rintro ⟨c', shortMsg, hrun, -, hcalls⟩
  have hsection := headersSection_post host (c := c.afterRead) hc.state hstop hpost
  have hbody := (handleReadBody_headers hc (handleRead_record hrun) hvalue).trans (seq_next hsection)
  have hlen := bodySection_length (c := { c.afterRead with
    http := { c.afterRead.http with hState := st, state := .recvBody } }) rfl hlength
  cases hstoi : stoi value with
  | error f =>
      rw [hstoi] at hlen
      have hfault : handleReadBody host c = .error f := hbody.trans (seq_error hlen)
      simp [handleRead, handleReadN, handleReadPass, hfault, bind, Except.bind] at hrun
  | ok contentLength =>
      rw [hstoi] at hlen
      simp only [Except.map] at hlen
      split_ifs at hlen
      · rw [seq_brk hlen] at hbody
        rw [handleRead_of_write hbody hc.error (by simp)] at hrun
        cases hrun
        rw [handleWrite_calls] at hcalls
        simp [Conn.afterRead] at hcalls
      · rw [seq_next hlen] at hbody
        have hdrop := hbody.trans (analysisSection_post rfl hpost)
        rw [handleRead_of_error hdrop rfl] at hrun
        cases hrun
        simp [Conn.afterRead] at hcalls

/-- A rejected header of a request whose body has no length is answered as one, after all. -/
theorem actsOn_error (hc : InHeaders c) (hlater : RejectedLater host c) : ActsOn host c .error := by
  obtain ⟨hlog, hstops, hanswered⟩ := hlater
  obtain ⟨st, hstop⟩ := Option.isSome_iff_exists.mp hstops
  rcases Int.lt_or_le (toInt (readn c.sock.reads c.http.inBuffer).value) 0 with hvalue | hvalue
  · exact ⟨_, _, handleRead_fails hc hlog hvalue, rfl, rfl⟩
  · obtain ⟨hpost, hnone⟩ := hanswered.resolve_left (Int.not_lt.mpr hvalue)
    have hsection := headersSection_post host (c := c.afterRead) hc.state hstop hpost
    have hbody := ((handleReadBody_headers hc hlog hvalue).trans (seq_next hsection)).trans
      (seq_brk (bodySection_rejects rfl hnone))
    exact ⟨_, _, handleRead_of_error hbody rfl, rfl, rfl⟩

end

/-- **The dispatcher agrees with the parser** on those inputs alone that are logged, that the parser rejects,
and whose request fails its next check as well. -/
theorem handleRead_actsOn_iff (host : Host) {c : Conn} {flag : HeaderState} {h : HttpData}
    (hc : InHeaders c) (hparse : parseHeaders c.afterRead.http = .ok (flag, h)) :
    ActsOn host c flag ↔ RejectedLater host c := by
  have hflag : flag = .error ↔ (headerStop c.http.hState c.afterRead.http.inBuffer).isSome :=
    parseHeaders_error_iff hparse
  cases flag with
  | again => exact iff_of_false (not_actsOn_again hc hparse) fun hlater => nomatch hflag.mpr hlater.stops
  | success => exact iff_of_false (not_actsOn_success hc hparse) fun hlater => nomatch hflag.mpr hlater.stops
  | error =>
      obtain ⟨st, hstop⟩ := Option.isSome_iff_exists.mp (hflag.mp rfl)
      refine ⟨fun hacts => ?_, actsOn_error hc⟩
      have hlog : host.logRequest c.afterRead.http.inBuffer = .ok () := by
        obtain ⟨c', shortMsg, hrun, -⟩ := hacts
        exact handleRead_record hrun
      refine ⟨hlog, hflag.mp rfl, or_iff_not_imp_left.mpr fun hneg => ?_⟩
      have hvalue := Int.not_lt.mp hneg
      by_cases hpost : c.http.method = .post
      · cases hlength : c.http.headers.find (bytes "Content-length") with
        | none => exact ⟨hpost, rfl⟩
        | some value => exact absurd hacts (not_actsOn_error_of_length hc hstop hvalue hpost hlength)
      · exact absurd hacts (not_actsOn_error_of_method hc hstop hvalue hpost)

/-- A connection in the middle of the header of a request, with `s` about to be read. -/
def headerConn (method : HttpMethod) (s : Bytes) : Conn where
  http := { HttpData.new 5 with method := method, state := .parseHeaders }
  chan := Channel.new 5
  sock := ⟨deliver s, [], []⟩
  calls := []

theorem headerConn_inHeaders (method : HttpMethod) (s : Bytes) : InHeaders (headerConn method s) := by
  constructor <;> simp [headerConn, HttpData.new, readn_deliver]

theorem handleRead_actsOn_iff_post :
    InHeaders (headerConn .post (bytes "a\r")) ∧
      (ActsOn someHost (headerConn .post (bytes "a\r")) .error ↔
        RejectedLater someHost (headerConn .post (bytes "a\r"))) :=
  ⟨headerConn_inHeaders _ _, handleRead_actsOn_iff someHost (headerConn_inHeaders _ _)
    (h := { (headerConn .post (bytes "a\r")).afterRead.http with hState := .key }) (by decide)⟩

/-- An incomplete header: the connection should go on waiting for the rest of it. -/
theorem handleRead_incomplete_rejected :
    InHeaders (headerConn .get (bytes "\nHost")) ∧
      (parseHeaders (headerConn .get (bytes "\nHost")).afterRead.http).map Prod.fst = .ok .again ∧
      ¬ ActsOn someHost (headerConn .get (bytes "\nHost")) .again := by
  refine ⟨headerConn_inHeaders _ _, by decide, ?_⟩
  rintro ⟨c', hrun, -, herror, -⟩
  have hreject : (handleRead someHost (headerConn .get (bytes "\nHost"))).map (fun c => c.http.error) =
      .ok true := by decide +kernel
  rw [hrun] at hreject
  simp [Except.map, herror] at hreject

end WebServer
