import WebServer.HttpHandleRead

/-! The bytes on the wire: what is left in the output buffer, and the response to the next request. The
responses that `analysisRequest` appends to the buffer follow what is left there; those of `handleError`
go to the socket at once, and clear or overtake it. -/

namespace WebServer

open Stages

/-- How a pass of `handleRead` comes to the end of a request: it was rejected on the way, or is there to
be analysed. -/
inductive RequestEnd where
  | rejected (shortMsg : Bytes) (short : ShortMsg 400 shortMsg)
  | analysed

/-- The section that ends the request. -/
def endSection (fs : FileSystem) : RequestEnd → Section
  | .rejected shortMsg _ => badRequest shortMsg
  | .analysed => fun c => do
      let (flag, c) ← analysisRequest fs c
      if flag = .success then return (.brk, { c with http.state := .finish })
      else return (.brk, { c with http.error := true })

/-- The rest of the pass. -/
def endRequest (fs : FileSystem) (e : RequestEnd) (c : Conn) : Except Fault Conn := do
  let (_, c) ← endSection fs e c
  if c.http.error then return c else return handleWrite c

/-- Later calls of `handleWrite`, each with what its system calls answer. -/
def writeLater (c : Conn) (scripts : List (List WriteOutcome)) : Conn :=
  scripts.foldl (fun c writes => handleWrite { c with sock.writes := writes }) c

def response (fs : FileSystem) (h : HttpData) : RequestEnd → Bytes
  | .rejected shortMsg _ => errorReply 400 shortMsg
  | .analysed => analysisResponse fs h

/-- Whatever `write` answers from now on, what reaches the socket is a beginning of what is left of
earlier responses and the response to this request. -/
def WireInOrder (fs : FileSystem) (e : RequestEnd) (c : Conn) : Prop :=
  ∀ writes scripts d, endRequest fs e { c with sock.writes := writes } = .ok d →
    ∃ out, (writeLater d scripts).sock.sent = c.sock.sent ++ out ∧
      out <+: c.http.outBuffer ++ response fs c.http e

/-- `analysisRequest` leaves what is in the output buffer at its front. -/
def KeepsOutput (fs : FileSystem) (c : Conn) : Prop :=
  ∀ flag d, analysisRequest fs c = .ok (flag, d) → c.http.outBuffer <+: d.http.outBuffer

/-- The request has no response, or one that goes through the output buffer. -/
def Buffered (fs : FileSystem) (h : HttpData) : RequestEnd → Prop
  | .rejected _ _ => False
  | .analysed =>
      h.method = .post ∨ (h.fileName = bytes "hello" ∧ h.outBuffer <+: helloResponse) ∨
        h.fileName = bytes "favicon.ico" ∨
        (h.fileName ≠ bytes "hello" ∧ Sendable (fs (cstr h.fileName)) h.method)

/-- From `base` on the connection sends `rest`, or a beginning of it: what it has sent is one, and while
it is not in error what is in its output buffer goes on from there. -/
def Sends (base rest : Bytes) (c : Conn) : Prop :=
  ∃ out, c.sock.sent = base ++ out ∧ out <+: rest ∧
    (c.http.error = false → out ++ c.http.outBuffer <+: rest)

/-- What `writen` takes is a beginning of the string. Unless it fails, what it leaves of the string goes
on from there. -/
theorem writenString_sends (sock : Socket) (sbuff : Bytes) :
    ∃ out, (writenString sock sbuff).sock.sent = sock.sent ++ out ∧ out <+: sbuff ∧
      (¬ toInt (writenString sock sbuff).value < 0 → out ++ (writenString sock sbuff).sbuff <+: sbuff) := by
  have hsplit := writenLoop_split true sock.writes [] sbuff
  rw [List.nil_append] at hsplit
  refine ⟨(writenLoop true sock.writes [] sbuff).accepted, ?_, ⟨_, hsplit⟩, fun hvalue => ?_⟩
  · unfold writenString
    simp only []
    split_ifs <;> rfl
  · unfold writenString at hvalue ⊢
    simp only [] at hvalue ⊢
    split_ifs at hvalue ⊢ with hfailed hall
    · exact absurd (show toInt (-1) < 0 by decide) hvalue
    · rw [List.append_nil]
      exact ⟨_, hsplit⟩
    · have hleft := List.prefix_iff_eq_append.mp ⟨_, hsplit⟩
      exact ⟨[], (List.append_nil _).trans hleft⟩

theorem handleWrite_sends {base rest : Bytes} {c : Conn} (hc : Sends base rest c) :
    Sends base rest (handleWrite c) := by
  obtain ⟨sent, hsent, hbegins, hleft⟩ := hc
  by_cases hopen : c.http.error = false ∧ c.http.connectionState ≠ .disconnected
  · obtain ⟨out, hout, hprefix, hrest⟩ := writenString_sends c.sock c.http.outBuffer
    have htotal := hleft hopen.1
    have hsent' : (writenString c.sock c.http.outBuffer).sock.sent = base ++ (sent ++ out) := by
      rw [hout, hsent, List.append_assoc]
    have hbegins' : sent ++ out <+: rest :=
      ((List.prefix_append_right_inj _).mpr hprefix).trans htotal
    obtain ⟨hsock, hleft', hfailed⟩ := handleWrite_open hopen.1 hopen.2
    refine ⟨sent ++ out, by rw [hsock, hsent'], hbegins', fun herror => ?_⟩
    rw [hleft', List.append_assoc]
    have hvalue := Int.not_lt.mpr (hfailed.mp herror)
    exact ((List.prefix_append_right_inj _).mpr (hrest hvalue)).trans htotal
  · rw [handleWrite_closed hopen]
    exact ⟨sent, hsent, hbegins, hleft⟩

theorem writeLater_sends {base rest : Bytes} : ∀ (scripts : List (List WriteOutcome)) {c : Conn},
    Sends base rest c → Sends base rest (writeLater c scripts)
  | [], _, hc => hc
  | writes :: scripts, c, hc =>
      writeLater_sends scripts (handleWrite_sends (c := { c with sock.writes := writes }) hc)

theorem cstr_cons {b : Byte} (hb : b ≠ 0) (s : Bytes) : cstr (b :: s) = b :: cstr s :=
  List.takeWhile_cons_of_pos (by simpa using hb)

theorem errorHeader_cons (errNum : Nat) (shortMsg : Bytes) :
    ∃ rest, cstr (errorHeader errNum shortMsg) = 72 :: rest := by
  simp only [errorHeader, List.append_assoc]
  rw [show bytes "HTTP/1.1" = 72 :: bytes "TTP/1.1" by decide, List.cons_append, cstr_cons (by decide)]
  exact ⟨_, rfl⟩

theorem errorBody_cons (errNum : Nat) (shortMsg : Bytes) :
    ∃ rest, cstr (errorBody errNum shortMsg) = 60 :: rest := by
  simp only [errorBody, List.append_assoc]
  rw [show bytes "<html><titl>出错了</title>" = 60 :: bytes "html><titl>出错了</title>" by decide,
    List.cons_append, cstr_cons (by decide)]
  exact ⟨_, rfl⟩

/-- What `handleError` sends is its header and body, or its body if the socket takes nothing of the
header: never are both a beginning of the output buffer and the response. -/
theorem errorReply_overtakes (errNum : Nat) (shortMsg left : Bytes) :
    ¬ (errorReply errNum shortMsg <+: left ++ errorReply errNum shortMsg ∧
      cstr (errorBody errNum shortMsg) <+: left ++ errorReply errNum shortMsg) := by
  rintro ⟨hall, hbody⟩
  obtain ⟨header, hheader⟩ := errorHeader_cons errNum shortMsg
  obtain ⟨body, hbody'⟩ := errorBody_cons errNum shortMsg
  have hresponse : errorReply errNum shortMsg = 72 :: (header ++ cstr (errorBody errNum shortMsg)) := by
    rw [errorReply, hheader]
    rfl
  rw [hresponse] at hall hbody
  rw [hbody'] at hbody
  cases left with
  | nil => exact absurd (List.cons_prefix_cons.mp hbody).1 (by decide)
  | cons b left =>
      have hb : (72 : Byte) = b := (List.cons_prefix_cons.mp hall).1
      have hb' : (60 : Byte) = b := (List.cons_prefix_cons.mp hbody).1
      exact absurd (hb.trans hb'.symm) (by decide)

/-- A socket whose script has run out takes all. -/
theorem writenBuff_all {sock : Socket} (hwrites : sock.writes = []) (buff : Bytes) :
    writenBuff sock buff = { sock with sent := sock.sent ++ buff } := by
  simp [writenBuff, hwrites]

/-- The socket takes nothing of the header, and then all of the body. -/
theorem writenBuff_body (sock : Socket) {header : Bytes} (hheader : header ≠ []) (body : Bytes) :
    writenBuff (writenBuff { sock with writes := [.eagain] } header) body =
      { sock with writes := [], sent := sock.sent ++ body } := by
  cases header with
  | nil => exact absurd rfl hheader
  | cons b header => simp [writenBuff, writenLoop]

/-- The four ways in which `analysisRequest` ends, as far as the wire can tell. -/
theorem analysisRequest_cases (fs : FileSystem) (c : Conn) :
    (c.http.method = .post ∧ analysisRequest fs c = .ok (.error, c)) ∨
    (c.http.method ≠ .post ∧ c.http.fileName = bytes "hello" ∧ ∃ d, analysisRequest fs c = .ok (.error, d) ∧
      d.sock = c.sock ∧ d.http.outBuffer = helloResponse) ∨
    (c.http.method ≠ .post ∧ c.http.fileName ≠ bytes "hello" ∧
      (c.http.fileName = bytes "favicon.ico" ∨ Sendable (fs (cstr c.http.fileName)) c.http.method) ∧
      ∃ d, analysisRequest fs c = .ok (.success, d) ∧ d.sock = c.sock ∧ d.http.error = c.http.error ∧
        d.http.outBuffer = c.http.outBuffer ++ analysisResponse fs c.http) ∨
    (c.http.method ≠ .post ∧ c.http.fileName ≠ bytes "hello" ∧ c.http.fileName ≠ bytes "favicon.ico" ∧
      ¬ Sendable (fs (cstr c.http.fileName)) c.http.method ∧
      analysisResponse fs c.http = errorReply 404 (notFoundMsg (fs (cstr c.http.fileName))) ∧
      ∃ d, analysisRequest fs c = .ok (.error, d) ∧
        d.sock = writenBuff (writenBuff c.sock
          (cstr (errorHeader 404 (notFoundMsg (fs (cstr c.http.fileName))))))
          (cstr (errorBody 404 (notFoundMsg (fs (cstr c.http.fileName)))))) := by
  rcases analysisRequest_results fs c with h | ⟨hpost, hhello, hrun⟩ | ⟨hpost, hhello, hsend, hrun⟩ |
    ⟨hpost, hhello, hfavicon, hsend, hresponse, hrun⟩
  · exact Or.inl h
  · exact Or.inr (Or.inl ⟨hpost, hhello, _, hrun, rfl, rfl⟩)
  · exact Or.inr (Or.inr (Or.inl ⟨hpost, hhello, hsend, _, hrun, rfl, rfl, rfl⟩))
  · exact Or.inr (Or.inr (Or.inr ⟨hpost, hhello, hfavicon, hsend, hresponse, _, hrun, rfl⟩))

theorem endRequest_write {fs : FileSystem} {e : RequestEnd} {c d : Conn} {flow : Flow}
    (h : endSection fs e c = .ok (flow, d)) :
    endRequest fs e c = .ok (if d.http.error then d else handleWrite d) := by
  simp only [endRequest, h, bind, Except.bind, pure, Except.pure]
  split_ifs <;> rfl

/-- Where the section leaves all that is to be sent in the buffer, or is in error, so does the rest of
the pass. -/
theorem endRequest_sends {fs : FileSystem} {e : RequestEnd} {c d r : Conn} {flow : Flow} {base rest : Bytes}
    (h : endSection fs e c = .ok (flow, d)) (hd : Sends base rest d) (hr : endRequest fs e c = .ok r) :
    Sends base rest r := by
  rw [endRequest_write h] at hr
  cases hr
  split_ifs
  · exact hd
  · exact handleWrite_sends hd

/-- A pass that writes the error response at once sends it out of order. -/
theorem direct_not_inOrder {fs : FileSystem} {e : RequestEnd} {c : Conn} (errNum : Nat) (shortMsg : Bytes)
    (hresponse : response fs c.http e = errorReply errNum shortMsg)
    (hdirect : ∀ writes, ∃ d, endRequest fs e { c with sock.writes := writes } = .ok d ∧
      d.sock = writenBuff (writenBuff { c.sock with writes := writes } (cstr (errorHeader errNum shortMsg)))
        (cstr (errorBody errNum shortMsg))) : ¬ WireInOrder fs e c := by
  intro hinOrder
  have hsends (writes : List WriteOutcome) (bs : Bytes)
      (hbs : (writenBuff (writenBuff { c.sock with writes := writes }
        (cstr (errorHeader errNum shortMsg))) (cstr (errorBody errNum shortMsg))).sent = c.sock.sent ++ bs) :
      bs <+: c.http.outBuffer ++ errorReply errNum shortMsg := by
    obtain ⟨d, hd, hsock⟩ := hdirect writes
    obtain ⟨out, hout, hprefix⟩ := hinOrder writes [] d hd
    have hsent : d.sock.sent = c.sock.sent ++ out := hout
    rw [hsock, hbs] at hsent
    rw [List.append_cancel_left hsent, ← hresponse]
    exact hprefix
  refine errorReply_overtakes errNum shortMsg c.http.outBuffer ⟨hsends [] _ ?_, hsends [.eagain] _ ?_⟩
  · rw [writenBuff_all rfl, writenBuff_all rfl, errorReply, List.append_assoc]
  · obtain ⟨header, hheader⟩ := errorHeader_cons errNum shortMsg
    rw [writenBuff_body _ (by rw [hheader]; simp)]

theorem endSection_analysed {fs : FileSystem} {c d : Conn} {flag : AnalysisState}
    (h : analysisRequest fs c = .ok (flag, d)) :
    endSection fs .analysed c = .ok (.brk,
      if flag = .success then { d with http.state := .finish } else { d with http.error := true }) := by
  simp only [endSection, h, bind, Except.bind, pure, Except.pure]
  split_ifs <;> rfl

/-- A request that goes through the buffer, and is neither of the first two kinds, can be sent. -/
theorem Buffered.sendable {fs : FileSystem} {h : HttpData} (hbuffered : Buffered fs h .analysed)
    (hpost : h.method ≠ .post) (hhello : h.fileName ≠ bytes "hello") :
    h.fileName = bytes "favicon.ico" ∨ Sendable (fs (cstr h.fileName)) h.method := by
  rcases hbuffered with h | h | h | h
  · exact absurd h hpost
  · exact absurd h.1 hhello
  · exact Or.inl h
  · exact Or.inr h.2

theorem Buffered.keepsOutput {fs : FileSystem} {c : Conn} (h : Buffered fs c.http .analysed) :
    KeepsOutput fs c := by
  intro flag d hd
  rcases analysisRequest_cases fs c with ⟨-, hd'⟩ | ⟨hpost, hhello, d', hd', -, hout⟩ |
    ⟨-, -, -, d', hd', -, -, hout⟩ | ⟨hpost, hhello, hfavicon, hsend, -⟩
  · cases hd'.symm.trans hd
    exact List.prefix_refl _
  · cases hd'.symm.trans hd
    rw [hout]
    rcases h with h | h | h | h
    · exact absurd h hpost
    · exact h.2
    · exact absurd (hhello.symm.trans h) (by decide)
    · exact absurd hhello h.1
  · cases hd'.symm.trans hd
    rw [hout]
    exact List.prefix_append ..
  · exact absurd (h.sendable hpost hhello) (not_or.mpr ⟨hfavicon, hsend⟩)

/-- A request with no response, or with one that goes through the buffer, is sent in order. -/
theorem analysed_inOrder {fs : FileSystem} {c : Conn} (h : Buffered fs c.http .analysed) :
    WireInOrder fs .analysed c := by
  intro writes scripts r hr
  -- what is sent goes on from the buffer as the section leaves it, or stops with the error
  have hsends {d : Conn} (hsock : d.sock = { c.sock with writes := writes })
      (hleft : d.http.error = false →
        d.http.outBuffer = c.http.outBuffer ++ response fs c.http .analysed) :
      Sends c.sock.sent (c.http.outBuffer ++ response fs c.http .analysed) d :=
    ⟨[], by rw [hsock, List.append_nil], List.nil_prefix, fun herror =>
      ⟨[], by rw [List.nil_append, hleft herror, List.append_nil]⟩⟩
  have hlater {d : Conn} {flag : AnalysisState}
      (hd : analysisRequest fs { c with sock.writes := writes } = .ok (flag, d))
      (hsock : d.sock = { c.sock with writes := writes })
      (hleft : flag = .success → d.http.outBuffer = c.http.outBuffer ++ response fs c.http .analysed) :
      ∃ out, (writeLater r scripts).sock.sent = c.sock.sent ++ out ∧
        out <+: c.http.outBuffer ++ response fs c.http .analysed := by
    have hsection : Sends c.sock.sent (c.http.outBuffer ++ response fs c.http .analysed) r := by
      refine endRequest_sends (endSection_analysed hd) ?_ hr
      split_ifs with hflag
      · exact hsends hsock fun _ => hleft hflag
      · exact hsends hsock fun herror => by cases herror
    obtain ⟨out, hout, hprefix, -⟩ := writeLater_sends scripts hsection
    exact ⟨out, hout, hprefix⟩
  rcases analysisRequest_cases fs { c with sock.writes := writes } with ⟨-, hd⟩ | ⟨-, -, d, hd, hsock, -⟩ |
    ⟨-, -, -, d, hd, hsock, -, hout⟩ | ⟨hpost, hhello, hfavicon, hsend, -⟩
  · exact hlater hd rfl fun h => by cases h
  · exact hlater hd hsock fun h => by cases h
  · exact hlater hd hsock fun _ => hout
  · exact absurd (h.sendable hpost hhello) (not_or.mpr ⟨hfavicon, hsend⟩)

/-- **The wire is in order** for all that `write` may answer, and the output buffer is kept, if and only
if the request has no response or one that goes through the buffer. -/
theorem wireInOrder_iff (fs : FileSystem) (e : RequestEnd) (c : Conn) :
    (WireInOrder fs e c ∧ (e = .analysed → KeepsOutput fs c)) ↔ Buffered fs c.http e := by
  cases e with
  | rejected shortMsg short =>
      refine iff_of_false (fun h => ?_) id
      refine direct_not_inOrder 400 shortMsg rfl (fun writes => ?_) h.1
      exact ⟨_, endRequest_write (badRequest_ok short _), rfl⟩
  | analysed =>
      constructor
      · rintro ⟨hwire, hkeeps⟩
        rcases analysisRequest_cases fs c with ⟨hpost, -⟩ | ⟨-, hhello, d, hd, -, hout⟩ |
          ⟨-, hhello, hsend, -⟩ | ⟨hpost, hhello, hfavicon, hsend, hresponse, -⟩
        · exact Or.inl hpost
        · exact Or.inr (Or.inl ⟨hhello, hout ▸ hkeeps rfl _ d hd⟩)
        · exact Or.inr (Or.inr (hsend.imp_right fun h => ⟨hhello, h⟩))
        · refine absurd hwire (direct_not_inOrder _ _ hresponse fun writes => ?_)
          rcases analysisRequest_cases fs { c with sock.writes := writes } with h | h | h |
            ⟨-, -, -, -, -, d, hd, hsock⟩
          · exact absurd h.1 hpost
          · exact absurd h.2.1 hhello
          · exact absurd h.2.2.1 (not_or.mpr ⟨hfavicon, hsend⟩)
          · exact ⟨_, endRequest_write (endSection_analysed hd), hsock⟩
      · exact fun hbuffered => ⟨analysed_inOrder hbuffered, fun _ => hbuffered.keepsOutput⟩

set_option maxRecDepth 8000 in
/-- A request for a file that is not there comes while a byte is left to send. -/
theorem wire_out_of_order :
    let c : Conn := { Conn.fresh 5 with
      http := { HttpData.new 5 with outBuffer := bytes "x", fileName := bytes "a", state := .analysis } }
    ¬ (WireInOrder (fun _ => .missing) .analysed c ∧ KeepsOutput (fun _ => .missing) c) := by
  intro c h
  obtain ⟨d, hd, hsent⟩ : ∃ d, endRequest (fun _ => .missing) .analysed { c with sock.writes := [] } = .ok d ∧
      72 ∈ d.sock.sent.head? := ⟨_, rfl, by decide⟩
  obtain ⟨out, hout, hprefix⟩ := h.1 [] [] d hd
  have hsent' : d.sock.sent = out := hout
  rw [hsent'] at hsent
  cases out with
  | nil => cases hsent
  | cons b out =>
      cases hsent
      exact absurd (List.cons_prefix_cons.mp hprefix).1 (by decide)

/-- Nothing was sent, and the output buffer is as it was. -/
structure Untouched (c m : Conn) : Prop where
  outBuffer : m.http.outBuffer = c.http.outBuffer
  sent : m.sock.sent = c.sock.sent
  writes : m.sock.writes = c.sock.writes

theorem Untouched.trans (c d e : Conn) (hcd : Untouched c d) (hde : Untouched d e) : Untouched c e :=
  ⟨hde.outBuffer.trans hcd.outBuffer, hde.sent.trans hcd.sent, hde.writes.trans hcd.writes⟩

/-- The request is not there yet, or comes to an end. -/
def Ends (fs : FileSystem) (c d : Conn) : Prop :=
  ∃ m, Untouched c m ∧ (d = m ∨ ∃ e, endSection fs e m = .ok (.brk, d))

theorem Ends.of_untouched {fs : FileSystem} {c d : Conn} (h : Untouched c d) : Ends fs c d :=
  ⟨d, h, Or.inl rfl⟩

theorem Parses.untouched {c d : Conn} (h : Parses c d) : Untouched c d := ⟨h.outBuffer, h.sent, h.writes⟩

theorem Rejects.ends (fs : FileSystem) {c d : Conn} (h : Rejects c d) : Ends fs c d := by
  obtain ⟨m, shortMsg, hshort, hm, rfl⟩ := h
  exact ⟨m, hm.untouched, Or.inr ⟨.rejected shortMsg hshort, badRequest_ok hshort m⟩⟩

theorem Parsing.ends (fs : FileSystem) {s : Section} (hs : Parsing s) : s.Leads Untouched (Ends fs) :=
  hs.imp (fun _ _ => Parses.untouched) fun _ _ h =>
    h.elim (fun h => .of_untouched h.untouched) (Rejects.ends fs)

theorem analysisSection_ends (fs : FileSystem) : (analysisSection fs).Leads Untouched (Ends fs) := by
  intro c flow d hrun
  by_cases hstate : c.http.state = .analysis
  · have hsection : endSection fs .analysed c = .ok (flow, d) := by
      rw [← hrun, analysisSection, if_pos hstate]
      rfl
    obtain ⟨⟨flag, r⟩, hr, -⟩ := bind_eq_ok hsection
    have hbrk := endSection_analysed hr
    cases hbrk.symm.trans hsection
    exact ⟨c, ⟨rfl, rfl, rfl⟩, Or.inr ⟨.analysed, hbrk⟩⟩
  · rw [analysisSection_skip hstate] at hrun
    cases hrun
    exact ⟨rfl, rfl, rfl⟩

/-- **A pass of `handleRead`** leaves the output alone until the request comes to one of its ends. -/
theorem handleReadBody_ends (host : Host) : (handleReadBody host).Leads Untouched (Ends host.files) := by
  have hbrk (c d e : Conn) (hcd : Untouched c d) (hde : Ends host.files d e) : Ends host.files c e := by
    obtain ⟨m, hm, hend⟩ := hde
    exact ⟨m, hcd.trans _ _ _ hm, hend⟩
  exact .seq Untouched.trans hbrk ((readSection_parsing host).ends _) <|
    .seq Untouched.trans hbrk ((uriSection_parsing host).ends _) <|
      .seq Untouched.trans hbrk ((headersSection_parsing host).ends _) <|
        .seq Untouched.trans hbrk (bodySection_parsing.ends _) (analysisSection_ends _)

end WebServer
