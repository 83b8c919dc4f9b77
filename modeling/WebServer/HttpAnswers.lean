import WebServer.HttpResponses
import WebServer.HttpServing

/-! What the client is sent for a request that is analysed. The result of `analysisRequest` decides
whether the output buffer is written: a response in the buffer with an error as the result stays there. -/

namespace WebServer

open Stages

/-- Each call of `write` takes something, or is made again. -/
def WritesSucceed (writes : List WriteOutcome) : Prop :=
  ∀ w ∈ writes, w = .eintr ∨ ∃ count, 0 < count ∧ w = .accept count

theorem writenLoop_succeeds (zeroBreaks : Bool) {writes : List WriteOutcome} (h : WritesSucceed writes)
    (accepted left : Bytes) :
    ∃ rest, writenLoop zeroBreaks writes accepted left = ⟨false, accepted ++ left, [], rest⟩ ∧
      WritesSucceed rest := by
  induction writes generalizing accepted left with
  | nil => exact ⟨[], writenLoop_exhausted zeroBreaks accepted left, h⟩
  | cons w writes ih =>
      have hrest : WritesSucceed writes := fun w hw => h w (List.mem_cons_of_mem _ hw)
      cases left with
      | nil => exact ⟨w :: writes, by rw [writenLoop_nil, List.append_nil], h⟩
      | cons b left =>
          rcases h w List.mem_cons_self with rfl | ⟨count, hcount, rfl⟩
          · rw [writenLoop]
            · exact ih hrest accepted (b :: left)
            · simp
          · rw [writenLoop, if_neg (by omega)]
            · have hsplit : accepted ++ (b :: left).take count ++ (b :: left).drop count =
                  accepted ++ b :: left := by
                rw [List.append_assoc, List.take_append_drop]
              rw [← hsplit]
              exact ih hrest _ _
            · simp

/-- An error response is sent in full. -/
theorem writenBuff_succeeds {sock : Socket} (h : WritesSucceed sock.writes) (buff : Bytes) :
    (writenBuff sock buff).sent = sock.sent ++ buff ∧ WritesSucceed (writenBuff sock buff).writes := by
  obtain ⟨rest, hloop, hrest⟩ := writenLoop_succeeds false h [] buff
  rw [writenBuff, hloop]
  exact ⟨rfl, hrest⟩

theorem refused_sent {c : Conn} (h : WritesSucceed c.sock.writes) (errNum : Nat) (shortMsg : Bytes) :
    (refused c errNum shortMsg).sock.sent = c.sock.sent ++ errorReply errNum shortMsg := by
  obtain ⟨hheader, hrest⟩ := writenBuff_succeeds h (cstr (errorHeader errNum shortMsg))
  obtain ⟨hbody, -⟩ := writenBuff_succeeds hrest (cstr (errorBody errNum shortMsg))
  rw [errorReply, ← List.append_assoc, ← hheader]
  exact hbody

/-- The output buffer is sent in full. -/
theorem handleWrite_succeeds {c : Conn} (h : WritesSucceed c.sock.writes) (herror : c.http.error = false)
    (hconn : c.http.connectionState ≠ .disconnected) :
    (handleWrite c).sock.sent = c.sock.sent ++ c.http.outBuffer := by
  obtain ⟨rest, hloop, -⟩ := writenLoop_succeeds true h [] c.http.outBuffer
  rw [(handleWrite_open herror hconn).1, writenString, hloop]
  rfl

/-- After the input was read, a request that is there in full is only analysed. -/
theorem handleReadPass_analysis {host : Host} {c c₁ : Conn} (hread : readSection host c = .ok (.next, c₁))
    (hstate : c₁.http.state = .analysis) : handleReadPass host c = endRequest host.files .analysed c₁ := by
  have hother {st : ProcessState} (hst : ProcessState.analysis ≠ st) : c₁.http.state ≠ st := hstate ▸ hst
  have hbody : handleReadBody host c = endSection host.files .analysed c₁ := by
    rw [handleReadBody, seq_next hread, seq_next (uriSection_skip host (hother (by decide))), headerSections,
      seq_next (headersSection_skip host (hother (by decide))), seq_next (bodySection_skip (hother (by decide))),
      analysisSection, if_pos hstate, endSection]
  rw [handleReadPass, hbody, endRequest]

/-- What reading changes where the handler goes on. -/
theorem readSection_next_frame {host : Host} {c c₁ : Conn} (hread : readSection host c = .ok (.next, c₁)) :
    ∃ inBuffer st reads, c₁ = { c with
      http := { c.http with inBuffer := inBuffer, connectionState := st }, sock.reads := reads } := by
  unfold readSection at hread
  obtain ⟨-, -, hread⟩ := bind_eq_ok hread
  simp only [] at hread
  split_ifs at hread
  · cases hread
  · rw [badRequest_ok shortMsg_badRequest] at hread
    cases hread
  · cases hread
  · cases hread
    exact ⟨_, _, _, rfl⟩
  · cases hread
    exact ⟨_, _, _, rfl⟩

/-- The client is sent the output buffer and one response: a success, that was put into the buffer, or an
error response, by the one call of `handleError`. -/
def OneResponse (fs : FileSystem) (c d : Conn) : Prop :=
  ∃ flag e, analysisRequest fs c = .ok (flag, e) ∧
    match flag with
    | .success => ∃ response, SuccessResponse response ∧
        e.http.outBuffer = c.http.outBuffer ++ response ∧
        d.sock.sent = c.sock.sent ++ (c.http.outBuffer ++ response) ∧ d.calls = c.calls
    | .error => ∃ errNum shortMsg, d.sock.sent = c.sock.sent ++ errorReply errNum shortMsg ∧
        d.calls = c.calls ++ [.handleError errNum shortMsg]

/-- The request is neither a `POST` nor for `hello`, and if it has a success as its response the connection
is not closed. -/
def Answerable (fs : FileSystem) (h : HttpData) : Prop :=
  h.method ≠ .post ∧ h.fileName ≠ bytes "hello" ∧
    (h.connectionState = .disconnected →
      ¬ (h.fileName = bytes "favicon.ico" ∨ Sendable (fs (cstr h.fileName)) h.method))

/-- A response of this kind is a success. -/
theorem analysisResponse_success {fs : FileSystem} {h : HttpData} (hpost : h.method ≠ .post)
    (hhello : h.fileName ≠ bytes "hello")
    (hsend : h.fileName = bytes "favicon.ico" ∨ Sendable (fs (cstr h.fileName)) h.method) :
    SuccessResponse (analysisResponse fs h) := by
  rw [analysisResponse_head hpost hhello hsend, SuccessResponse, responseHead, List.append_assoc, List.append_assoc]
  exact List.prefix_append ..

/-- **Exactly one response** goes to the client for a request that is analysed, where the writes succeed, if
and only if the request is one that can be answered. -/
theorem one_response_iff {host : Host} {c c₁ : Conn} (hstate : c.http.state = .analysis)
    (herror : c.http.error = false) (hwrites : WritesSucceed c.sock.writes)
    (hread : readSection host c = .ok (.next, c₁)) :
    (∃ d, handleReadPass host c = .ok d ∧ OneResponse host.files c₁ d) ↔ Answerable host.files c₁.http := by
  have hframe : c₁.http.state = .analysis ∧ c₁.http.error = false ∧ WritesSucceed c₁.sock.writes := by
    obtain ⟨inBuffer, st, reads, rfl⟩ := readSection_next_frame hread
    exact ⟨hstate, herror, hwrites⟩
  obtain ⟨hstate', herror', hwrites'⟩ := hframe
  rw [handleReadPass_analysis hread hstate']
  have hunanswered {e : Conn} (hrun : analysisRequest host.files c₁ = .ok (.error, e))
      (hnone : e.calls = c₁.calls) :
      ¬ ∃ d, endRequest host.files .analysed c₁ = .ok d ∧ OneResponse host.files c₁ d := by
    rintro ⟨d, hd, flag, e', hrun', hone⟩
    cases hrun.symm.trans hrun'
    rw [endRequest_write (endSection_analysed hrun)] at hd
    cases hd
    obtain ⟨errNum, shortMsg, -, hcalls⟩ := hone
    have hmore : c₁.calls = c₁.calls ++ [.handleError errNum shortMsg] := hnone.symm.trans hcalls
    exact absurd (List.self_eq_append_right.mp hmore) (List.cons_ne_nil _ _)
  rcases analysisRequest_results host.files c₁ with ⟨hpost, hrun⟩ | ⟨-, hhello, hrun⟩ |
    ⟨hpost, hhello, hsend, hrun⟩ | ⟨hpost, hhello, hfavicon, hsend, -, hrun⟩
  · -- no response
    exact iff_of_false (hunanswered hrun rfl) (fun h => h.1 hpost)
  · -- a response that stays in the buffer
    exact iff_of_false (hunanswered hrun rfl) (fun h => h.2.1 hhello)
  · -- a response through the buffer
    have hresponse := analysisResponse_success hpost hhello hsend
    have hpass := endRequest_write (endSection_analysed hrun)
    rw [if_pos rfl, if_neg (by rw [answered, herror']; decide)] at hpass
    by_cases hconn : c₁.http.connectionState = .disconnected
    · refine iff_of_false ?_ (fun h => h.2.2 hconn hsend)
      rintro ⟨d, hd, flag, e, hrun', hone⟩
      cases hrun.symm.trans hrun'
      rw [hpass, Except.ok.injEq, handleWrite, if_neg (fun h => h.2 hconn)] at hd
      subst hd
      obtain ⟨response, hsuccess, -, hsent, -⟩ := hone
      have hnil := List.self_eq_append_right.mp hsent
      exact hsuccess.ne_nil (List.append_eq_nil_iff.mp hnil).2
    · refine iff_of_true ⟨_, hpass, .success, _, hrun, _, hresponse, rfl, ?_, ?_⟩
        ⟨hpost, hhello, fun h => absurd h hconn⟩
      · exact handleWrite_succeeds hwrites' herror' hconn
      · exact handleWrite_calls _
  · -- an error response
    refine iff_of_true ?_ ⟨hpost, hhello, fun _ => not_or.mpr ⟨hfavicon, hsend⟩⟩
    refine ⟨_, endRequest_write (endSection_analysed hrun), .error, _, hrun, _, _, ?_, rfl⟩
    exact refused_sent (c := answered c₁ _ _) hwrites' 404 _

/-- A connection whose request is there to be analysed, with nothing more to read. -/
def analysisConn (method : HttpMethod) : Conn := { Conn.fresh 5 with
  http := { HttpData.new 5 with method := method, fileName := bytes "a", state := .analysis } }

theorem analysisConn_read (method : HttpMethod) :
    readSection someHost (analysisConn method) = .ok (.next, analysisConn method) := by
  have hlog : someHost.logRequest [] = .ok () := by decide +kernel
  have hvalue : 0 ≤ toInt (readn [] []).value := by decide
  have hread := readSection_next someHost (c := analysisConn method) (by simp [analysisConn, HttpData.new])
    hvalue rfl
  rwa [show (analysisConn method).afterRead = analysisConn method from rfl,
    show (analysisConn method).http.inBuffer = [] from rfl, hlog] at hread

/-- A file that is not there. -/
theorem one_response_missing :
    ∃ c c₁ d, readSection someHost c = .ok (.next, c₁) ∧ handleReadPass someHost c = .ok d ∧
      OneResponse someHost.files c₁ d := by
  have hread := analysisConn_read .get
  obtain ⟨d, hpass, hone⟩ := (one_response_iff (c := analysisConn .get) rfl rfl (fun w hw => by cases hw)
    hread).mpr ⟨by decide, by decide, fun h => by cases h⟩
  exact ⟨_, _, d, hread, hpass, hone⟩

/-- A `POST` request is closed without a response. -/
theorem one_response_post :
    ¬ ∀ (host : Host) (c c₁ : Conn), c.http.state = .analysis → c.http.error = false →
      WritesSucceed c.sock.writes → readSection host c = .ok (.next, c₁) →
        ∃ d, handleReadPass host c = .ok d ∧ OneResponse host.files c₁ d := by
  intro hanswers
  have hread := analysisConn_read .post
  obtain ⟨d, hpass, flag, e, hrun, hone⟩ :=
    hanswers someHost (analysisConn .post) _ rfl rfl (fun w hw => by cases hw) hread
  rw [handleReadPass_analysis hread rfl] at hpass
  cases (show analysisRequest someHost.files (analysisConn .post) = .ok (.error, analysisConn .post) from
    rfl).symm.trans hrun
  cases (show endRequest someHost.files .analysed (analysisConn .post) =
    .ok { analysisConn .post with http.error := true } from rfl).symm.trans hpass
  obtain ⟨errNum, shortMsg, -, hcalls⟩ := hone
  cases hcalls

end WebServer
