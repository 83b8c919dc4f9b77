import WebServer.HttpAnswers

/-! `HEAD` beside `GET`: two runs of `analysisRequest` on one request that differ in the method. The test
of the method stands behind the two special names and before the file is opened, so the runs agree on the
files that can be sent, and on nothing else. -/

namespace WebServer

open HttpMessage

/-- The same request with another method. -/
def Conn.asks (c : Conn) (method : HttpMethod) : Conn := { c with http.method := method }

/-- The result of the analysis, and its response: what is sent at once, and what is left in the buffer. -/
def Responds (fs : FileSystem) (c : Conn) (flag : AnalysisState) (response : Bytes) : Prop :=
  ∃ d, analysisRequest fs c = .ok (flag, d) ∧
    d.sock.sent ++ d.http.outBuffer = c.sock.sent ++ response

theorem Responds.unique {fs : FileSystem} {c : Conn} {flag flag' : AnalysisState} {r r' : Bytes}
    (h : Responds fs c flag r) (h' : Responds fs c flag' r') : flag = flag' ∧ r = r' := by
  obtain ⟨d, hrun, hsent⟩ := h
  obtain ⟨d', hrun', hsent'⟩ := h'
  cases hrun.symm.trans hrun'
  exact ⟨rfl, List.append_cancel_left (hsent.symm.trans hsent')⟩

/-- `HEAD` and `GET` have the same result, status line and header fields, and the response to `HEAD` ends
with the empty line. -/
def HeadAgrees (fs : FileSystem) (c : Conn) : Prop :=
  ∃ flag head full lines body,
    Responds fs (c.asks .head) flag head ∧ Responds fs (c.asks .get) flag full ∧
    headLines [] head = some (lines, []) ∧ headLines [] full = some (lines, body)

/-- The name is that of a file that can be sent, and none of the two special names. -/
def NamesSendable (fs : FileSystem) (h : HttpData) : Prop :=
  h.fileName ≠ bytes "hello" ∧ h.fileName ≠ bytes "favicon.ico" ∧ Sendable (fs (cstr h.fileName)) .get

/-- With an empty buffer, and writes that succeed, the response is all there is. -/
theorem responds (fs : FileSystem) {c : Conn} (hpost : c.http.method ≠ .post)
    (hout : c.http.outBuffer = []) (hwrites : WritesSucceed c.sock.writes) :
    ∃ flag, Responds fs c flag (analysisResponse fs c.http) ∧
      (flag = .success ↔ c.http.fileName ≠ bytes "hello" ∧
        (c.http.fileName = bytes "favicon.ico" ∨ Sendable (fs (cstr c.http.fileName)) c.http.method)) := by
  rcases analysisRequest_results fs c with ⟨hpost', -⟩ | ⟨-, hhello, hrun⟩ | ⟨-, hhello, hsend, hrun⟩ |
    ⟨-, hhello, hfavicon, hsend, hresponse, hrun⟩
  · exact absurd hpost' hpost
  · refine ⟨.error, ⟨_, hrun, ?_⟩, iff_of_false (by decide) fun h => h.1 hhello⟩
    rw [analysisResponse, if_neg hpost, if_pos hhello]
    rfl
  · refine ⟨.success, ⟨_, hrun, ?_⟩, iff_of_true rfl ⟨hhello, hsend⟩⟩
    rw [hout]
    rfl
  · refine ⟨.error, ⟨_, hrun, ?_⟩, iff_of_false (by decide) fun h => h.2.elim hfavicon hsend⟩
    have hnil : keptBuffer (fs (cstr c.http.fileName)) c.http.outBuffer = [] := by
      rw [keptBuffer, hout, ite_self]
    have hsent := refused_sent (c := answered c (keepsAlive c.http) []) hwrites 404
      (notFoundMsg (fs (cstr c.http.fileName)))
    rw [hresponse, hnil, hsent]
    exact List.append_nil _

theorem headLines_head (headers : HeaderMap) (body : Bytes) :
    headLines [] (responseHead headers ++ contentLines ++ body) = some (okLine :: headFields headers, body) := by
  rw [head_eq]
  apply headLines_render
  intro line hline
  obtain ⟨hne, hone⟩ := headFields_lines headers line hline
  exact ⟨hne, hone.1⟩

set_option maxRecDepth 8000 in
/-- The two responses that have a body whatever the method is. -/
theorem headLines_bodies :
    (headLines [] helloResponse).map Prod.snd ≠ some [] ∧
      (headLines [] (errorReply 404 (bytes "Not Fount!"))).map Prod.snd ≠ some [] := by
  decide

/-- What agrees with `GET` has nothing behind the empty line. -/
theorem HeadAgrees.no_body {fs : FileSystem} {c : Conn} (h : HeadAgrees fs c)
    (hout : c.http.outBuffer = []) (hwrites : WritesSucceed c.sock.writes) :
    (headLines [] (analysisResponse fs (c.asks .head).http)).map Prod.snd = some [] := by
  obtain ⟨flag, hhead, -⟩ := responds fs (c := c.asks .head) (by simp [Conn.asks]) hout hwrites
  obtain ⟨flag', head, full, lines, body, hhead', -, hlines, -⟩ := h
  obtain ⟨-, rfl⟩ := hhead.unique hhead'
  rw [hlines]
  rfl

/-- The icon is sent as the body of the response to `HEAD`. -/
theorem not_headAgrees_icon (fs : FileSystem) {c : Conn} (hout : c.http.outBuffer = [])
    (hwrites : WritesSucceed c.sock.writes) (hicon : c.http.fileName = bytes "favicon.ico") :
    ¬ HeadAgrees fs c := by
  intro h
  have hbody := h.no_body hout hwrites
  have hhello : c.http.fileName ≠ bytes "hello" := by
    rw [hicon]
    decide
  rw [analysisResponse, if_neg (by simp [Conn.asks]), if_neg (by exact hhello), if_pos (by exact hicon),
    headLines_head] at hbody
  exact absurd (Option.some.inj hbody) (List.cons_ne_nil _ _)

/-- **`HEAD` agrees with `GET`** just if the request is for a file that can be sent. -/
theorem headAgrees_iff {fs : FileSystem} {c : Conn} (hout : c.http.outBuffer = [])
    (hwrites : WritesSucceed c.sock.writes) : HeadAgrees fs c ↔ NamesSendable fs c.http := by
  by_cases hhello : c.http.fileName = bytes "hello"
  · refine iff_of_false (fun h => headLines_bodies.1 ?_) fun h => h.1 hhello
    rw [← h.no_body hout hwrites, analysisResponse, if_neg (by simp [Conn.asks]), if_pos (by exact hhello)]
  by_cases hfavicon : c.http.fileName = bytes "favicon.ico"
  · exact iff_of_false (not_headAgrees_icon fs hout hwrites hfavicon) fun h => h.2.1 hfavicon
  obtain ⟨flag, hhead, hflag⟩ := responds fs (c := c.asks .head) (by simp [Conn.asks]) hout hwrites
  obtain ⟨flag', hget, hflag'⟩ := responds fs (c := c.asks .get) (by simp [Conn.asks]) hout hwrites
  by_cases hsend : Sendable (fs (cstr c.http.fileName)) .get
  · refine iff_of_true ?_ ⟨hhello, hfavicon, hsend⟩
    obtain rfl : flag = .success := hflag.mpr ⟨hhello, Or.inr ⟨hsend.1, Or.inl rfl⟩⟩
    obtain rfl : flag' = .success := hflag'.mpr ⟨hhello, Or.inr hsend⟩
    have hresponse := fun method (hpost : (c.asks method).http.method ≠ .post) hfile =>
      analysisResponse_head (h := (c.asks method).http) hpost hhello (Or.inr ⟨hsend.1, hfile⟩)
    refine ⟨.success, _, _, okLine :: headFields c.http.headers, responseBody fs (c.asks .get).http,
      hhead, hget, ?_, ?_⟩
    · rw [hresponse .head (by simp [Conn.asks]) (Or.inl rfl), headLines_head, responseBody,
        if_neg (by exact hfavicon), if_pos (by rfl)]
      rfl
    · rw [hresponse .get (by simp [Conn.asks]) hsend.2, headLines_head]
      rfl
  refine iff_of_false (fun h => ?_) fun h => hsend h.2.2
  cases hstat : (fs (cstr c.http.fileName)).stat with
  | none =>
      -- neither finds the file, and both say so in a body
      refine headLines_bodies.2 ?_
      rw [← h.no_body hout hwrites]
      simp [analysisResponse, Conn.asks, hhello, hfavicon, hstat, notFoundMsg]
  | some size =>
      -- only `GET` opens the file
      obtain ⟨flag₀, head, full, lines, body, hhead', hget', -, -⟩ := h
      obtain ⟨rfl, -⟩ := hhead.unique hhead'
      obtain ⟨rfl, -⟩ := hget.unique hget'
      have hok : flag' = .success := hflag.mpr ⟨hhello, Or.inr ⟨Option.isSome_iff_exists.mpr ⟨size, hstat⟩, Or.inl rfl⟩⟩
      exact (hflag'.mp hok).2.elim hfavicon hsend

/-- A file with something in it. -/
theorem headAgrees_iff_file :
    HeadAgrees oneFile (Conn.asks { Conn.fresh 5 with http.fileName := bytes "a" } .get) := by
  apply (headAgrees_iff rfl fun w hw => by cases hw).mpr
  exact ⟨by decide, by decide, by decide, Or.inr ⟨by decide, by decide⟩⟩

/-- `HEAD favicon.ico`. -/
theorem headAgrees_icon_fails :
    ¬ ∀ (fs : FileSystem) (c : Conn), c.http.outBuffer = [] → WritesSucceed c.sock.writes → HeadAgrees fs c := by
  intro hall
  let c : Conn := { Conn.fresh 5 with http.fileName := bytes "favicon.ico" }
  have hwrites : WritesSucceed c.sock.writes := fun w hw => by cases hw
  exact not_headAgrees_icon oneFile rfl hwrites rfl (hall oneFile c rfl hwrites)

end WebServer
