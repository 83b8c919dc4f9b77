import WebServer.HttpMessage
import WebServer.HttpWireOrder

/-! The responses read as HTTP/1.1 messages. The responses of `analysisRequest` are lines, but for a
request that keeps the connection two fields stand on one; the status line of `handleError` has no space
after the protocol. -/

namespace WebServer

open HttpMessage

/-- The lines after the status line. -/
def headFields (headers : HeaderMap) : List Bytes :=
  (if wantsKeepAlive headers then [bytes "Connection: Keep-AliveKeep-Alive: timeout=300000"] else []) ++
    [bytes "Content-Type: image/png", bytes "Content-Length: 555", bytes "Server: QinLiang web Server"]

def okLine : Bytes := bytes "HTTP/1.1 200 OK"

set_option maxRecDepth 4000 in
theorem head_eq (headers : HeaderMap) :
    responseHead headers ++ contentLines = renderLines (okLine :: headFields headers) := by
  unfold responseHead headFields
  cases wantsKeepAlive headers <;> decide

theorem headFields_lines (headers : HeaderMap) :
    ∀ line ∈ okLine :: headFields headers, line ≠ [] ∧ OneLine line := by
  unfold headFields
  cases wantsKeepAlive headers <;> decide

def okFields : List (Bytes × Bytes) :=
  [(bytes "Content-Type", bytes "image/png"), (bytes "Content-Length", bytes "555"),
    (bytes "Server", bytes "QinLiang web Server")]

/-- The response to a request that does not keep the connection. -/
def okResponse (body : Bytes) : Response := ⟨bytes "200", bytes "OK", okFields, body⟩

def helloMessage : Response :=
  ⟨bytes "200", bytes "OK", [(bytes "Content-type", bytes "text/plain")], bytes "Hello World"⟩

theorem okResponse_valid (body : Bytes) : (okResponse body).Valid where
  status := ⟨50, 48, 48, rfl, by decide, by decide, by decide⟩
  reason := show OneLine (bytes "OK") by decide
  names := show ∀ f ∈ okFields, f.1 ≠ [] ∧ 58 ∉ f.1 ∧ OneLine f.1 by decide
  values := show ∀ f ∈ okFields, splitField f.2 = none ∧ OneLine f.2 by decide

theorem helloMessage_valid : helloMessage.Valid where
  status := ⟨50, 48, 48, by decide, by decide, by decide, by decide⟩
  reason := by decide
  names := by decide
  values := by decide

theorem parse_hello : parse helloResponse = some helloMessage := by
  rw [show helloResponse = helloMessage.render by decide]
  exact parse_render helloMessage_valid

/-- A head is that of one message, unless it keeps the connection. -/
theorem parse_head_isSome_iff (headers : HeaderMap) (body : Bytes) :
    (parse (responseHead headers ++ contentLines ++ body)).isSome ↔ wantsKeepAlive headers = false := by
  have hlines := headFields_lines headers
  rw [head_eq]
  unfold headFields at hlines ⊢
  revert hlines
  cases wantsKeepAlive headers with
  | false =>
      intro _
      have hrender : renderLines (okLine :: ([] ++ [bytes "Content-Type: image/png",
          bytes "Content-Length: 555", bytes "Server: QinLiang web Server"])) ++ body =
            (okResponse body).render := by
        rw [Response.render]
        congr 1
      simp only [Bool.false_eq_true, if_false]
      rw [hrender, parse_render (okResponse_valid body)]
      simp
  | true =>
      intro hlines
      -- two fields on one line
      have hfields : ([bytes "Connection: Keep-AliveKeep-Alive: timeout=300000"] ++
          [bytes "Content-Type: image/png", bytes "Content-Length: 555",
            bytes "Server: QinLiang web Server"]).mapM field = none := by decide
      simp only [if_true] at hlines ⊢
      rw [parse_renderLines hlines, hfields]
      simp

/-- A status line that has no space after the protocol. -/
theorem parse_errorReply (errNum : Nat) (shortMsg : Bytes) : parse (errorReply errNum shortMsg) = none := by
  obtain ⟨d, ds, hstring, hd⟩ := stdToString_cons errNum
  have hzero : d ≠ 0 := by
    rintro rfl
    exact absurd hd (by decide)
  have hspace : (32 : Byte) ≠ d := by
    rintro rfl
    exact absurd hd (by decide)
  -- the digit comes where the protocol has its space
  obtain ⟨rest, hheader⟩ : ∃ rest, cstr (errorHeader errNum shortMsg) = bytes "HTTP/1.1" ++ d :: rest := by
    simp only [errorHeader, errorStatus, hstring, List.append_assoc, List.cons_append]
    rw [cstr, List.takeWhile_append_of_pos (by decide +kernel), List.takeWhile_cons_of_pos (by simpa using hzero)]
    exact ⟨_, rfl⟩
  cases hparse : parse (errorReply errNum shortMsg) with
  | none => rfl
  | some r =>
      have hprefix := protocol_of_parse hparse
      rw [errorReply, hheader, show protocol = bytes "HTTP/1.1" ++ [32] by decide, List.append_assoc,
        List.prefix_append_right_inj, List.cons_append, List.cons_prefix_cons] at hprefix
      exact absurd hprefix.1 hspace

/-- Who makes a response, and from what. -/
inductive Producer where
  | analysisRequest (fs : FileSystem) (c : Conn)
  | handleError (errNum : Nat) (shortMsg : Bytes)

/-- The response made: what `analysisRequest` puts behind the output buffer, or in its place, and what
`handleError` sends where `write` takes all. -/
def Producer.Produces : Producer → Bytes → Prop
  | .analysisRequest fs c, response =>
      c.http.method ≠ .post ∧
        ∃ flag d, WebServer.analysisRequest fs c = .ok (flag, d) ∧ d.calls = c.calls ∧
          if flag = .success then d.http.outBuffer = c.http.outBuffer ++ response
          else d.http.outBuffer = response
  | .handleError errNum shortMsg, response =>
      100 ≤ errNum ∧ errNum ≤ 999 ∧ OneLine shortMsg ∧ ShortMsg errNum shortMsg ∧
        ∃ c d, c.sock.writes = [] ∧ WebServer.handleError c errNum shortMsg = .ok d ∧
          d.sock.sent = c.sock.sent ++ response

/-- The request is for `hello`, or does not ask for the connection to be kept. -/
def Producer.Separates : Producer → Prop
  | .analysisRequest _ c => c.http.fileName = bytes "hello" ∨ wantsKeepAlive c.http.headers = false
  | .handleError _ _ => False

/-- What is sent behind the head: the icon, the file, or nothing. -/
def responseBody (fs : FileSystem) (h : HttpData) : Bytes :=
  if h.fileName = bytes "favicon.ico" then favicon
  else if h.method = .head then []
  else (fs (cstr h.fileName)).mmap.getD []

/-- The icon or a file is sent behind its head. -/
theorem analysisResponse_head {fs : FileSystem} {h : HttpData} (hpost : h.method ≠ .post)
    (hhello : h.fileName ≠ bytes "hello")
    (hsend : h.fileName = bytes "favicon.ico" ∨ Sendable (fs (cstr h.fileName)) h.method) :
    analysisResponse fs h = responseHead h.headers ++ contentLines ++ responseBody fs h := by
  rw [analysisResponse, if_neg hpost, if_neg hhello, responseBody]
  by_cases hfavicon : h.fileName = bytes "favicon.ico"
  · rw [if_pos hfavicon, if_pos hfavicon]
  · rw [if_neg hfavicon, if_neg hfavicon]
    obtain ⟨hstat, hfile⟩ := hsend.resolve_left hfavicon
    obtain ⟨size, hsize⟩ := Option.isSome_iff_exists.mp hstat
    simp only [hsize]
    by_cases hhead : h.method = .head
    · rw [if_pos hhead, if_pos hhead, List.append_nil]
    · obtain ⟨hopens, hmmap⟩ := hfile.resolve_left hhead
      obtain ⟨content, hcontent⟩ := Option.isSome_iff_exists.mp hmmap
      simp only [if_neg hhead, if_pos hopens, hcontent, Option.getD_some]

/-- **One well-formed message**: a response is accepted by the parser of HTTP/1.1 messages if and only if
it is for `hello`, or for a file or the icon and the connection is not to be kept. -/
theorem response_accepted_iff {p : Producer} {response : Bytes} (h : p.Produces response) :
    (parse response).isSome ↔ p.Separates := by
  cases p with
  | analysisRequest fs c =>
      obtain ⟨hmethod, flag, d, hrun, hcalls, hout⟩ := h
      rcases analysisRequest_results fs c with ⟨hpost, -⟩ | ⟨-, hhello, hd⟩ | ⟨-, hhello, hsend, hd⟩ |
        ⟨-, -, -, -, -, hd⟩
      · exact absurd hpost hmethod
      · cases hd.symm.trans hrun
        rw [if_neg (by decide)] at hout
        refine iff_of_true ?_ (Or.inl hhello)
        rw [← hout, answered, parse_hello]
        rfl
      · cases hd.symm.trans hrun
        rw [if_pos rfl] at hout
        have hresponse : response = analysisResponse fs c.http := (List.append_cancel_left hout).symm
        rw [hresponse, analysisResponse_head hmethod hhello hsend, parse_head_isSome_iff]
        exact (or_iff_right hhello).symm
      · cases hd.symm.trans hrun
        simp [refused, answered] at hcalls
  | handleError errNum shortMsg =>
      -- the status line lacks a space
      obtain ⟨-, -, -, hshort, c, d, hwrites, hrun, hsent⟩ := h
      rw [handleError_ok hshort] at hrun
      cases hrun
      have hresponse : response = errorReply errNum shortMsg := by
        have hsame : c.sock.sent ++ response = c.sock.sent ++ errorReply errNum shortMsg := by
          rw [← hsent, errorReply]
          simp [writenBuff, hwrites]
        exact List.append_cancel_left hsame
      rw [hresponse, parse_errorReply]
      exact iff_of_false Bool.false_ne_true id

/-- The icon, on a connection that is not to be kept. -/
theorem response_accepted_icon : (parse (responseHead [] ++ contentLines ++ favicon)).isSome := by
  let c : Conn := { Conn.fresh 5 with http.fileName := bytes "favicon.ico" }
  exact (response_accepted_iff (p := .analysisRequest (fun _ => .missing) c)
    ⟨by decide, .success, _, rfl, rfl, rfl⟩).mpr (Or.inr rfl)

/-- `HTTP/1.1404 Not Found!`. -/
theorem response_refused_error :
    ¬ ∀ (p : Producer) (response : Bytes), p.Produces response → (parse response).isSome := by
  intro haccepted
  have hproduced : (Producer.handleError 404 (bytes "Not Found!")).Produces
      (errorReply 404 (bytes "Not Found!")) := by
    refine ⟨by decide, by decide, by decide, shortMsg_notFound, Conn.fresh 5, _, rfl,
      handleError_ok shortMsg_notFound, ?_⟩
    simp [writenBuff, errorReply, Conn.fresh]
  have hsome := haccepted _ _ hproduced
  rw [parse_errorReply] at hsome
  cases hsome

/-- A name from its last dot on. -/
def lastSuffix : Bytes → Option Bytes
  | [] => none
  | b :: name => (lastSuffix name).or (if b = dot then some (b :: name) else none)

/-- The type of a file: that of the suffix after the last dot, or the default type. -/
def mimeType (fileName : Bytes) : Bytes := getMime ((lastSuffix fileName).getD (bytes "default"))

/-- The response put into the buffer is the head of a success, with the length and the type of the file,
and then the file. -/
def CarriesFile (c d : Conn) (content : Bytes) : Prop :=
  ∃ head first lines, d.http.outBuffer = c.http.outBuffer ++ (head ++ content) ∧
    headLines [] head = some (first :: lines, []) ∧
    (statusLine first).map Prod.fst = some (bytes "200") ∧
    fieldValue lines (bytes "Content-Length") = some (stdToString content.length) ∧
    fieldValue lines (bytes "Content-Type") = some (mimeType c.http.fileName)

theorem getMime_png_iff (suffix : Bytes) : getMime suffix = bytes "image/png" ↔ suffix = bytes ".png" := by
  constructor
  · intro h
    unfold getMime at h
    split at h
    · rename_i type hfind
      obtain ⟨entry, hentry, rfl⟩ := Option.map_eq_some_iff.mp hfind
      have hkey : entry.1 = suffix := by simpa using List.find?_some hentry
      have hone : ∀ e ∈ mime, e.2 = bytes "image/png" → e.1 = bytes ".png" := by decide
      exact hkey ▸ hone entry (List.mem_of_find?_eq_some hentry) h
    · exact absurd h (by decide)
  · rintro rfl
    decide

theorem mimeType_png_iff (fileName : Bytes) :
    mimeType fileName = bytes "image/png" ↔ lastSuffix fileName = some (bytes ".png") := by
  rw [mimeType, getMime_png_iff]
  cases lastSuffix fileName with
  | none => exact iff_of_false (by decide) (by simp)
  | some suffix => simp

set_option maxRecDepth 4000 in
theorem favicon_length : favicon.length = 555 := rfl

/-- What a head says of the file. -/
theorem headFields_values (headers : HeaderMap) :
    fieldValue (headFields headers) (bytes "Content-Length") = some (bytes "555") ∧
      fieldValue (headFields headers) (bytes "Content-Type") = some (bytes "image/png") := by
  unfold headFields
  cases wantsKeepAlive headers <;> decide

/-- The head that `analysisRequest` puts before a file is right for a file like the icon. -/
theorem carriesFile_iff {c d : Conn} {content : Bytes}
    (hout : d.http.outBuffer =
      c.http.outBuffer ++ (responseHead c.http.headers ++ contentLines ++ content)) :
    CarriesFile c d content ↔
      content.length = favicon.length ∧ lastSuffix c.http.fileName = some (bytes ".png") := by
  have hlines := headLines_render
    (fun line hline => ⟨(headFields_lines c.http.headers line hline).1,
      (headFields_lines c.http.headers line hline).2.1⟩) []
  rw [List.append_nil, ← head_eq] at hlines
  obtain ⟨hlength, htype⟩ := headFields_values c.http.headers
  rw [← mimeType_png_iff]
  constructor
  · rintro ⟨head, first, lines, hout', hhead, -, hlength', htype'⟩
    obtain rfl : head = responseHead c.http.headers ++ contentLines :=
      List.append_cancel_right (List.append_cancel_left (hout'.symm.trans hout))
    rw [hlines] at hhead
    cases hhead
    have hicon : bytes "555" = stdToString favicon.length := by
      rw [favicon_length]
      decide
    rw [hlength, Option.some.injEq, hicon] at hlength'
    rw [htype, Option.some.injEq] at htype'
    exact ⟨(stdToString_injective hlength').symm, htype'.symm⟩
  · rintro ⟨hsame, hpng⟩
    refine ⟨_, _, _, hout, hlines, by decide, ?_, ?_⟩
    · rw [hlength, hsame, favicon_length]
      decide
    · rw [htype, hpng]

/-- **A `GET` response carries the file**, with its length and its type, if and only if the file is a
`.png` file as long as the icon. -/
theorem get_carries_file_iff {fs : FileSystem} {c : Conn} {content : Bytes} (hget : c.http.method = .get)
    (hhello : c.http.fileName ≠ bytes "hello") (hfavicon : c.http.fileName ≠ bytes "favicon.ico")
    (hfile : fs (cstr c.http.fileName) = .regular content) :
    (∃ d, analysisRequest fs c = .ok (.success, d) ∧ CarriesFile c d content) ↔
      content.length = favicon.length ∧ lastSuffix c.http.fileName = some (bytes ".png") := by
  have hpost : c.http.method ≠ .post := by
    rw [hget]
    decide
  rcases analysisRequest_results fs c with h | h | ⟨-, -, hsend, hd⟩ | ⟨-, -, -, hsend, -, hd⟩
  · exact absurd h.1 hpost
  · exact absurd h.2.1 hhello
  · have hmmap : (fs (cstr c.http.fileName)).mmap = some content := by
      have hsome := ((hsend.resolve_left hfavicon).2.resolve_left (by rw [hget]; decide)).2
      rw [hfile] at hsome ⊢
      by_cases hempty : content = []
      · simp [FileState.mmap, hempty] at hsome
      · exact if_neg hempty
    have hresponse : analysisResponse fs c.http = responseHead c.http.headers ++ contentLines ++ content := by
      rw [analysisResponse, if_neg hpost, if_neg hhello, if_neg hfavicon]
      rw [hfile] at hmmap
      simp [hfile, hget, hmmap, FileState.stat, FileState.opens]
    have hout : (answered c (keepsAlive c.http) (c.http.outBuffer ++ analysisResponse fs c.http)).http.outBuffer =
        c.http.outBuffer ++ (responseHead c.http.headers ++ contentLines ++ content) := by
      rw [← hresponse]
      rfl
    rw [← carriesFile_iff hout, hd]
    constructor
    · rintro ⟨d, hrun, hd'⟩
      cases hrun
      exact hd'
    · exact fun hd' => ⟨_, rfl, hd'⟩
  · -- an empty file is not mapped
    refine iff_of_false ?_ ?_
    · rintro ⟨d, hrun, -⟩
      rw [hd] at hrun
      cases hrun
    · rintro ⟨hlength, -⟩
      refine hsend ⟨by rw [hfile]; rfl, Or.inr ⟨by rw [hfile]; rfl, ?_⟩⟩
      have hne : content ≠ [] := by
        rintro rfl
        rw [favicon_length] at hlength
        cases hlength
      rw [hfile, FileState.mmap, if_neg hne]
      rfl

/-- A copy of the icon, under a name with two dots. -/
theorem get_carries_icon :
    ∃ c d, analysisRequest (fun _ => .regular favicon) c = .ok (.success, d) ∧ CarriesFile c d favicon := by
  let c : Conn := { Conn.fresh 5 with http.fileName := bytes "a.b.png" }
  have hcarries : (∃ d, analysisRequest (fun _ => .regular favicon) c = .ok (.success, d) ∧
      CarriesFile c d favicon) ↔ _ := get_carries_file_iff (c := c) rfl (by decide) (by decide) rfl
  exact ⟨c, hcarries.mpr ⟨rfl, by decide⟩⟩

/-- A text of one byte. -/
theorem get_carries_text :
    ¬ ∀ (fs : FileSystem) (c : Conn) (content : Bytes), c.http.method = .get →
      c.http.fileName ≠ bytes "hello" → c.http.fileName ≠ bytes "favicon.ico" →
      fs (cstr c.http.fileName) = .regular content →
        ∃ d, analysisRequest fs c = .ok (.success, d) ∧ CarriesFile c d content := by
  intro hcarries
  let c : Conn := { Conn.fresh 5 with http.fileName := bytes "a.txt" }
  obtain ⟨d, hrun, hd⟩ := hcarries (fun _ => .regular (bytes "x")) c (bytes "x") rfl (by decide) (by decide) rfl
  have hrun' : analysisRequest (fun _ => .regular (bytes "x")) c = .ok (.success,
      answered c false (responseHead [] ++ contentLines ++ bytes "x")) := rfl
  cases hrun'.symm.trans hrun
  have hlength := ((carriesFile_iff rfl).mp hd).1
  rw [favicon_length] at hlength
  exact absurd hlength (by decide)

end WebServer
