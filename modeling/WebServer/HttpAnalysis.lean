import WebServer.HttpState

/-! The responses: the error response, which `handleError` writes to the socket at once, and
`analysisRequest`, which appends the response to the output buffer. -/

namespace WebServer

def DEFAULT_EVENT : EventMask := EPOLLIN ||| EPOLLET ||| EPOLLONESHOT

def DEFAULT_EXPIRED_TIME : Int := 2000

def DEFAULT_KEEP_ALIVE_TIME : Int := 5 * 60 * 1000

def favicon : Bytes :=
  [137, 80, 78, 71, 13, 10, 26, 10, 0, 0, 0, 13, 73, 72, 68, 82, 0, 0, 0, 16,
   0, 0, 0, 16, 8, 6, 0, 0, 0, 31, 243, 255, 97, 0, 0, 0, 25, 116, 69, 88,
   116, 83, 111, 102, 116, 119, 97, 114, 101, 0, 65, 100, 111, 98, 101, 32, 73, 109, 97, 103,
   101, 82, 101, 97, 100, 121, 113, 201, 101, 60, 0, 0, 1, 205, 73, 68, 65, 84, 120, 218,
   148, 147, 57, 72, 3, 65, 20, 134, 255, 93, 98, 167, 4, 82, 196, 109, 34, 30, 160, 70,
   36, 8, 22, 22, 118, 10, 54, 186, 74, 154, 128, 8, 65, 180, 113, 133, 88, 137, 71, 176,
   73, 169, 81, 36, 205, 166, 8, 164, 72, 99, 145, 66, 11, 175, 86, 193, 70, 180, 21, 207,
   34, 88, 152, 11, 84, 72, 138, 100, 147, 141, 251, 70, 103, 201, 26, 20, 125, 240, 102, 118,
   102, 223, 124, 239, 231, 103, 70, 168, 213, 106, 72, 36, 18, 42, 0, 5, 191, 71, 212, 239,
   247, 47, 54, 236, 18, 32, 30, 143, 215, 170, 213, 234, 175, 73, 53, 70, 170, 84, 95, 159,
   34, 65, 42, 149, 10, 131, 229, 114, 57, 100, 179, 89, 150, 153, 76, 6, 233, 116, 154, 37,
   133, 44, 203, 84, 167, 196, 98, 49, 181, 94, 0, 3, 104, 154, 198, 22, 130, 32, 88, 82,
   20, 69, 54, 83, 148, 203, 101, 120, 189, 94, 170, 85, 84, 35, 76, 192, 224, 226, 193, 143,
   0, 158, 188, 9, 65, 124, 62, 31, 131, 68, 34, 17, 213, 84, 64, 63, 56, 128, 119, 229,
   51, 7, 184, 92, 46, 72, 146, 4, 135, 195, 129, 64, 32, 64, 103, 152, 233, 54, 26, 166,
   103, 21, 4, 227, 215, 200, 189, 21, 225, 105, 183, 67, 171, 234, 120, 47, 106, 88, 146, 187,
   24, 32, 159, 207, 51, 195, 184, 233, 78, 167, 211, 108, 74, 0, 105, 54, 124, 142, 225, 254,
   86, 132, 231, 60, 159, 114, 43, 58, 66, 123, 55, 102, 119, 174, 142, 14, 243, 189, 82, 169,
   100, 2, 66, 175, 133, 50, 102, 70, 186, 12, 217, 159, 29, 154, 108, 34, 230, 199, 58, 44,
   128, 239, 193, 21, 144, 7, 147, 162, 40, 160, 83, 106, 177, 184, 223, 41, 53, 67, 14, 63,
   88, 252, 152, 218, 121, 106, 80, 64, 0, 135, 174, 27, 23, 66, 180, 58, 63, 190, 121, 199,
   10, 38, 182, 238, 217, 154, 96, 20, 147, 219, 143, 13, 10, 46, 233, 35, 149, 41, 88, 0,
   39, 235, 110, 86, 112, 188, 214, 203, 214, 71, 171, 61, 108, 125, 184, 210, 221, 160, 96, 131,
   186, 239, 95, 164, 234, 204, 2, 78, 174, 94, 112, 26, 236, 179, 64, 57, 172, 254, 242, 145,
   137, 103, 145, 133, 33, 168, 135, 183, 88, 126, 126, 133, 187, 205, 78, 78, 98, 116, 64, 250,
   147, 137, 236, 30, 236, 134, 2, 72, 38, 147, 208, 117, 29, 127, 9, 50, 149, 191, 31, 219,
   215, 99, 138, 26, 247, 92, 193, 255, 34, 74, 195, 135, 0, 3, 0, 75, 187, 248, 214, 42,
   118, 152, 73, 0, 0, 0, 0, 73, 69, 78, 68, 174, 66, 96, 130]

/-- The table `MimeType::init` fills. -/
def mime : List (Bytes × Bytes) :=
  [(bytes ".html", bytes "text/html"),
   (bytes ".avi", bytes "video/x-msvideo"),
   (bytes ".bmp", bytes "image/bmp"),
   (bytes ".c", bytes "text/plain"),
   (bytes ".doc", bytes "application/msword"),
   (bytes ".gif", bytes "image/gif"),
   (bytes ".gz", bytes "application/x-gzip"),
   (bytes ".htm", bytes "text/html"),
   (bytes ".ico", bytes "image/x-icon"),
   (bytes ".jpg", bytes "image/jpeg"),
   (bytes ".png", bytes "image/png"),
   (bytes ".txt", bytes "text/plain"),
   (bytes ".mp3", bytes "audio/mp3"),
   (bytes "default", bytes "text/html")]

/-- `MimeType::getMime`. -/
def getMime (suffix : Bytes) : Bytes :=
  match HeaderMap.find mime suffix with
  | some type => type
  | none => (HeaderMap.find mime (bytes "default")).getD []

/-- `short_msg` with the space `handleError` puts before it, after the status. -/
def errorStatus (errNum : Nat) (shortMsg : Bytes) : Bytes :=
  stdToString errNum ++ (bytes " " ++ shortMsg)

def errorBody (errNum : Nat) (shortMsg : Bytes) : Bytes :=
  bytes "<html><titl>出错了</title>" ++ bytes "<body bgcolor=\"ffffff\">" ++
    errorStatus errNum shortMsg ++ bytes "<hr><em> QinLiang web Server</em>\n</body></html>"

def errorHeader (errNum : Nat) (shortMsg : Bytes) : Bytes :=
  bytes "HTTP/1.1" ++ errorStatus errNum shortMsg ++ bytes "\r\n" ++
    bytes "Content-type: text/html\r\n" ++ bytes "Connection: Close\r\n" ++
    (bytes "Content-Length: " ++ stdToString (errorBody errNum shortMsg).length ++ bytes "\r\n") ++
    bytes "Server: QinLiang web Server\r\n" ++ bytes "\r\n"

/-- `sprintf` of a string into `send_buff` and `writen` of what `strlen` finds there. -/
def sendBuff (c : Conn) (s : Bytes) : Except Fault Conn :=
  if (cstr s).length < 4096 then .ok { c with sock := writenBuff c.sock (cstr s) }
  else .error .overflow

/-- `HttpData::handleError`. -/
def handleError (c : Conn) (errNum : Nat) (shortMsg : Bytes) : Except Fault Conn := do
  let c ← sendBuff (c.call (.handleError errNum shortMsg)) (errorHeader errNum shortMsg)
  sendBuff c (errorBody errNum shortMsg)

/-- A message that leaves room for the rest of the response in `send_buff`. -/
structure ShortMsg (errNum : Nat) (shortMsg : Bytes) : Prop where
  header : (errorHeader errNum shortMsg).length < 4096
  body : (errorBody errNum shortMsg).length < 4096

theorem cstr_length_le (s : Bytes) : (cstr s).length ≤ s.length := (List.takeWhile_sublist _).length_le

theorem sendBuff_ok {c : Conn} {s : Bytes} (h : s.length < 4096) :
    sendBuff c s = .ok { c with sock := writenBuff c.sock (cstr s) } :=
  if_pos (lt_of_le_of_lt (cstr_length_le s) h)

/-- What an error response does to the connection: it is recorded, and goes to the socket. -/
theorem handleError_ok {c : Conn} {errNum : Nat} {shortMsg : Bytes} (h : ShortMsg errNum shortMsg) :
    handleError c errNum shortMsg = .ok { c with
      sock := writenBuff (writenBuff c.sock (cstr (errorHeader errNum shortMsg)))
        (cstr (errorBody errNum shortMsg)),
      calls := c.calls ++ [.handleError errNum shortMsg] } := by
  simp only [handleError, sendBuff_ok h.header, bind, Except.bind, sendBuff_ok h.body, Conn.call]

set_option maxRecDepth 2000 in
theorem shortMsg_notFount : ShortMsg 404 (bytes "Not Fount!") := ⟨by decide, by decide⟩

set_option maxRecDepth 2000 in
theorem shortMsg_notFound : ShortMsg 404 (bytes "Not Found!") := ⟨by decide, by decide⟩

def serverLines : Bytes := bytes "Server: QinLiang web Server\r\n" ++ bytes "\r\n"

/-- The header lines of the two successful responses after the connection lines. The type and the
length are those of the icon in both. -/
def contentLines : Bytes :=
  bytes "Content-Type: image/png\r\n" ++
    (bytes "Content-Length: " ++ stdToString favicon.length ++ bytes "\r\n") ++ serverLines

def keepAliveLines : Bytes :=
  bytes "Connection: Keep-Alive" ++ bytes "Keep-Alive: timeout=" ++
    stdToString DEFAULT_KEEP_ALIVE_TIME.toNat ++ bytes "\r\n"

/-- Whether the request asks for the connection to be kept, in one of the two spellings. -/
def wantsKeepAlive (headers : HeaderMap) : Bool :=
  match headers.find (bytes "Connection") with
  | some value => value == bytes "Keep-Alive" || value == bytes "Keep-alive"
  | none => false

def responseHead (headers : HeaderMap) : Bytes :=
  bytes "HTTP/1.1 200 OK\r\n" ++ if wantsKeepAlive headers then keepAliveLines else []

/-- The local `filetype`, which nothing reads. -/
def filetype (fileName : Bytes) : Bytes :=
  let dotPos := toInt (find fileName dot 0)
  if dotPos < 0 then getMime (bytes "default") else getMime (fileName.drop dotPos.toNat)

/-- `HttpData::analysisRequest`. -/
def analysisRequest (fs : FileSystem) (c : Conn) : Except Fault (AnalysisState × Conn) :=
  match c.http.method with
  | .post => .ok (.error, c)
  | _ =>
      let c :=
        if wantsKeepAlive c.http.headers then { c with http.keepAlive := true } else c
      let _filetype := filetype c.http.fileName
      if c.http.fileName = bytes "hello" then
        .ok (.error, { c with
          http.outBuffer := bytes "HTTP/1.1 200 OK\r\nContent-type: text/plain\r\n\r\nHello World" })
      else if c.http.fileName = bytes "favicon.ico" then
        .ok (.success, { c with
          http.outBuffer := c.http.outBuffer ++ (responseHead c.http.headers ++ contentLines) ++ favicon })
      else
        let file := fs (cstr c.http.fileName)
        match file.stat with
        | none => do
            let c ← handleError c 404 (bytes "Not Fount!")
            return (.error, c)
        | some _ =>
            let c := { c with
              http.outBuffer := c.http.outBuffer ++ (responseHead c.http.headers ++ contentLines) }
            if c.http.method = .head then .ok (.success, c)
            else if file.opens then
              match file.mmap with
              | some content =>
                  .ok (.success, { c with http.outBuffer := c.http.outBuffer ++ content })
              | none => do
                  let c ← handleError { c with http.outBuffer := [] } 404 (bytes "Not Found!")
                  return (.error, c)
            else do
              let c ← handleError { c with http.outBuffer := [] } 404 (bytes "Not Found!")
              return (.error, c)

def helloResponse : Bytes := bytes "HTTP/1.1 200 OK\r\nContent-type: text/plain\r\n\r\nHello World"

/-- The error response, as `handleError` finds it in `send_buff`. -/
def errorReply (errNum : Nat) (shortMsg : Bytes) : Bytes :=
  cstr (errorHeader errNum shortMsg) ++ cstr (errorBody errNum shortMsg)

/-- The message for a file that cannot be sent. -/
def notFoundMsg (file : FileState) : Bytes :=
  if file.stat.isSome then bytes "Not Found!" else bytes "Not Fount!"

/-- The response to a request that was analysed. There is none to a `POST` request. -/
def analysisResponse (fs : FileSystem) (h : HttpData) : Bytes :=
  if h.method = .post then []
  else if h.fileName = bytes "hello" then helloResponse
  else if h.fileName = bytes "favicon.ico" then responseHead h.headers ++ contentLines ++ favicon
  else
    let file := fs (cstr h.fileName)
    match file.stat with
    | none => errorReply 404 (notFoundMsg file)
    | some _ =>
        if h.method = .head then responseHead h.headers ++ contentLines
        else if file.opens then
          match file.mmap with
          | some content => responseHead h.headers ++ contentLines ++ content
          | none => errorReply 404 (notFoundMsg file)
        else errorReply 404 (notFoundMsg file)

/-- The file can be sent as the method asks for it. -/
def Sendable (file : FileState) (method : HttpMethod) : Prop :=
  file.stat.isSome ∧ (method = .head ∨ (file.opens ∧ file.mmap.isSome))

/-- The connection after its request was answered from the buffer. -/
def answered (c : Conn) (keepAlive : Bool) (outBuffer : Bytes) : Conn :=
  { c with http := { c.http with keepAlive := keepAlive, outBuffer := outBuffer } }

/-- The connection after `handleError` has answered. -/
def refused (c : Conn) (errNum : Nat) (shortMsg : Bytes) : Conn := { c with
  sock := writenBuff (writenBuff c.sock (cstr (errorHeader errNum shortMsg)))
    (cstr (errorBody errNum shortMsg))
  calls := c.calls ++ [.handleError errNum shortMsg] }

/-- What `analysisRequest` does at its end, where the name is that of a file. -/
def answerFile (file : FileState) (c : Conn) : Except Fault (AnalysisState × Conn) :=
  match file.stat with
  | none => do
      let c ← handleError c 404 (bytes "Not Fount!")
      return (.error, c)
  | some _ =>
      let c := { c with
        http.outBuffer := c.http.outBuffer ++ (responseHead c.http.headers ++ contentLines) }
      if c.http.method = .head then .ok (.success, c)
      else if file.opens then
        match file.mmap with
        | some content => .ok (.success, { c with http.outBuffer := c.http.outBuffer ++ content })
        | none => do
            let c ← handleError { c with http.outBuffer := [] } 404 (bytes "Not Found!")
            return (.error, c)
      else do
        let c ← handleError { c with http.outBuffer := [] } 404 (bytes "Not Found!")
        return (.error, c)

/-- `m_keepAlive` after the header lines were looked at. Nothing clears it. -/
def keepsAlive (h : HttpData) : Bool := wantsKeepAlive h.headers || h.keepAlive

/-- Before that the header lines change nothing but `m_keepAlive`, and two names are not those of files. -/
theorem analysisRequest_named (fs : FileSystem) {c : Conn} (hpost : c.http.method ≠ .post) :
    analysisRequest fs c =
      if c.http.fileName = bytes "hello" then .ok (.error, answered c (keepsAlive c.http) helloResponse)
      else if c.http.fileName = bytes "favicon.ico" then .ok (.success, answered c (keepsAlive c.http)
        (c.http.outBuffer ++ (responseHead c.http.headers ++ contentLines) ++ favicon))
      else answerFile (fs (cstr c.http.fileName)) (answered c (keepsAlive c.http) c.http.outBuffer) := by
  have hkeeps : (if wantsKeepAlive c.http.headers then { c with http.keepAlive := true } else c) =
      { c with http.keepAlive := keepsAlive c.http } := by
    unfold keepsAlive
    cases wantsKeepAlive c.http.headers <;> rfl
  have hrequest := analysisRequest.eq_def fs c
  split at hrequest
  · contradiction
  simp only [hkeeps] at hrequest
  exact hrequest

/-- A file that can be sent is appended to the buffer. -/
theorem answerFile_sendable {fs : FileSystem} {c : Conn} (hpost : c.http.method ≠ .post)
    (hhello : c.http.fileName ≠ bytes "hello") (hfavicon : c.http.fileName ≠ bytes "favicon.ico")
    (hsend : Sendable (fs (cstr c.http.fileName)) c.http.method) :
    answerFile (fs (cstr c.http.fileName)) c =
      .ok (.success, answered c c.http.keepAlive (c.http.outBuffer ++ analysisResponse fs c.http)) := by
  obtain ⟨hstat, hfile⟩ := hsend
  obtain ⟨size, hsize⟩ := Option.isSome_iff_exists.mp hstat
  simp only [answerFile, analysisResponse, if_neg hpost, if_neg hhello, if_neg hfavicon, hsize]
  by_cases hhead : c.http.method = .head
  · rw [if_pos hhead, if_pos hhead]
    rfl
  · obtain ⟨hopens, hmmap⟩ := hfile.resolve_left hhead
    obtain ⟨content, hcontent⟩ := Option.isSome_iff_exists.mp hmmap
    simp only [if_neg hhead, if_pos hopens, hcontent, ← List.append_assoc]
    rfl

/-- What an error response for the file leaves in the buffer. -/
def keptBuffer (file : FileState) (outBuffer : Bytes) : Bytes := if file.stat.isSome then [] else outBuffer

/-- A file that cannot be sent is answered with an error response. -/
theorem answerFile_unsendable {fs : FileSystem} {c : Conn} (hpost : c.http.method ≠ .post)
    (hhello : c.http.fileName ≠ bytes "hello") (hfavicon : c.http.fileName ≠ bytes "favicon.ico")
    (hsend : ¬ Sendable (fs (cstr c.http.fileName)) c.http.method) :
    analysisResponse fs c.http = errorReply 404 (notFoundMsg (fs (cstr c.http.fileName))) ∧
      answerFile (fs (cstr c.http.fileName)) c = .ok (.error,
        refused (answered c c.http.keepAlive (keptBuffer (fs (cstr c.http.fileName)) c.http.outBuffer)) 404
          (notFoundMsg (fs (cstr c.http.fileName)))) := by
  simp only [answerFile, analysisResponse, if_neg hpost, if_neg hhello, if_neg hfavicon, keptBuffer]
  cases hstat : (fs (cstr c.http.fileName)).stat with
  | none =>
      have hmsg : notFoundMsg (fs (cstr c.http.fileName)) = bytes "Not Fount!" := by
        simp [notFoundMsg, hstat]
      simp only [handleError_ok shortMsg_notFount, hmsg]
      exact ⟨trivial, rfl⟩
  | some size =>
      have hmsg : notFoundMsg (fs (cstr c.http.fileName)) = bytes "Not Found!" := by
        simp [notFoundMsg, hstat]
      have hhead : c.http.method ≠ .head := fun hhead => hsend ⟨by rw [hstat]; rfl, Or.inl hhead⟩
      simp only [if_neg hhead, handleError_ok shortMsg_notFound, hmsg]
      by_cases hopens : (fs (cstr c.http.fileName)).opens
      · cases hmmap : (fs (cstr c.http.fileName)).mmap with
        | none =>
            rw [if_pos hopens, if_pos hopens]
            exact ⟨rfl, rfl⟩
        | some content =>
            exact absurd ⟨by rw [hstat]; rfl, Or.inr ⟨hopens, by rw [hmmap]; rfl⟩⟩ hsend
      · rw [if_neg hopens, if_neg hopens]
        exact ⟨rfl, rfl⟩

/-- The four ways in which `analysisRequest` ends, with all that it changes: without a response, with the
buffer replaced, with the response appended to it, and with an error response. -/
theorem analysisRequest_results (fs : FileSystem) (c : Conn) :
    (c.http.method = .post ∧ analysisRequest fs c = .ok (.error, c)) ∨
    (c.http.method ≠ .post ∧ c.http.fileName = bytes "hello" ∧
      analysisRequest fs c = .ok (.error, answered c (keepsAlive c.http) helloResponse)) ∨
    (c.http.method ≠ .post ∧ c.http.fileName ≠ bytes "hello" ∧
      (c.http.fileName = bytes "favicon.ico" ∨ Sendable (fs (cstr c.http.fileName)) c.http.method) ∧
      analysisRequest fs c = .ok (.success,
        answered c (keepsAlive c.http) (c.http.outBuffer ++ analysisResponse fs c.http))) ∨
    (c.http.method ≠ .post ∧ c.http.fileName ≠ bytes "hello" ∧ c.http.fileName ≠ bytes "favicon.ico" ∧
      ¬ Sendable (fs (cstr c.http.fileName)) c.http.method ∧
      analysisResponse fs c.http = errorReply 404 (notFoundMsg (fs (cstr c.http.fileName))) ∧
      analysisRequest fs c = .ok (.error, refused
        (answered c (keepsAlive c.http) (keptBuffer (fs (cstr c.http.fileName)) c.http.outBuffer)) 404
        (notFoundMsg (fs (cstr c.http.fileName))))) := by
  by_cases hpost : c.http.method = .post
  · exact Or.inl ⟨hpost, by rw [analysisRequest, hpost]⟩
  apply Or.inr
  have hnamed := analysisRequest_named fs hpost
  by_cases hhello : c.http.fileName = bytes "hello"
  · rw [if_pos hhello] at hnamed
    exact Or.inl ⟨hpost, hhello, hnamed⟩
  rw [if_neg hhello] at hnamed
  apply Or.inr
  by_cases hfavicon : c.http.fileName = bytes "favicon.ico"
  · rw [if_pos hfavicon] at hnamed
    refine Or.inl ⟨hpost, hhello, Or.inl hfavicon, ?_⟩
    rw [analysisResponse, if_neg hpost, if_neg hhello, if_pos hfavicon, ← List.append_assoc]
    exact hnamed
  rw [if_neg hfavicon] at hnamed
  by_cases hsend : Sendable (fs (cstr c.http.fileName)) c.http.method
  · have hanswer := answerFile_sendable (c := answered c (keepsAlive c.http) c.http.outBuffer) hpost hhello
      hfavicon hsend
    exact Or.inl ⟨hpost, hhello, Or.inr hsend, hnamed.trans hanswer⟩
  · obtain ⟨hresponse, hanswer⟩ := answerFile_unsendable
      (c := answered c (keepsAlive c.http) c.http.outBuffer) hpost hhello hfavicon hsend
    exact Or.inr ⟨hpost, hhello, hfavicon, hsend, hresponse, hnamed.trans hanswer⟩

end WebServer
