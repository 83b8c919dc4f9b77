import WebServer.HttpHeaderCodec
import WebServer.HttpUnanswered

/-! Well-formed requests, what it means to serve them, and that `handleRead` serves none. -/

namespace WebServer

/-- A request with a target that `parseURI` can tell from the rest of the line. -/
structure Request where
  method : HttpMethod
  target : Bytes
  version : HttpVersion
  headers : List HeaderLine
  method_served : method ≠ .post
  target_plain : ∀ b ∈ target, b ≠ space ∧ b ≠ cr ∧ b ≠ question
  target_file : target ≠ bytes "hello"

/-- The request as it is sent. -/
def Request.render (r : Request) : Bytes :=
  r.method.render ++ [space, slash] ++ r.target ++ [space] ++ r.version.render ++ [cr, lf] ++
    encodeHeaders r.headers

/-- The target is a readable file with something in it. -/
def Request.NamesFile (fs : FileSystem) (r : Request) : Prop :=
  ∃ content, fs (cstr r.target) = .regular content ∧ content ≠ []

/-- The peer sends `s`, and then nothing for now. -/
def Conn.receives (c : Conn) (s : Bytes) : Conn := { c with sock.reads := deliver s }

/-- A response that reports success. -/
def SuccessResponse (response : Bytes) : Prop := bytes "HTTP/1.1 200 OK\r\n" <+: response

/-- The requests are served: without an error, with one success response for each request, in their
order, and with no input left. -/
def Served (reqs : List Request) (result : Except Fault Conn) : Prop :=
  ∃ c, result = .ok c ∧ c.http.error = false ∧ c.http.inBuffer = [] ∧
    ∃ responses, List.Forall₂ (fun _ response => SuccessResponse response) reqs responses ∧
      c.sock.sent = responses.flatten

theorem fresh_unanswered (connfd : Nat) (s : Bytes) : Unanswered ((Conn.fresh connfd).receives s).http :=
  ⟨rfl, Or.inl rfl, ProcessState.noConfusion, ProcessState.noConfusion⟩

/-- Success responses are not empty. -/
theorem SuccessResponse.ne_nil {response : Bytes} (h : SuccessResponse response) : response ≠ [] := by
  rintro rfl
  exact absurd (List.prefix_nil.mp h) (by decide)

/-- **No request is served**: a fresh connection that is not in error afterwards has sent nothing. -/
theorem handleRead_never_serves (host : Host) (connfd : Nat) (r : Request) (rs : List Request) :
    ¬ Served (r :: rs)
      (handleRead host ((Conn.fresh connfd).receives ((r :: rs).flatMap Request.render))) := by
  rintro ⟨c, hrun, herror, -, responses, hall, hsent⟩
  obtain ⟨-, -, hmute⟩ := handleRead_silent host (fresh_unanswered connfd _) rfl hrun herror
  cases hall with
  | cons hfirst hrest =>
      rw [hmute, List.flatten_cons] at hsent
      exact hfirst.ne_nil (List.append_eq_nil_iff.mp hsent.symm).1

theorem hostTarget_plain : ∀ b ∈ bytes "a", b ≠ space ∧ b ≠ cr ∧ b ≠ question := by decide +kernel

/-- `GET /a HTTP/1.1` with the header `Host: a`. -/
def hostRequest : Request where
  method := .get
  target := bytes "a"
  version := .http11
  headers := [hostLine]
  method_served := by decide
  target_plain := hostTarget_plain
  target_file := by decide

/-- One file, `a`. -/
def oneFile : FileSystem := fun name => if name = bytes "a" then .regular (bytes "x") else .missing

def oneHost : Host := { someHost with files := oneFile }

theorem handleRead_host_not_served :
    hostRequest.NamesFile oneHost.files ∧
      ¬ Served [hostRequest]
        (handleRead oneHost ((Conn.fresh 5).receives ([hostRequest].flatMap Request.render))) := by
  refine ⟨⟨bytes "x", by decide, by decide⟩, ?_⟩
  rintro ⟨c, hrun, herror, -⟩
  have hreject : (handleRead oneHost
      ((Conn.fresh 5).receives ([hostRequest].flatMap Request.render))).map (fun c => c.http.error) =
        .ok true := by decide +kernel
  rw [hrun] at hreject
  simp [Except.map, herror] at hreject

end WebServer
