import WebServer.HttpState
import WebServer.Stages

/-! `HttpData::parseURI`. The request line is cut off the input at the first carriage return, and its
method, target and version are searched for by `find`. The comparisons of a `size_t` position with
zero are kept as the source has them: they never hold, so a search that fails goes on with `npos`. -/

namespace WebServer

open Stages

/-- The fields of `HttpData` that the request line sets. -/
structure RequestLine where
  method : HttpMethod
  httpVersion : HttpVersion
  fileName : Bytes
  deriving DecidableEq

def HttpMethod.render : HttpMethod → Bytes
  | .post => bytes "POST"
  | .get => bytes "GET"
  | .head => bytes "HEAD"

def HttpVersion.render : HttpVersion → Bytes
  | .http10 => bytes "HTTP/1.0"
  | .http11 => bytes "HTTP/1.1"

/-- The version, searched from `pos` on. -/
def parseVersion (r : RequestLine) (requestLine : Bytes) (pos : Nat) :
    Except Fault (URIState × RequestLine) := do
  let pos := find requestLine slash pos
  if pos < 0 then return (.error, r)
  if subSize requestLine.length pos ≤ 3 then return (.error, r)
  let ver ← substr requestLine (addSize pos 1) 3
  if ver = bytes "1.0" then return (.success, { r with httpVersion := .http10 })
  if ver = bytes "1.1" then return (.success, { r with httpVersion := .http11 })
  return (.error, r)

/-- The file name between the slash at `pos` and the space at `pos'`, without its query. -/
def targetName (requestLine : Bytes) (pos pos' : Nat) : Except Fault Bytes := do
  if 1 < subSize pos' pos then
    let fileName ← substr requestLine (addSize pos 1) (subSize (subSize pos' pos) 1)
    let pos'' := find fileName question 0
    if 0 ≤ pos'' then substr fileName 0 pos'' else return fileName
  else return bytes "index.html"

/-- The target, searched from the position of the method on, and then the version. -/
def parseTarget (r : RequestLine) (requestLine : Bytes) (pos : Nat) :
    Except Fault (URIState × RequestLine) := do
  let pos := find requestLine slash pos
  if pos < 0 then
    return (.success, { r with fileName := bytes "index.html", httpVersion := .http11 })
  let pos' := find requestLine space pos
  if pos' < 0 then return (.error, r)
  let fileName ← targetName requestLine pos pos'
  parseVersion { r with fileName := fileName } requestLine pos'

/-- The method, and then the target and the version. -/
def parseRequestLine (r : RequestLine) (requestLine : Bytes) :
    Except Fault (URIState × RequestLine) :=
  let posGet := toInt (findStr requestLine (bytes "GET"))
  let posPost := toInt (findStr requestLine (bytes "POST"))
  let posHead := toInt (findStr requestLine (bytes "HEAD"))
  if 0 ≤ posGet then parseTarget { r with method := .get } requestLine (sizeT posGet)
  else if 0 ≤ posPost then parseTarget { r with method := .post } requestLine (sizeT posPost)
  else if 0 ≤ posHead then parseTarget { r with method := .head } requestLine (sizeT posHead)
  else .ok (.error, r)

/-- The end of the request line in `str`: the first carriage return from `nowReadPos` on. -/
def lineEnd (str : Bytes) (nowReadPos : Int) : Nat := find str cr (sizeT nowReadPos)

/-- The request line, cut off before the position found. -/
def requestLine (str : Bytes) (nowReadPos : Int) : Bytes := str.take (lineEnd str nowReadPos)

/-- What `parseURI` leaves of the input. -/
def afterLine (str : Bytes) (nowReadPos : Int) : Bytes :=
  if addSize (lineEnd str nowReadPos) 1 < str.length then
    str.drop (addSize (lineEnd str nowReadPos) 1)
  else []

/-- The input with the request line, which ends at `pos`, cut off. -/
def cutLine (str : Bytes) (pos : Nat) : Except Fault Bytes :=
  if addSize pos 1 < str.length then substrFrom str (addSize pos 1) else .ok []

/-- `HttpData::parseURI`. -/
def parseURI (h : HttpData) : Except Fault (URIState × HttpData) := do
  let str := h.inBuffer
  let pos := find str cr (sizeT h.nowReadPos)
  if pos < 0 then return (.again, h)
  let line ← substr str 0 pos
  let inBuffer ← cutLine str pos
  let (flag, r) ← parseRequestLine ⟨h.method, h.httpVersion, h.fileName⟩ line
  return (flag, { h with
    inBuffer := inBuffer, method := r.method, httpVersion := r.httpVersion, fileName := r.fileName })

theorem addSize_find_le (s : Bytes) (c : Byte) (pos : Nat) : addSize (find s c pos) 1 ≤ s.length := by
  by_cases h : find s c pos = npos
  · rw [h, show addSize npos 1 = 0 by decide]
    exact Nat.zero_le _
  · have hlt := (find_lt h).2
    exact (addSize_le _ _).trans hlt

theorem parseVersion_ok (r : RequestLine) (line : Bytes) (pos : Nat) :
    ∃ flag r', parseVersion r line pos = .ok (flag, r') ∧ flag ≠ .again ∧
      r'.method = r.method ∧ r'.fileName = r.fileName := by
  unfold parseVersion
  simp only [Nat.not_lt_zero, if_false, substr_ok _ (addSize_find_le line slash pos)]
  by_cases hshort : subSize line.length (find line slash pos) ≤ 3
  · exact ⟨.error, r, if_pos hshort, by decide, rfl, rfl⟩
  rw [if_neg hshort]
  simp only [bind, Except.bind, pure, Except.pure]
  by_cases h10 : (line.drop (addSize (find line slash pos) 1)).take 3 = bytes "1.0"
  · exact ⟨.success, _, if_pos h10, by decide, rfl, rfl⟩
  rw [if_neg h10]
  by_cases h11 : (line.drop (addSize (find line slash pos) 1)).take 3 = bytes "1.1"
  · exact ⟨.success, _, if_pos h11, by decide, rfl, rfl⟩
  · exact ⟨.error, r, if_neg h11, by decide, rfl, rfl⟩

theorem targetName_ok (line : Bytes) (pos pos' : Nat) :
    ∃ fileName, targetName line (find line slash pos) pos' = .ok fileName := by
  unfold targetName
  by_cases h : 1 < subSize pos' (find line slash pos)
  · simp only [if_pos h, substr_ok _ (addSize_find_le line slash pos), bind, Except.bind,
      Nat.zero_le, if_true, substr_ok]
    exact ⟨_, rfl⟩
  · exact ⟨_, if_neg h⟩

theorem parseTarget_ok (r : RequestLine) (line : Bytes) (pos : Nat) :
    ∃ flag r', parseTarget r line pos = .ok (flag, r') ∧ flag ≠ .again ∧ r'.method = r.method := by
  obtain ⟨fileName, hname⟩ := targetName_ok line pos (find line space (find line slash pos))
  obtain ⟨flag, r', hver, hflag, hmethod, _⟩ := parseVersion_ok { r with fileName := fileName } line
    (find line space (find line slash pos))
  refine ⟨flag, r', ?_, hflag, hmethod⟩
  simp only [parseTarget, Nat.not_lt_zero, if_false, hname]
  exact hver

/-- The four ways in which the method is found or not. -/
theorem parseRequestLine_cases (r : RequestLine) (line : Bytes) :
    (∃ method pos, parseRequestLine r line = parseTarget { r with method := method } line pos) ∨
      parseRequestLine r line = .ok (.error, r) := by
  unfold parseRequestLine
  simp only []
  split_ifs
  · exact Or.inl ⟨.get, _, rfl⟩
  · exact Or.inl ⟨.post, _, rfl⟩
  · exact Or.inl ⟨.head, _, rfl⟩
  · exact Or.inr rfl

/-- What `parseURI` makes of a request line: never `PARSE_URI_AGAIN`, and no fault. -/
theorem parseRequestLine_ok (r : RequestLine) (line : Bytes) :
    ∃ flag r', parseRequestLine r line = .ok (flag, r') ∧ flag ≠ .again := by
  rcases parseRequestLine_cases r line with ⟨method, pos, h⟩ | h
  · obtain ⟨flag, r', hok, hflag, _⟩ := parseTarget_ok { r with method := method } line pos
    exact ⟨flag, r', h.trans hok, hflag⟩
  · exact ⟨.error, r, h, by decide⟩

/-- `parseURI` is the reading of its request line, and what follows the line is left in the input. -/
theorem parseURI_eq {h : HttpData} {flag : URIState} {r : RequestLine}
    (hline : parseRequestLine ⟨h.method, h.httpVersion, h.fileName⟩
      (requestLine h.inBuffer h.nowReadPos) = .ok (flag, r)) :
    parseURI h = .ok (flag, { h with
      inBuffer := afterLine h.inBuffer h.nowReadPos, method := r.method,
      httpVersion := r.httpVersion, fileName := r.fileName }) := by
  have hcut : cutLine h.inBuffer (find h.inBuffer cr (sizeT h.nowReadPos)) =
      .ok (afterLine h.inBuffer h.nowReadPos) := by
    unfold cutLine afterLine lineEnd
    split_ifs with hlong
    · exact substrFrom_ok hlong.le
    · rfl
  have hsub : substr h.inBuffer 0 (find h.inBuffer cr (sizeT h.nowReadPos)) =
      .ok (requestLine h.inBuffer h.nowReadPos) := substr_ok _ (Nat.zero_le _)
  unfold parseURI
  simp only []
  rw [if_neg (Nat.not_lt_zero _), hsub, ok_bind, hcut, ok_bind, hline]
  rfl

theorem afterLine_suffix (str : Bytes) (nowReadPos : Int) : afterLine str nowReadPos <:+ str := by
  unfold afterLine
  split_ifs
  · exact List.drop_suffix _ _
  · exact List.nil_suffix

/-- **The request line is parsed without a fault**, wherever the search for its end begins and whichever
searches fail: no `substr` starts behind the end of its string. What is left of the input is a suffix of
it. -/
theorem parseURI_never_throws (h : HttpData) :
    ∃ flag h', parseURI h = .ok (flag, h') ∧ h'.inBuffer <:+ h.inBuffer := by
  obtain ⟨flag, r, hline, -⟩ := parseRequestLine_ok ⟨h.method, h.httpVersion, h.fileName⟩
    (requestLine h.inBuffer h.nowReadPos)
  refine ⟨flag, _, parseURI_eq hline, ?_⟩
  exact afterLine_suffix h.inBuffer h.nowReadPos

end WebServer
