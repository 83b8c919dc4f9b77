import WebServer.HttpRequestRef
import WebServer.HttpAnalysis

/-! The name of the file served. It is what the request line has between the slash and the space after
its method, up to the question mark: one slash is left out, and the rest is not looked at. Whether the
name leads out of the working directory is up to the client. -/

namespace WebServer

open Stages

def components (name : Bytes) : List Bytes := name.splitOn slash

/-- A component that descends: neither empty, nor `.`, nor `..`. -/
def Ordinary (component : Bytes) : Prop :=
  component ≠ [] ∧ component ≠ bytes "." ∧ component ≠ bytes ".."

instance (component : Bytes) : Decidable (Ordinary component) := inferInstanceAs (Decidable (_ ∧ _))

/-- A relative path that never climbs above the directory it starts from. -/
def Confined (name : Bytes) : Prop :=
  name.head? ≠ some slash ∧
    ∀ k, ((components name).take k).count (bytes "..") ≤
      ((components name).take k).countP (Ordinary ·)

/-- A path without slashes that is not `..`. -/
theorem confined_of_single {name : Bytes} (hslash : slash ∉ name) (hparent : name ≠ bytes "..") :
    Confined name := by
  have hcomponents : components name = [name] := by
    apply List.splitOnP_eq_singleton
    intro b hb
    exact beq_false_of_ne fun heq => hslash (heq ▸ hb)
  refine ⟨fun hhead => hslash (List.mem_of_mem_head? hhead), fun k => ?_⟩
  rw [hcomponents]
  cases k with
  | zero => exact le_rfl
  | succ k =>
      rw [List.take_succ_cons, List.take_nil, List.count_singleton]
      simp [hparent]

theorem confined_nil : Confined [] := confined_of_single (by decide) (by decide)

theorem confined_index : Confined (bytes "index.html") := confined_of_single (by decide) (by decide)

/-- The path a request line asks for, as the client sent it. -/
def requestedPath (line : Bytes) : Bytes :=
  match methodAt line with
  | none => []
  | some (_, pos) =>
      match position line slash pos with
      | none => []
      | some p => ((line.drop (p + 1)).takeWhile (· ≠ space)).takeWhile (· ≠ question)

/-- The name between the slash and the space is the path asked for, or the name put in for an empty one. -/
theorem targetName_path {line : Bytes} {pos p : Nat} (hfits : Fits line)
    (hp : position line slash pos = some p) :
    ∃ name, targetName line p (find line space p) = .ok name ∧
      (name = ((line.drop (p + 1)).takeWhile (· ≠ space)).takeWhile (· ≠ question) ∨
        (line.drop (p + 1)).takeWhile (· ≠ space) = [] ∧ name = bytes "index.html") := by
  -- the text from the slash on, up to the space, is the slash and the path
  have htext : slash :: (line.drop (p + 1)).takeWhile (· ≠ space) =
      (line.drop p).take ((position line space p).getD line.length - p) := by
    rw [← drop_takeWhile, drop_position hp, List.takeWhile_cons_of_pos (by decide)]
  refine ⟨_, targetName_eq hfits (position_bounds hp).2, ?_⟩
  cases hspace : position line space p with
  | none =>
      apply Or.inl
      rw [hspace, Option.getD_none, List.take_of_length_le (by rw [List.length_drop]), drop_position hp,
        List.cons.injEq] at htext
      rw [htext.2]
  | some p' =>
      have hbounds := position_bounds hspace
      rw [hspace, Option.getD_some, drop_position hp] at htext
      simp only [refTargetName_eq]
      split_ifs with hlong
      · apply Or.inl
        rw [show p' - p = p' - p - 1 + 1 by omega, List.take_succ_cons, List.cons.injEq] at htext
        rw [htext.2]
      · refine Or.inr ⟨?_, rfl⟩
        have hlength := congrArg List.length htext
        rw [List.length_cons, List.length_take] at hlength
        exact List.length_eq_zero_iff.mp (by omega)

theorem parseRequestLine_name {line : Bytes} {r r' : RequestLine} (hfits : Fits line)
    (hrun : parseRequestLine r line = .ok (.success, r')) :
    r'.fileName = requestedPath line ∨ requestedPath line = [] ∧ r'.fileName = bytes "index.html" := by
  rw [parseRequestLine_eq] at hrun
  unfold requestedPath
  cases hmethod : methodAt line with
  | none =>
      rw [hmethod] at hrun
      cases hrun
  | some found =>
      obtain ⟨method, pos⟩ := found
      rw [hmethod] at hrun
      simp only []
      simp only [parseTarget, if_neg (Nat.not_lt_zero _)] at hrun
      obtain ⟨name, hname, hrun⟩ := bind_eq_ok hrun
      have hkept : r'.fileName = name := by
        obtain ⟨flag, r'', hok, -, -, hfile⟩ := parseVersion_ok { r with method := method, fileName := name } line
          (find line space (find line slash pos))
        cases hok.symm.trans hrun
        exact hfile
      cases hslash : position line slash pos with
      | none =>
          have hindex : targetName line npos npos = .ok (bytes "index.html") := if_neg (by decide)
          rw [find_eq line slash, hslash, Option.getD_none, find_eq,
            position_from_end space (le_of_lt hfits), Option.getD_none, hindex] at hname
          cases hname
          exact Or.inr ⟨rfl, hkept⟩
      | some p =>
          obtain ⟨name', hname', hpath⟩ := targetName_path hfits hslash
          rw [find_eq line slash, hslash, Option.getD_some, hname'] at hname
          cases hname
          rw [hkept]
          refine hpath.imp_right fun hempty => ⟨?_, hempty.2⟩
          simp only [hempty.1, List.takeWhile_nil]

/-- The response looks at one name of the file system. -/
theorem analysisRequest_congr {fs fs' : FileSystem} {c : Conn}
    (h : fs (cstr c.http.fileName) = fs' (cstr c.http.fileName)) :
    analysisRequest fs c = analysisRequest fs' c := by
  unfold analysisRequest
  split
  · rfl
  · by_cases hkeep : wantsKeepAlive c.http.headers = true
    · simp only [if_pos hkeep, h]
    · simp only [if_neg hkeep, h]

/-- **The name served** is the path the request line asks for, or `index.html` for an empty one: it stays
under the working directory if and only if that path does. It is the only name the response looks at. -/
theorem parseURI_name {h h' : HttpData} (hfits : Fits h.inBuffer) (hrun : parseURI h = .ok (.success, h')) :
    (h'.fileName = requestedPath (requestLine h.inBuffer h.nowReadPos) ∨
        requestedPath (requestLine h.inBuffer h.nowReadPos) = [] ∧ h'.fileName = bytes "index.html") ∧
      (Confined h'.fileName ↔ Confined (requestedPath (requestLine h.inBuffer h.nowReadPos))) ∧
      ∀ (fs fs' : FileSystem) (c : Conn), c.http.fileName = h'.fileName →
        fs (cstr h'.fileName) = fs' (cstr h'.fileName) → analysisRequest fs c = analysisRequest fs' c := by
  obtain ⟨flag, r, hline, -⟩ := parseRequestLine_ok ⟨h.method, h.httpVersion, h.fileName⟩
    (requestLine h.inBuffer h.nowReadPos)
  have hshort : Fits (requestLine h.inBuffer h.nowReadPos) :=
    lt_of_le_of_lt (List.length_take_le' ..) hfits
  have hparse := parseURI_eq hline
  rw [hrun, Except.ok.injEq, Prod.mk.injEq] at hparse
  obtain ⟨rfl, rfl⟩ := hparse
  have hname := parseRequestLine_name hshort hline
  refine ⟨hname, ?_, fun fs fs' c hc hfs => analysisRequest_congr (by rw [hc]; exact hfs)⟩
  rcases hname with hpath | ⟨hempty, hindex⟩
  · rw [hpath]
  · rw [hempty]
    exact iff_of_true (hindex.symm ▸ confined_index) confined_nil

/-- The name in `/a/../b?c`. -/
theorem parseURI_name_confined :
    ∃ h', parseURI { HttpData.new 5 with inBuffer := bytes "GET /a/../b?c HTTP/1.1\r" } = .ok (.success, h') ∧
      (Confined h'.fileName ↔ Confined (bytes "a/../b")) := by
  refine ⟨_, rfl, (parseURI_name (h := { HttpData.new 5 with inBuffer := bytes "GET /a/../b?c HTTP/1.1\r" })
    (by decide) rfl).2.1.trans ?_⟩
  have hpath : requestedPath (requestLine (bytes "GET /a/../b?c HTTP/1.1\r") 0) = bytes "a/../b" := by decide
  exact iff_of_eq (congrArg Confined hpath)

/-- A name that leads out of the working directory. -/
theorem parseURI_escapes :
    ∃ h h' : HttpData, h.nowReadPos = 0 ∧ Fits h.inBuffer ∧ parseURI h = .ok (.success, h') ∧
      ¬ Confined h'.fileName := by
  refine ⟨{ HttpData.new 5 with inBuffer := bytes "GET /../x HTTP/1.1\r" }, _, rfl, by decide, rfl, ?_⟩
  intro hconfined
  exact absurd (hconfined.2 1) (by decide)

end WebServer
