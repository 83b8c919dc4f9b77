import WebServer.HttpRequestRef

/-! Request lines as they are sent, and `parseURI` as the decoder of them. The method is searched for in
the whole line, and `GET` first: a target that contains the name of a method searched earlier hides the
method the line begins with. -/

namespace WebServer

/-- The target of a request after its slash: a path, and a query after a question mark. -/
structure Target where
  path : Bytes
  query : Option Bytes
  path_plain : ∀ b ∈ path, b ≠ space ∧ b ≠ cr ∧ b ≠ question
  query_plain : ∀ q ∈ query, ∀ b ∈ q, b ≠ space ∧ b ≠ cr

def Target.render (t : Target) : Bytes := t.path ++ t.query.elim [] (question :: ·)

/-- The file a target names. -/
def Target.fileName (t : Target) : Bytes := if t.render = [] then bytes "index.html" else t.path

/-- A request line as it is sent, without its carriage return. -/
def renderLine (m : HttpMethod) (t : Target) (v : HttpVersion) : Bytes :=
  m.render ++ [space, slash] ++ t.render ++ [space] ++ v.render

/-- The target contains `pat`, at a position of the line that an `int` holds as a position. Six bytes
stand before the target of a `POST` and of a `HEAD`. -/
def Target.Hides (t : Target) (pat : Bytes) : Prop :=
  ∃ i, indexOf pat t.render = some i ∧ 0 ≤ toInt (6 + i)

/-- No method searched before `m` is found in the target. -/
def MethodShows (t : Target) : HttpMethod → Prop
  | .get => True
  | .post => ¬ t.Hides (bytes "GET")
  | .head => ¬ t.Hides (bytes "GET") ∧ ¬ t.Hides (bytes "POST")

theorem Target.render_plain (t : Target) : ∀ b ∈ t.render, b ≠ space ∧ b ≠ cr := by
  intro b hb
  rcases List.mem_append.mp hb with hpath | hquery
  · exact ⟨(t.path_plain b hpath).1, (t.path_plain b hpath).2.1⟩
  · cases hq : t.query with
    | none => simp [hq] at hquery
    | some q =>
        rw [hq, Option.elim_some, List.mem_cons] at hquery
        rcases hquery with rfl | hmem
        · decide
        · exact t.query_plain q hq b hmem

theorem Target.takeWhile_render (t : Target) : t.render.takeWhile (· ≠ question) = t.path := by
  have hpath : ∀ b ∈ t.path, decide (b ≠ question) = true := fun b hb =>
    decide_eq_true (t.path_plain b hb).2.2
  unfold Target.render
  cases t.query with
  | none => rw [Option.elim_none, List.append_nil, List.takeWhile_eq_self_iff.mpr hpath]
  | some q => rw [Option.elim_some, List.takeWhile_append_of_pos hpath, List.takeWhile_cons_of_neg (by decide),
      List.append_nil]

/-- The digits of a version. -/
def HttpVersion.digits : HttpVersion → Bytes
  | .http10 => bytes "1.0"
  | .http11 => bytes "1.1"

theorem HttpVersion.render_eq (v : HttpVersion) : v.render = bytes "HTTP" ++ slash :: v.digits := by
  cases v <;> rfl

theorem versionOf_digits (r : RequestLine) (v : HttpVersion) :
    versionOf r v.digits = (.success, { r with httpVersion := v }) := by
  cases v <;> rfl

section Line

variable (m : HttpMethod) (t : Target) (v : HttpVersion)

/-- The line up to its target. -/
def lineStart : Bytes := m.render ++ [space]

/-- The line up to the space after its target. -/
def lineTarget : Bytes := lineStart m ++ slash :: t.render

/-- The line up to the slash of its version. -/
def lineVersion : Bytes := lineTarget m t ++ space :: bytes "HTTP"

theorem renderLine_eq : renderLine m t v = lineVersion m t ++ slash :: v.digits := by
  simp [renderLine, lineVersion, lineTarget, lineStart, v.render_eq]

theorem position_slash_renderLine :
    position (renderLine m t v) slash 0 = some (lineStart m).length := by
  have hline : renderLine m t v = [] ++ (lineStart m ++ slash :: (t.render ++ space :: v.render)) := by
    simp [renderLine, lineStart]
  rw [hline]
  apply position_chunk [] _
  cases m <;> decide

theorem position_space_renderLine :
    position (renderLine m t v) space (lineStart m).length = some (lineTarget m t).length := by
  have hline : renderLine m t v = lineStart m ++ ((slash :: t.render) ++ space :: v.render) := by
    simp [renderLine, lineStart]
  rw [hline]
  apply position_chunk _ _
  rw [List.mem_cons, not_or]
  exact ⟨by decide, fun h => (t.render_plain space h).1 rfl⟩

theorem position_version_renderLine :
    position (renderLine m t v) slash (lineTarget m t).length = some (lineVersion m t).length := by
  rw [renderLine_eq, lineVersion, List.append_assoc]
  exact position_chunk _ _ (by decide)

theorem refTargetName_renderLine :
    refTargetName (renderLine m t v) (lineStart m).length (lineTarget m t).length = t.fileName := by
  have hdrop : (renderLine m t v).drop ((lineStart m).length + 1) = t.render ++ space :: v.render := by
    have hline : renderLine m t v = (lineStart m ++ [slash]) ++ (t.render ++ space :: v.render) := by
      simp [renderLine, lineStart]
    rw [hline, show (lineStart m).length + 1 = (lineStart m ++ [slash]).length by simp, List.drop_left]
  have hlength : (lineTarget m t).length - (lineStart m).length = t.render.length + 1 := by
    simp [lineTarget]
  rw [refTargetName_eq, hlength, hdrop, Nat.add_sub_cancel, List.take_left, t.takeWhile_render,
    Target.fileName]
  cases hrender : t.render with
  | nil => rfl
  | cons b s => simp

/-- From its own method on, a line is read back. -/
theorem parseTarget_renderLine (h : Fits (renderLine m t v)) (r : RequestLine) :
    parseTarget r (renderLine m t v) 0 =
      .ok (.success, { r with fileName := t.fileName, httpVersion := v }) := by
  have hagrees : FailuresAgree r.fileName (renderLine m t v) 0 := by
    simp [FailuresAgree, position_slash_renderLine, position_space_renderLine, position_version_renderLine]
  have hdigits : ((renderLine m t v).drop ((lineVersion m t).length + 1)).take 3 = v.digits := by
    have hline : renderLine m t v = (lineVersion m t ++ [slash]) ++ v.digits := by
      simp [renderLine_eq]
    rw [hline, show (lineVersion m t).length + 1 = (lineVersion m t ++ [slash]).length by simp,
      List.drop_left]
    cases v <;> rfl
  have hlong : ¬ (renderLine m t v).length - (lineVersion m t).length ≤ 3 := by
    rw [renderLine_eq, List.length_append, Nat.add_sub_cancel_left]
    cases v <;> decide
  rw [(parseTarget_agrees_iff h r 0).mpr hagrees]
  simp only [refTarget, refVersion, position_slash_renderLine, position_space_renderLine,
    position_version_renderLine, refTargetName_renderLine, if_neg hlong, hdigits, versionOf_digits]

theorem intPosition_own : intPosition (renderLine m t v) m.render = some 0 := by
  have hline : renderLine m t v = m.render ++ ([space, slash] ++ t.render ++ [space] ++ v.render) := by
    simp [renderLine]
  rw [intPosition, hline, indexOf_prefix]
  rfl

/-- A pattern that neither the rest of the line nor the seams contain is found in the target. -/
theorem intPosition_target {p : Byte} {pat : Bytes} (hm : p ∉ m.render ++ [space, slash])
    (hsix : (m.render ++ [space, slash]).length = 6) (hspace : space ∉ p :: pat)
    (hv : indexOf (p :: pat) (space :: v.render) = none) :
    intPosition (renderLine m t v) (p :: pat) ≠ none ↔ t.Hides (p :: pat) := by
  have hline : renderLine m t v = (m.render ++ [space, slash]) ++ (t.render ++ space :: v.render) := by
    simp [renderLine]
  have hindex : indexOf (p :: pat) (renderLine m t v) = (indexOf (p :: pat) t.render).map (6 + ·) := by
    rw [hline, indexOf_append_of_notMem hm, hsix, indexOf_append_cons (by simp) hspace hv]
  rw [intPosition, hindex, Target.Hides]
  cases indexOf (p :: pat) t.render with
  | none => simp
  | some i =>
      simp only [Option.map_some, Option.bind_some, Option.some.injEq, exists_eq_left']
      rw [Int.natCast_add, Int.cast_ofNat_Int]
      split_ifs with hi
      · exact iff_of_true (by simp) hi
      · exact iff_of_false (fun h => h rfl) hi

theorem get_hidden_iff {m : HttpMethod} (hm : m ≠ .get) :
    intPosition (renderLine m t v) (bytes "GET") ≠ none ↔ t.Hides (bytes "GET") := by
  cases m with
  | get => exact absurd rfl hm
  | post => exact intPosition_target .post t v (by decide) (by decide) (by decide) (by cases v <;> decide)
  | head => exact intPosition_target .head t v (by decide) (by decide) (by decide) (by cases v <;> decide)

theorem post_hidden_iff :
    intPosition (renderLine .head t v) (bytes "POST") ≠ none ↔ t.Hides (bytes "POST") :=
  intPosition_target .head t v (by decide) (by decide) (by decide) (by cases v <;> decide)

/-- The method a line begins with is the one found, or one searched before it is found in the target. -/
theorem methodAt_renderLine :
    (MethodShows t m ∧ methodAt (renderLine m t v) = some (m, 0)) ∨
      (¬ MethodShows t m ∧ ∃ m' pos, methodAt (renderLine m t v) = some (m', pos) ∧ m' ≠ m) := by
  have hown := intPosition_own m t v
  cases m with
  | get => exact Or.inl ⟨trivial, by rw [methodAt, show bytes "GET" = HttpMethod.get.render from rfl, hown]⟩
  | post =>
      have hget := get_hidden_iff t v (m := .post) (by decide)
      change intPosition (renderLine .post t v) (bytes "POST") = some 0 at hown
      cases hfound : intPosition (renderLine .post t v) (bytes "GET") with
      | none => exact Or.inl ⟨fun hhides => hget.mpr hhides hfound, by rw [methodAt, hfound, hown]⟩
      | some pos =>
          refine Or.inr ⟨fun hshows => hshows (hget.mp (by simp [hfound])), .get, pos, ?_, by decide⟩
          rw [methodAt, hfound]
  | head =>
      have hget := get_hidden_iff t v (m := .head) (by decide)
      have hpost := post_hidden_iff t v
      change intPosition (renderLine .head t v) (bytes "HEAD") = some 0 at hown
      cases hfound : intPosition (renderLine .head t v) (bytes "GET") with
      | some pos =>
          refine Or.inr ⟨fun hshows => hshows.1 (hget.mp (by simp [hfound])), .get, pos, ?_, by decide⟩
          rw [methodAt, hfound]
      | none =>
          cases hfound' : intPosition (renderLine .head t v) (bytes "POST") with
          | some pos =>
              refine Or.inr ⟨fun hshows => hshows.2 (hpost.mp (by simp [hfound'])), .post, pos, ?_, by decide⟩
              rw [methodAt, hfound, hfound']
          | none =>
              refine Or.inl ⟨⟨fun hhides => hget.mpr hhides hfound, fun hhides => hpost.mpr hhides hfound'⟩, ?_⟩
              rw [methodAt, hfound, hfound', hown]

theorem parseRequestLine_renderLine (h : Fits (renderLine m t v)) (r : RequestLine) :
    parseRequestLine r (renderLine m t v) = .ok (.success, ⟨m, v, t.fileName⟩) ↔ MethodShows t m := by
  rw [parseRequestLine_eq]
  rcases methodAt_renderLine m t v with ⟨hshows, hat⟩ | ⟨hhidden, m', pos, hat, hne⟩
  · rw [hat]
    exact iff_of_true (parseTarget_renderLine m t v h _) hshows
  · rw [hat]
    refine iff_of_false (fun heq => ?_) hhidden
    obtain ⟨flag, r', hok, -, hmethod⟩ := parseTarget_ok { r with method := m' } (renderLine m t v) pos
    cases hok.symm.trans heq
    exact hne hmethod.symm

end Line

/-- **Decoding undoes encoding**, in the fields of the request line and in the input left, if and only if
the target hides the method from none of the searches before its own. -/
theorem parseURI_render_iff {m : HttpMethod} {t : Target} {v : HttpVersion} {rest : Bytes} {h : HttpData}
    (hpos : h.nowReadPos = 0) (hinput : h.inBuffer = renderLine m t v ++ cr :: rest)
    (hfits : Fits h.inBuffer) :
    parseURI h = .ok (.success, { h with
      inBuffer := rest, method := m, httpVersion := v, fileName := t.fileName }) ↔ MethodShows t m := by
  have hfree : cr ∉ renderLine m t v := by
    have htarget : cr ∉ t.render := fun hmem => (t.render_plain cr hmem).2 rfl
    have hstart : cr ∉ m.render ++ [space, slash] := by cases m <;> decide
    have hend : cr ∉ [space] ++ v.render := by cases v <;> decide
    simp only [renderLine, List.append_assoc, List.mem_append, not_or] at hstart hend ⊢
    exact ⟨hstart.1, hstart.2, htarget, hend⟩
  have hcr : position h.inBuffer cr 0 = some (renderLine m t v).length := by
    rw [hinput]
    exact position_chunk [] rest hfree
  have htake : h.inBuffer.take (renderLine m t v).length = renderLine m t v := by
    rw [hinput, List.take_left]
  have hdrop : h.inBuffer.drop ((renderLine m t v).length + 1) = rest := by
    rw [hinput, List.drop_append, List.drop_eq_nil_of_le (by omega)]
    simp
  have hline : Fits (renderLine m t v) := by
    unfold Fits at hfits ⊢
    rw [hinput, List.length_append] at hfits
    omega
  have hdecodes := parseURI_eq_ok_iff hpos hfits hcr .success ⟨m, v, t.fileName⟩
  rw [htake, hdrop] at hdecodes
  exact hdecodes.trans (parseRequestLine_renderLine m t v hline _)

/-- `/a?/?`, sent in a `POST` request. -/
theorem parseURI_render_post :
    let t : Target := ⟨bytes "a", some (bytes "/?"), by decide +kernel, by decide +kernel⟩
    let h := { HttpData.new 5 with inBuffer := renderLine .post t .http10 ++ cr :: bytes "\n" }
    parseURI h = .ok (.success, { h with
      inBuffer := bytes "\n", method := .post, httpVersion := .http10, fileName := bytes "a" }) := by
  intro t h
  apply (parseURI_render_iff (m := .post) (t := t) (v := .http10) (h := h) rfl rfl (by decide)).mpr
  rintro ⟨i, hi, -⟩
  rw [show indexOf (bytes "GET") t.render = none by decide] at hi
  cases hi

/-- `/GET`, sent in a `POST` request. -/
theorem parseURI_render_hidden :
    ¬ ∀ (m : HttpMethod) (t : Target) (v : HttpVersion) (rest : Bytes) (h : HttpData), h.nowReadPos = 0 →
      h.inBuffer = renderLine m t v ++ cr :: rest → Fits h.inBuffer →
        parseURI h = .ok (.success, { h with
          inBuffer := rest, method := m, httpVersion := v, fileName := t.fileName }) := by
  intro hdecodes
  have hline := hdecodes .post ⟨bytes "GET", none, by decide +kernel, by decide⟩ .http11 []
    { HttpData.new 5 with inBuffer := bytes "POST /GET HTTP/1.1\r" } rfl (by decide) (by decide)
  exact absurd hline (by decide)

end WebServer
