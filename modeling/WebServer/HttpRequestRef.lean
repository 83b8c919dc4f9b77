import WebServer.HttpRequestLine
import WebServer.UtilSearch

/-! `parseURI` beside a parser with the same branches that represents each `find` as an optional
position. A search that fails gives the source `npos`, which no test against zero tells from a position:
it goes on as if it had found something, and most often ends elsewhere than in the branch written for
the failure. -/

namespace WebServer

open Stages

/-- The three bytes after the slash of the version, as the source compares them. -/
def versionOf (r : RequestLine) (ver : Bytes) : URIState × RequestLine :=
  if ver = bytes "1.0" then (.success, { r with httpVersion := .http10 })
  else if ver = bytes "1.1" then (.success, { r with httpVersion := .http11 })
  else (.error, r)

def refVersion (r : RequestLine) (line : Bytes) (pos : Nat) : URIState × RequestLine :=
  match position line slash pos with
  | none => (.error, r)
  | some pos =>
      if line.length - pos ≤ 3 then (.error, r) else versionOf r ((line.drop (pos + 1)).take 3)

def refTargetName (line : Bytes) (pos pos' : Nat) : Bytes :=
  if 1 < pos' - pos then
    let fileName := (line.drop (pos + 1)).take (pos' - pos - 1)
    match position fileName question 0 with
    | some pos'' => fileName.take pos''
    | none => fileName
  else bytes "index.html"

def refTarget (r : RequestLine) (line : Bytes) (pos : Nat) : URIState × RequestLine :=
  match position line slash pos with
  | none => (.success, { r with fileName := bytes "index.html", httpVersion := .http11 })
  | some pos =>
      match position line space pos with
      | none => (.error, r)
      | some pos' => refVersion { r with fileName := refTargetName line pos pos' } line pos'

/-- The method and its position: the positions are kept in an `int`, as in the source. -/
def methodAt (line : Bytes) : Option (HttpMethod × Nat) :=
  match intPosition line (bytes "GET"), intPosition line (bytes "POST"),
    intPosition line (bytes "HEAD") with
  | some pos, _, _ => some (.get, pos)
  | none, some pos, _ => some (.post, pos)
  | none, none, some pos => some (.head, pos)
  | none, none, none => none

def refRequestLine (r : RequestLine) (line : Bytes) : URIState × RequestLine :=
  match methodAt line with
  | some (method, pos) => refTarget { r with method := method } line pos
  | none => (.error, r)

/-- `parseURI` with each search an optional position. -/
def refParseURI (h : HttpData) : URIState × HttpData :=
  match position h.inBuffer cr h.nowReadPos.toNat with
  | none => (.again, h)
  | some pos =>
      let (flag, r) := refRequestLine ⟨h.method, h.httpVersion, h.fileName⟩ (h.inBuffer.take pos)
      (flag, { h with
        inBuffer := h.inBuffer.drop (pos + 1), method := r.method, httpVersion := r.httpVersion,
        fileName := r.fileName })

theorem versionOf_short (r : RequestLine) {ver : Bytes} (h : ver.length < 3) :
    versionOf r ver = (.error, r) := by
  have hne : ∀ v : Bytes, v.length = 3 → ver ≠ v := by
    rintro v hv rfl
    omega
  rw [versionOf, if_neg (hne _ (by decide)), if_neg (hne _ (by decide))]

/-- Without a slash the version is looked for at the beginning of the line. -/
theorem parseVersion_eq {line : Bytes} (hfits : Fits line) (r : RequestLine) (pos : Nat) :
    parseVersion r line pos =
      .ok (versionOf r ((line.drop ((position line slash pos).elim 0 (· + 1))).take 3)) := by
  obtain ⟨k, hk, hadd, hsub⟩ : ∃ k, (position line slash pos).elim 0 (· + 1) = k ∧
      addSize (find line slash pos) 1 = k ∧
      subSize line.length (find line slash pos) = line.length + 1 - k := by
    rw [find_eq]
    cases hp : position line slash pos with
    | none => exact ⟨0, rfl, by decide, subSize_npos hfits⟩
    | some p =>
        have hlt := (position_bounds hp).2
        unfold Fits at hfits
        have hmodulus : sizeModulus = npos + 1 := rfl
        refine ⟨p + 1, rfl, addSize_of_lt ?_, ?_⟩
        · rw [Option.getD_some]
          omega
        · rw [Option.getD_some, subSize_of_le (by omega) hlt.le]
          omega
  unfold parseVersion
  simp only []
  rw [if_neg (Nat.not_lt_zero _), hsub, hadd, hk]
  by_cases hshort : line.length + 1 - k ≤ 3
  · rw [if_pos hshort, versionOf_short]
    · rfl
    · rw [List.length_take, List.length_drop]
      omega
  · rw [if_neg hshort, substr_ok _ (by omega), ok_bind, versionOf]
    split_ifs <;> rfl

/-- The query is cut off whether or not there is one. -/
theorem cutQuery_eq {name : Bytes} (h : name.length ≤ npos) :
    substr name 0 (find name question 0) = .ok (name.takeWhile (· ≠ question)) := by
  rw [substr_ok _ (Nat.zero_le _), List.drop_zero, find_eq, take_position _ h]

theorem refTargetName_eq (line : Bytes) (p p' : Nat) :
    refTargetName line p p' =
      if 1 < p' - p then ((line.drop (p + 1)).take (p' - p - 1)).takeWhile (· ≠ question)
      else bytes "index.html" := by
  have hcut (name : Bytes) : (match position name question 0 with
      | some pos'' => name.take pos''
      | none => name) = name.takeWhile (· ≠ question) := by
    rw [← take_position question le_rfl]
    cases position name question 0 with
    | none => exact List.take_length.symm
    | some pos'' => rfl
  unfold refTargetName
  simp only [hcut]

/-- Without a space the name goes on to the end of the line. -/
theorem targetName_eq {line : Bytes} {p : Nat} (hfits : Fits line) (hp : p < line.length) :
    targetName line p (find line space p) = .ok (match position line space p with
      | some p' => refTargetName line p p'
      | none => (line.drop (p + 1)).takeWhile (· ≠ question)) := by
  unfold Fits at hfits
  have hmodulus : sizeModulus = npos + 1 := rfl
  have hadd : addSize p 1 = p + 1 := addSize_of_lt (by omega)
  unfold targetName
  rw [find_eq, hadd]
  cases hspace : position line space p with
  | none =>
      have hlong : (line.drop (p + 1)).take (npos - p - 1) = line.drop (p + 1) := by
        apply List.take_of_length_le
        rw [List.length_drop]
        omega
      simp only [Option.getD_none]
      rw [subSize_of_le (by omega) (by omega), if_pos (by omega), subSize_of_le (by omega) (by omega),
        substr_ok _ (by omega), ok_bind, hlong, if_pos (Nat.zero_le _), cutQuery_eq]
      rw [List.length_drop]
      omega
  | some p' =>
      have hbounds := position_bounds hspace
      simp only [Option.getD_some]
      rw [refTargetName_eq, subSize_of_le (by omega) hbounds.1]
      by_cases hlong : 1 < p' - p
      · rw [if_pos hlong, if_pos hlong, subSize_of_le (by omega) (by omega), substr_ok _ (by omega), ok_bind,
          if_pos (Nat.zero_le _), cutQuery_eq]
        rw [List.length_take, List.length_drop]
        omega
      · rw [if_neg hlong, if_neg hlong]
        rfl

/-- The line begins with a version, where its method belongs. -/
def VersionFirst (line : Bytes) : Prop := line.take 3 = bytes "1.0" ∨ line.take 3 = bytes "1.1"

/-- The searches that fail after the method, which is at `pos`, end as the branches written for them do.
`fileName` is the name left by the last request. -/
def FailuresAgree (fileName line : Bytes) (pos : Nat) : Prop :=
  match position line slash pos with
  | none => line.take 3 = bytes "1.1"
  | some p =>
      match position line space p with
      | none => ¬ VersionFirst line ∧ fileName = (line.drop (p + 1)).takeWhile (· ≠ question)
      | some p' => position line slash p' = none → ¬ VersionFirst line

theorem versionOf_error_iff {r r' : RequestLine} {ver : Bytes} :
    versionOf r ver = (.error, r') ↔ ¬ (ver = bytes "1.0" ∨ ver = bytes "1.1") ∧ r' = r := by
  unfold versionOf
  split_ifs with h10 h11
  · simp [h10]
  · simp [h11]
  · simp [h10, h11, eq_comm]

theorem versionOf_http11_iff {r : RequestLine} {ver : Bytes} :
    versionOf r ver = (.success, { r with httpVersion := .http11 }) ↔ ver = bytes "1.1" := by
  unfold versionOf
  split_ifs with h10 h11
  · apply iff_of_false (by simp)
    rw [h10]
    decide
  · exact iff_of_true rfl h11
  · exact iff_of_false (by simp) h11

theorem parseVersion_agrees_iff {line : Bytes} (hfits : Fits line) (r : RequestLine) (pos : Nat) :
    parseVersion r line pos = .ok (refVersion r line pos) ↔
      (position line slash pos = none → ¬ VersionFirst line) := by
  rw [parseVersion_eq hfits, refVersion, Except.ok.injEq]
  cases hp : position line slash pos with
  | none => simp [versionOf_error_iff, VersionFirst]
  | some p =>
      refine iff_of_true ?_ (fun h => by cases h)
      simp only [Option.elim_some]
      split_ifs with hshort
      · apply versionOf_short
        rw [List.length_take, List.length_drop]
        omega
      · rfl

/-- **The searches of a request line.** After the method the source agrees with the reference parser
exactly where a failed search happens to end as its branch would. -/
theorem parseTarget_agrees_iff {line : Bytes} (hfits : Fits line) (r : RequestLine) (pos : Nat) :
    parseTarget r line pos = .ok (refTarget r line pos) ↔ FailuresAgree r.fileName line pos := by
  have hend (c : Byte) : position line c npos = none := position_from_end c (le_of_lt hfits)
  unfold parseTarget refTarget FailuresAgree
  simp only []
  rw [if_neg (Nat.not_lt_zero _), if_neg (Nat.not_lt_zero _)]
  cases hslash : position line slash pos with
  | none =>
      have hname : targetName line npos npos = .ok (bytes "index.html") := if_neg (by decide)
      rw [find_eq, hslash, Option.getD_none, find_eq line space, hend, Option.getD_none, hname, ok_bind,
        parseVersion_eq hfits, hend, Except.ok.injEq]
      exact versionOf_http11_iff
  | some p =>
      have hp := position_bounds hslash
      simp only []
      rw [find_eq, hslash, Option.getD_some, targetName_eq hfits hp.2, ok_bind, find_eq]
      cases hspace : position line space p with
      | none =>
          simp only [Option.getD_none]
          rw [parseVersion_eq hfits, hend, Except.ok.injEq, versionOf_error_iff]
          apply and_congr_right
          intro _
          obtain ⟨method, httpVersion, fileName⟩ := r
          simp
      | some p' => exact parseVersion_agrees_iff hfits _ p'

theorem parseRequestLine_eq (r : RequestLine) (line : Bytes) :
    parseRequestLine r line = match methodAt line with
      | some (method, pos) => parseTarget { r with method := method } line pos
      | none => .ok (.error, r) := by
  unfold parseRequestLine methodAt
  simp only [intPosition_eq]
  by_cases hget : 0 ≤ toInt (findStr line (bytes "GET"))
  · rw [if_pos hget, if_pos hget]
  rw [if_neg hget, if_neg hget]
  by_cases hpost : 0 ≤ toInt (findStr line (bytes "POST"))
  · rw [if_pos hpost, if_pos hpost]
  rw [if_neg hpost, if_neg hpost]
  by_cases hhead : 0 ≤ toInt (findStr line (bytes "HEAD"))
  · rw [if_pos hhead, if_pos hhead]
  · rw [if_neg hhead, if_neg hhead]

theorem parseRequestLine_agrees_iff {line : Bytes} (hfits : Fits line) (r : RequestLine) :
    parseRequestLine r line = .ok (refRequestLine r line) ↔
      ∀ method pos, methodAt line = some (method, pos) → FailuresAgree r.fileName line pos := by
  rw [parseRequestLine_eq, refRequestLine]
  cases hmethod : methodAt line with
  | none => exact iff_of_true rfl (fun _ _ h => by cases h)
  | some found =>
      obtain ⟨method, pos⟩ := found
      refine (parseTarget_agrees_iff hfits { r with method := method } pos).trans ⟨?_, fun h => h _ _ rfl⟩
      rintro h method' pos' hfound
      cases hfound
      exact h

/-- A complete line is cut off, with its carriage return. -/
theorem cutLine_at {s : Bytes} {e : Nat} (hfits : Fits s) (hcr : position s cr 0 = some e) :
    requestLine s 0 = s.take e ∧ afterLine s 0 = s.drop (e + 1) := by
  have hend : lineEnd s 0 = e := by
    rw [lineEnd, show sizeT 0 = 0 from rfl, find_eq, hcr, Option.getD_some]
  have hlt := (position_bounds hcr).2
  unfold Fits at hfits
  have hadd : addSize e 1 = e + 1 := by
    apply addSize_of_lt
    unfold sizeModulus npos at *
    omega
  refine ⟨by rw [requestLine, hend], ?_⟩
  rw [afterLine, hend, hadd]
  split_ifs with hmore
  · rfl
  · exact (List.drop_eq_nil_of_le (by omega)).symm

/-- On a complete line `parseURI` sets the three fields of the request line, and no others. -/
theorem parseURI_eq_ok_iff {h : HttpData} {e : Nat} (hpos : h.nowReadPos = 0) (hfits : Fits h.inBuffer)
    (hcr : position h.inBuffer cr 0 = some e) (flag : URIState) (r : RequestLine) :
    parseURI h = .ok (flag, { h with
        inBuffer := h.inBuffer.drop (e + 1), method := r.method, httpVersion := r.httpVersion,
        fileName := r.fileName }) ↔
      parseRequestLine ⟨h.method, h.httpVersion, h.fileName⟩ (h.inBuffer.take e) = .ok (flag, r) := by
  obtain ⟨hcut, hafter⟩ := cutLine_at hfits hcr
  obtain ⟨flag', r', hline, -⟩ := parseRequestLine_ok ⟨h.method, h.httpVersion, h.fileName⟩
    (requestLine h.inBuffer h.nowReadPos)
  rw [parseURI_eq hline, hpos, hafter]
  rw [hpos, hcut] at hline
  rw [hline]
  obtain ⟨method, httpVersion, fileName⟩ := r
  obtain ⟨method', httpVersion', fileName'⟩ := r'
  simp only [Except.ok.injEq, Prod.mk.injEq, HttpData.mk.injEq, RequestLine.mk.injEq, true_and, and_true]

/-- The line is complete, and its searches that fail end as the branches written for them do. -/
def SearchesAgree (h : HttpData) : Prop :=
  ∃ e, position h.inBuffer cr 0 = some e ∧
    ∀ method pos, methodAt (h.inBuffer.take e) = some (method, pos) →
      FailuresAgree h.fileName (h.inBuffer.take e) pos

/-- **The searches of `parseURI`.** It agrees with the reference parser if and only if there is a
carriage return and the searches after the method that fail end as the branches written for them do. -/
theorem parseURI_agrees_iff {h : HttpData} (hpos : h.nowReadPos = 0) (hfits : Fits h.inBuffer) :
    parseURI h = .ok (refParseURI h) ↔ SearchesAgree h := by
  rw [refParseURI, SearchesAgree, show h.nowReadPos.toNat = 0 by rw [hpos, Int.toNat_zero]]
  cases hcr : position h.inBuffer cr 0 with
  | none =>
      -- the source never asks for more
      obtain ⟨flag, r, hline, hflag⟩ := parseRequestLine_ok ⟨h.method, h.httpVersion, h.fileName⟩
        (requestLine h.inBuffer h.nowReadPos)
      refine iff_of_false (fun heq => ?_) (fun ⟨e, he, _⟩ => by cases he)
      rw [parseURI_eq hline, Except.ok.injEq] at heq
      exact hflag (congrArg Prod.fst heq)
  | some e =>
      have hshort : Fits (h.inBuffer.take e) := lt_of_le_of_lt (List.length_take_le' ..) hfits
      have hagrees := parseRequestLine_agrees_iff hshort ⟨h.method, h.httpVersion, h.fileName⟩
      simp only [Option.some.injEq, exists_eq_left', ← hagrees]
      generalize refRequestLine _ _ = answer
      obtain ⟨flag, r⟩ := answer
      exact parseURI_eq_ok_iff hpos hfits hcr flag r

theorem parseURI_complete : SearchesAgree { HttpData.new 5 with inBuffer := bytes "GET / HTTP/1.1\r" } :=
  (parseURI_agrees_iff rfl (by decide)).mp (by decide)

/-- A request line that has not arrived in full. -/
theorem parseURI_incomplete :
    ¬ ∀ h : HttpData, h.nowReadPos = 0 → Fits h.inBuffer → parseURI h = .ok (refParseURI h) := by
  intro hagrees
  have hline := hagrees { HttpData.new 5 with inBuffer := bytes "GET " } rfl (by decide)
  exact absurd hline (by decide)

end WebServer
