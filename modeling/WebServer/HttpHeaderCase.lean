import Mathlib.Data.List.Nodup
import WebServer.HttpResponses
import WebServer.HttpUnanswered

/-! Headers in any spelling: two runs on header maps that differ in letter case only. The server finds a
header by its exact name, and knows two spellings of the one option it looks for. -/

namespace WebServer

def lowerByte (b : Byte) : Byte := if 65 ≤ b ∧ b ≤ 90 then b + 32 else b

def lower (s : Bytes) : Bytes := s.map lowerByte

/-- A header without the case of its name, and of its value if it is the option `Connection`. -/
def foldCase (entry : Bytes × Bytes) : Bytes × Bytes :=
  (lower entry.1, if lower entry.1 = lower (bytes "Connection") then lower entry.2 else entry.2)

/-- The maps are equal up to letter case, and no two names of one of them are. -/
structure SameUpToCase (m m' : HeaderMap) : Prop where
  distinct : (m.map fun entry => lower entry.1).Nodup
  perm : (m.map foldCase).Perm (m'.map foldCase)

theorem SameUpToCase.symm {m m' : HeaderMap} (h : SameUpToCase m m') : SameUpToCase m' m := by
  refine ⟨?_, h.perm.symm⟩
  have hnames : ∀ m : HeaderMap, m.map (fun entry => lower entry.1) = (m.map foldCase).map Prod.fst := by
    intro m
    rw [List.map_map]
    rfl
  have hdistinct := h.distinct
  rw [hnames] at hdistinct ⊢
  exact (h.perm.map _).nodup_iff.mp hdistinct

theorem HeaderMap.mem_of_find {m : HeaderMap} {key value : Bytes} (h : m.find key = some value) :
    (key, value) ∈ m := by
  obtain ⟨⟨k, v⟩, hfind, rfl⟩ := Option.map_eq_some_iff.mp h
  obtain rfl : k = key := by simpa using List.find?_some hfind
  exact List.mem_of_find?_eq_some hfind

/-- Where both maps have a header under one name, it has one value. -/
theorem SameUpToCase.find_eq {m m' : HeaderMap} (h : SameUpToCase m m') {key value value' : Bytes}
    (hkey : lower key ≠ lower (bytes "Connection")) (hfind : m.find key = some value)
    (hfind' : m'.find key = some value') : value' = value := by
  have hfold : foldCase (key, value) ∈ m'.map foldCase :=
    h.perm.mem_iff.mp (List.mem_map_of_mem (HeaderMap.mem_of_find hfind))
  obtain ⟨entry, hentry, heq⟩ := List.mem_map.mp hfold
  have hname : lower entry.1 = lower key := congrArg Prod.fst heq
  obtain rfl : entry = (key, value') :=
    List.inj_on_of_nodup_map h.symm.distinct hentry (HeaderMap.mem_of_find hfind') hname
  have hvalue := congrArg Prod.snd heq
  simpa only [foldCase, if_neg hkey] using hvalue

def Conn.withHeaders (c : Conn) (m : HeaderMap) : Conn := { c with http.headers := m }

def Conn.keeping (c : Conn) (keepAlive : Bool) : Conn := { c with http.keepAlive := keepAlive }

/-- The second run ends as the first one does, with its own headers. -/
def SameBut {α : Type} (m' : HeaderMap) (x y : Except Fault (α × Conn)) : Prop :=
  y = x.map fun r => (r.1, r.2.withHeaders m')

theorem sameBut_ok {α : Type} {m' : HeaderMap} {a b : α} {c d : Conn} :
    SameBut m' (.ok (a, c)) (.ok (b, d)) ↔ b = a ∧ d = c.withHeaders m' := by
  rw [SameBut, Except.map, Except.ok.injEq, Prod.mk.injEq]

/-- A length that `std::stoi` accepts, under any spelling of its name. -/
def LengthReadable (m : HeaderMap) : Prop :=
  ∀ entry ∈ m, lower entry.1 = lower (bytes "Content-length") → ∃ n, stoi entry.2 = .ok n

/-- Spelling makes no difference to what the connection decides on the length of the body, and to the
analysis of its request. -/
structure CaseBlind (fs : FileSystem) (c : Conn) (m m' : HeaderMap) : Prop where
  length : c.http.state = .recvBody → LengthReadable m →
    SameBut m' (bodySection (c.withHeaders m)) (bodySection (c.withHeaders m'))
  analysis : SameBut m' (analysisRequest fs (c.withHeaders m)) (analysisRequest fs (c.withHeaders m'))

/-- The response is a success with a head, made from the headers. -/
def CarriesHead (fs : FileSystem) (h : HttpData) : Prop :=
  h.fileName ≠ bytes "hello" ∧
    (h.fileName = bytes "favicon.ico" ∨ Sendable (fs (cstr h.fileName)) h.method)

/-- Both maps spell the length as the server does or neither does, and both ask the server in a spelling it
knows to keep the connection or neither does, where that makes a difference. -/
structure SpeltAlike (fs : FileSystem) (c : Conn) (m m' : HeaderMap) : Prop where
  length : c.http.state = .recvBody → LengthReadable m →
    ((m.find (bytes "Content-length")).isSome ↔ (m'.find (bytes "Content-length")).isSome)
  option : c.http.method = .post ∨ wantsKeepAlive m = wantsKeepAlive m' ∨
    (c.http.keepAlive = true ∧ ¬ CarriesHead fs c.http)

section

variable {c : Conn} {m m' : HeaderMap}

/-- A length that is found makes no call. -/
theorem bodySection_found {value : Bytes} {n : Int} (hstate : c.http.state = .recvBody)
    (hfind : m.find (bytes "Content-length") = some value) (hvalue : stoi value = .ok n) :
    bodySection (c.withHeaders m) = .ok (if toInt c.http.inBuffer.length < n then (.brk, c.withHeaders m)
      else (.next, { c with http.state := .analysis }.withHeaders m)) := by
  rw [bodySection_length (c := c.withHeaders m) hstate hfind, hvalue]
  rfl

theorem bodySection_missing (hstate : c.http.state = .recvBody)
    (hfind : m.find (bytes "Content-length") = none) :
    bodySection (c.withHeaders m) = .ok (.brk,
      (rejected (bytes "Bad Reqeust: Lack of argument(Conten-length)") c).withHeaders m) :=
  bodySection_rejects (c := c.withHeaders m) hstate hfind

/-- A length that one of the maps alone has under its name is refused in the other run. -/
theorem bodySection_differs {value : Bytes} {n : Int} (hstate : c.http.state = .recvBody)
    (hfind : m.find (bytes "Content-length") = some value) (hvalue : stoi value = .ok n)
    (hnone : m'.find (bytes "Content-length") = none) (m₀ : HeaderMap) :
    ¬ SameBut m₀ (bodySection (c.withHeaders m)) (bodySection (c.withHeaders m')) ∧
      ¬ SameBut m₀ (bodySection (c.withHeaders m')) (bodySection (c.withHeaders m)) := by
  rw [bodySection_found hstate hfind hvalue, bodySection_missing hstate hnone]
  split_ifs
  all_goals
    rw [sameBut_ok, sameBut_ok]
    constructor
    all_goals
      rintro ⟨-, hsame⟩
      have hcalls := congrArg Conn.calls hsame
      simp [rejected, Conn.withHeaders] at hcalls

theorem length_sameBut_iff (hsame : SameUpToCase m m') (hstate : c.http.state = .recvBody)
    (hread : LengthReadable m) :
    SameBut m' (bodySection (c.withHeaders m)) (bodySection (c.withHeaders m')) ↔
      ((m.find (bytes "Content-length")).isSome ↔ (m'.find (bytes "Content-length")).isSome) := by
  have hkey : lower (bytes "Content-length") ≠ lower (bytes "Connection") := by decide
  cases hfind : m.find (bytes "Content-length") with
  | some value =>
      obtain ⟨n, hvalue⟩ := hread _ (HeaderMap.mem_of_find hfind) rfl
      cases hfind' : m'.find (bytes "Content-length") with
      | some value' =>
          obtain rfl := hsame.find_eq hkey hfind hfind'
          refine iff_of_true ?_ (by simp)
          rw [bodySection_found hstate hfind hvalue, bodySection_found hstate hfind' hvalue]
          split_ifs
          all_goals exact sameBut_ok.mpr ⟨rfl, rfl⟩
      | none =>
          refine iff_of_false (bodySection_differs hstate hfind hvalue hfind' m').1 ?_
          simp
  | none =>
      cases hfind' : m'.find (bytes "Content-length") with
      | some value' =>
          -- the value stands in the first map under another spelling
          obtain ⟨entry, hentry, heq⟩ := List.mem_map.mp
            (hsame.perm.mem_iff.mpr (List.mem_map_of_mem (HeaderMap.mem_of_find hfind')))
          have hname : lower entry.1 = lower (bytes "Content-length") := congrArg Prod.fst heq
          have hvalue := congrArg Prod.snd heq
          simp only [foldCase, hname, if_neg hkey] at hvalue
          obtain ⟨n, hn⟩ := hread entry hentry hname
          rw [hvalue] at hn
          refine iff_of_false (bodySection_differs hstate hfind' hn hfind m').2 ?_
          simp
      | none =>
          refine iff_of_true ?_ (by simp)
          rw [bodySection_missing hstate hfind, bodySection_missing hstate hfind']
          exact sameBut_ok.mpr ⟨rfl, rfl⟩

end

section

variable (fs : FileSystem) {c : Conn} {m m' : HeaderMap}

/-- What the headers do to the analysis: they go into the head, if there is one, and into `m_keepAlive`. -/
theorem analysisRequest_withHeaders (hpost : c.http.method ≠ .post) :
    (CarriesHead fs c.http ∧ ∀ m, analysisRequest fs (c.withHeaders m) = .ok (.success,
      (answered c (wantsKeepAlive m || c.http.keepAlive) (c.http.outBuffer ++
        (responseHead m ++ contentLines ++ responseBody fs c.http))).withHeaders m)) ∨
    (¬ CarriesHead fs c.http ∧ ∃ e : Conn, ∀ m, analysisRequest fs (c.withHeaders m) =
      .ok (.error, (e.keeping (wantsKeepAlive m || c.http.keepAlive)).withHeaders m)) := by
  by_cases hhello : c.http.fileName = bytes "hello"
  · refine Or.inr ⟨fun h => h.1 hhello, answered c false helloResponse, fun m => ?_⟩
    rw [analysisRequest_named fs (c := c.withHeaders m) hpost, if_pos (by exact hhello)]
    rfl
  by_cases hsend : c.http.fileName = bytes "favicon.ico" ∨ Sendable (fs (cstr c.http.fileName)) c.http.method
  · refine Or.inl ⟨⟨hhello, hsend⟩, fun m => ?_⟩
    have hresponse := analysisResponse_head (h := (c.withHeaders m).http) hpost hhello hsend
    rcases analysisRequest_results fs (c.withHeaders m) with h | h | ⟨-, -, -, hrun⟩ | ⟨-, -, hfavicon, hnot, -⟩
    · exact absurd h.1 hpost
    · exact absurd h.2.1 hhello
    · rw [hrun, hresponse]
      rfl
    · exact absurd hsend (not_or.mpr ⟨hfavicon, hnot⟩)
  · refine Or.inr ⟨fun h => hsend h.2, refused (answered c false
      (keptBuffer (fs (cstr c.http.fileName)) c.http.outBuffer)) 404
      (notFoundMsg (fs (cstr c.http.fileName))), fun m => ?_⟩
    rcases analysisRequest_results fs (c.withHeaders m) with h | h | ⟨-, -, h, -⟩ | ⟨-, -, -, -, -, hrun⟩
    · exact absurd h.1 hpost
    · exact absurd h.2.1 hhello
    · exact absurd h hsend
    · rw [hrun]
      rfl

theorem responseHead_inj : responseHead m = responseHead m' ↔ wantsKeepAlive m = wantsKeepAlive m' := by
  have hne : keepAliveLines ≠ [] := by decide
  rw [responseHead, responseHead, List.append_cancel_left_eq]
  cases wantsKeepAlive m <;> cases wantsKeepAlive m' <;> simp [hne, hne.symm]

theorem analysis_sameBut_iff :
    SameBut m' (analysisRequest fs (c.withHeaders m)) (analysisRequest fs (c.withHeaders m')) ↔
      c.http.method = .post ∨ wantsKeepAlive m = wantsKeepAlive m' ∨
        (c.http.keepAlive = true ∧ ¬ CarriesHead fs c.http) := by
  by_cases hpost : c.http.method = .post
  · refine iff_of_true ?_ (Or.inl hpost)
    have hrun : ∀ m, analysisRequest fs (c.withHeaders m) = .ok (.error, c.withHeaders m) := by
      intro m
      have hmethod : (c.withHeaders m).http.method = .post := hpost
      rw [analysisRequest, hmethod]
    rw [hrun, hrun]
    exact sameBut_ok.mpr ⟨rfl, rfl⟩
  rw [or_iff_right hpost]
  rcases analysisRequest_withHeaders fs hpost with ⟨hhead, hrun⟩ | ⟨hhead, e, hrun⟩
  · rw [hrun, hrun, sameBut_ok, or_iff_left fun h => h.2 hhead]
    constructor
    · rintro ⟨-, hsame⟩
      have hout : c.http.outBuffer ++ (responseHead m' ++ contentLines ++ responseBody fs c.http) =
          c.http.outBuffer ++ (responseHead m ++ contentLines ++ responseBody fs c.http) :=
        congrArg (fun d => d.http.outBuffer) hsame
      have hheads := List.append_cancel_right (List.append_cancel_right (List.append_cancel_left hout))
      exact responseHead_inj.mp hheads.symm
    · intro hwants
      rw [hwants, responseHead_inj.mpr hwants]
      exact ⟨rfl, rfl⟩
  · rw [hrun, hrun, sameBut_ok, and_iff_left hhead]
    constructor
    · rintro ⟨-, hsame⟩
      have hkeep : (wantsKeepAlive m' || c.http.keepAlive) = (wantsKeepAlive m || c.http.keepAlive) :=
        congrArg (fun d => d.http.keepAlive) hsame
      cases hkept : c.http.keepAlive with
      | true => exact Or.inr rfl
      | false =>
          rw [hkept, Bool.or_false, Bool.or_false] at hkeep
          exact Or.inl hkeep.symm
    · rintro (hwants | hkept)
      · rw [hwants]
        exact ⟨rfl, rfl⟩
      · rw [hkept, Bool.or_true, Bool.or_true]
        exact ⟨rfl, rfl⟩

/-- **Spelling makes no difference** just if the maps spell alike what the server looks for. -/
theorem caseBlind_iff (hsame : SameUpToCase m m') : CaseBlind fs c m m' ↔ SpeltAlike fs c m m' := by
  constructor
  · rintro ⟨hlength, hanalysis⟩
    refine ⟨?_, (analysis_sameBut_iff fs).mp hanalysis⟩
    intro hstate hread
    exact (length_sameBut_iff hsame hstate hread).mp (hlength hstate hread)
  · rintro ⟨hlength, hoption⟩
    refine ⟨?_, (analysis_sameBut_iff fs).mpr hoption⟩
    intro hstate hread
    exact (length_sameBut_iff hsame hstate hread).mpr (hlength hstate hread)

end

/-- The length of a body under one spelling of its name. -/
def lengthUnder (name : Bytes) : HeaderMap := [(name, bytes "5")]

theorem lengthUnder_same :
    SameUpToCase (lengthUnder (bytes "Content-length")) (lengthUnder (bytes "Content-Length")) :=
  ⟨by decide, by decide⟩

theorem caseBlind_iff_length :
    SameUpToCase (lengthUnder (bytes "Content-length")) (lengthUnder (bytes "Content-Length")) ∧
      (CaseBlind (fun _ => .missing) (Conn.fresh 5) (lengthUnder (bytes "Content-length"))
          (lengthUnder (bytes "Content-Length")) ↔
        SpeltAlike (fun _ => .missing) (Conn.fresh 5) (lengthUnder (bytes "Content-length"))
          (lengthUnder (bytes "Content-Length"))) :=
  ⟨lengthUnder_same, caseBlind_iff _ lengthUnder_same⟩

/-- The spelling that the server itself writes is not the one it looks for. -/
theorem content_length_not_found :
    ¬ ∀ (fs : FileSystem) (c : Conn) (m m' : HeaderMap), SameUpToCase m m' → CaseBlind fs c m m' := by
  intro hall
  have hread : LengthReadable (lengthUnder (bytes "Content-length")) := by
    intro entry hentry _
    rw [List.mem_singleton.mp hentry]
    exact ⟨5, by decide⟩
  let c : Conn := { Conn.fresh 5 with http := { HttpData.new 5 with method := .post, state := .recvBody } }
  have hlength := (hall (fun _ => .missing) c _ _ lengthUnder_same).length rfl hread
  have hfound := (length_sameBut_iff (c := c) lengthUnder_same rfl hread).mp hlength
  exact absurd hfound (by decide)

end WebServer
