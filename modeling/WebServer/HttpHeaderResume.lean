import WebServer.HttpHeaders

/-! Header parsing in two calls. `m_hState` outlives a call of `parseHeaders`, and the buffer is cut back
to the beginning of the header line: the second call reads the line again, from its first character on,
in the state the first call ended in. -/

namespace WebServer

/-- What can be told apart of two calls: an input that is rejected stays, one that waits for more is cut. -/
theorem parseHeaders_eq_iff (h : HttpData) {st st' : ParseState} {s s' : Bytes} (hst : st.Plain)
    (hst' : st'.Plain) (hs : s.length < 2 ^ 31) (hs' : s'.length < 2 ^ 31) :
    parseHeaders { h with hState := st, inBuffer := s } =
        parseHeaders { h with hState := st', inBuffer := s' } ↔
      headerStop st s = headerStop st' s' ∧
        if headerStop st s = none then plainEnd st s = plainEnd st' s' ∧ kept st s = kept st' s'
        else s = s' := by
  cases hstop : headerStop st s with
  | none =>
      rw [parseHeaders_waits (h := { h with hState := st, inBuffer := s }) hst (keptFrom_le st hs) hstop]
      cases hstop' : headerStop st' s' with
      | none =>
          rw [parseHeaders_waits (h := { h with hState := st', inBuffer := s' }) hst' (keptFrom_le st' hs') hstop']
          simp only [Except.ok.injEq, Prod.mk.injEq, HttpData.mk.injEq, true_and, and_true, if_true]
          exact and_comm
      | some r' =>
          rw [parseHeaders_stop (h := { h with hState := st', inBuffer := s' }) hstop']
          simp
  | some r =>
      rw [parseHeaders_stop (h := { h with hState := st, inBuffer := s }) hstop]
      cases hstop' : headerStop st' s' with
      | none =>
          rw [parseHeaders_waits (h := { h with hState := st', inBuffer := s' }) hst' (keptFrom_le st' hs') hstop']
          simp
      | some r' =>
          rw [parseHeaders_stop (h := { h with hState := st', inBuffer := s' }) hstop']
          simp only [Except.ok.injEq, Prod.mk.injEq, HttpData.mk.injEq, true_and, and_true, Option.some.injEq,
            reduceCtorEq, if_false]
          exact and_comm

/-- The input begins with a character of its header line. -/
def NoLineEndFirst (u : Bytes) : Prop := u.dropWhile isEol = u

/-- A header line from the end of its key on. -/
def keyRest (s : Bytes) : Bytes := s.dropWhile fun b => !endsKey b

/-- What ends the key is a colon, and what follows the colon a space, as far as they are there. -/
def KeyContinues (s : Bytes) : Prop :=
  match keyRest s with
  | [] => True
  | [b] => b = colon
  | b :: b' :: _ => b = colon ∧ b' = space

/-- A cut inside the key of a line that begins with `c`; `s` is the line after that. -/
def ResumesInKey (u : Bytes) (c : Byte) (s : Bytes) : Prop :=
  if c = colon then
    match s with
    | [] => False
    | b :: _ =>
        if b = space then [colon, space] <+: keyRest s
        else (∃ b' ≠ space, [colon, b'] <+: keyRest s) ∧ NoLineEndFirst u
  else KeyContinues s ∨ NoLineEndFirst u

/-- A cut between the colon and what follows it, `v`. -/
def ResumesAfterColon (u : Bytes) (c : Byte) (v : Bytes) : Prop :=
  match v with
  | [] => False
  | b :: _ => if b = space then c = space else c ≠ space ∧ NoLineEndFirst u

/-- The cut of `u ++ v` after `u` makes no difference. -/
def ResumesAt (u v : Bytes) : Prop :=
  match u.dropWhile isEol with
  | [] => True
  | c :: k =>
      match keyRest k with
      | [] => ResumesInKey u c (k ++ v)
      | [_] => ResumesAfterColon u c v
      | _ => True

theorem keyStop_eq {s : Bytes} (hshort : s.length + 1 < 2 ^ 31) : keyStop s = match keyRest s with
    | [] => none
    | c :: rest => if c = colon then colonStop rest else some .key := by
  have hlength := (List.takeWhile_sublist (fun b => !endsKey b) (l := s)).length_le
  have hbehind : 0 < toInt ((1 + (s.takeWhile fun b => !endsKey b).length : Nat)) := by
    rw [toInt_of_lt (by omega)]
    omega
  simp only [keyStop, keyStopFrom, and_iff_left hbehind]
  rfl

theorem keyEnd_eq (s : Bytes) : keyEnd s = match keyRest s with
    | [] => .key
    | _ :: rest => colonEnd rest := rfl

theorem keyStop_eq_none_iff {s : Bytes} (hshort : s.length + 1 < 2 ^ 31) :
    keyStop s = none ↔ KeyContinues s := by
  rw [keyStop_eq hshort, KeyContinues]
  cases keyRest s with
  | nil => simp
  | cons b rest =>
      cases rest with
      | nil => simp [colonStop]
      | cons b' rest => by_cases hb : b = colon <;> simp [colonStop, hb]

theorem keyStop_colon_iff {s : Bytes} (hshort : s.length + 1 < 2 ^ 31) :
    keyStop s = some .colon ↔ ∃ b' ≠ space, [colon, b'] <+: keyRest s := by
  rw [keyStop_eq hshort]
  cases keyRest s with
  | nil => simp
  | cons b rest =>
      cases rest with
      | nil => simp [colonStop]
      | cons b' rest =>
          by_cases hb : b = colon
          · by_cases hb' : b' = space <;> simp [colonStop, hb, hb', List.cons_prefix_cons]
          · simp [hb, List.cons_prefix_cons, Ne.symm hb]

theorem key_spaces_iff {s : Bytes} (hshort : s.length + 1 < 2 ^ 31) :
    (keyStop s = none ∧ keyEnd s = .spacesAfterColon) ↔ [colon, space] <+: keyRest s := by
  rw [keyStop_eq hshort, keyEnd_eq]
  cases keyRest s with
  | nil => simp
  | cons b rest =>
      cases rest with
      | nil => simp [colonEnd]
      | cons b' rest =>
          by_cases hb : b = colon
          · by_cases hb' : b' = space <;>
              simp [colonStop, colonEnd, hb, hb', List.cons_prefix_cons, Ne.symm]
          · simp [hb, List.cons_prefix_cons, Ne.symm hb]

theorem keyRest_append {k x : Bytes} (v : Bytes) (hx : x ≠ []) (hk : keyRest k = x) :
    keyRest (k ++ v) = x ++ v := by
  have hrest : (k.dropWhile fun b => !endsKey b) = x := hk
  rw [keyRest, List.dropWhile_append, hrest, if_neg (by simpa using hx)]

/-- Two scans end alike: `s`, kept from the first call, from the state it left, and the line `c :: s'` from
its beginning. -/
def EndsAlike (st : ParseState) (u v : Bytes) (c : Byte) (s : Bytes) : Prop :=
  headerStop st (c :: s) = keyStop s ∧
    if headerStop st (c :: s) = none then plainEnd st (c :: s) = keyEnd s ∧ kept st (c :: s) = c :: s
    else c :: s = u ++ v

section Line

variable {u v k s : Bytes} {c : Byte}

theorem endsAlike_key (hshort : (c :: s).length < 2 ^ 31) (hc : isEol c = false)
    (hcut : c :: s = u ++ v ↔ NoLineEndFirst u) : EndsAlike .key u v c s ↔ ResumesInKey u c s := by
  have hrest : s.length + 1 < 2 ^ 31 := hshort
  simp only [EndsAlike, headerStop, plainEnd, kept_later (show ParseState.key ≠ .start by decide), and_true,
    ResumesInKey, ← hcut]
  by_cases hcolon : c = colon
  · have hkey : keyStop (c :: s) = colonStop s := by rw [keyStop_cons hshort, if_pos hcolon]
    have hkey' : keyEnd (c :: s) = colonEnd s := by
      rw [keyEnd_cons, if_pos (by simp [endsKey, hcolon])]
    rw [hkey, hkey', if_pos hcolon]
    cases s with
    | nil => simp [colonStop, colonEnd, keyEnd]
    | cons b t =>
        by_cases hb : b = space
        · have hspaces := key_spaces_iff hrest
          simp only [hb, if_true] at hspaces ⊢
          rw [← hspaces]
          simp [colonStop, colonEnd, eq_comm]
        · simp only [hb, if_false, ← keyStop_colon_iff hrest]
          simp [colonStop, hb, eq_comm]
  · have heol : ¬ (c = lf ∨ c = cr) := by
      simpa [isEol, or_comm] using hc
    have hkey : keyStop (c :: s) = keyStop s := by
      rw [keyStop_cons hshort, if_neg hcolon, if_neg heol]
    have hkey' : keyEnd (c :: s) = keyEnd s := by
      rw [keyEnd_cons, if_neg (by simp [endsKey, hcolon, hc])]
    rw [hkey, hkey', if_neg hcolon, ← keyStop_eq_none_iff hrest]
    by_cases hnone : keyStop s = none <;> simp [hnone]

theorem endsAlike_colon (hshort : (k ++ v).length + 1 < 2 ^ 31) (hk : keyRest k = [colon])
    (hcut : c :: (k ++ v) = u ++ v ↔ NoLineEndFirst u) : EndsAlike .colon u v c (k ++ v) ↔ ResumesAfterColon u c v := by
  have hrest := keyRest_append v (by simp) hk
  have hkey : keyStop (k ++ v) = colonStop v := by
    rw [keyStop_eq hshort, hrest]
    rfl
  have hkey' : keyEnd (k ++ v) = colonEnd v := by
    rw [keyEnd_eq, hrest]
    rfl
  simp only [EndsAlike, headerStop, plainEnd, kept_later (show ParseState.colon ≠ .start by decide), hkey, hkey',
    and_true, ResumesAfterColon, ← hcut]
  cases v with
  | nil => by_cases hspace : c = space <;> simp [colonStop, colonEnd, hspace]
  | cons b t =>
      by_cases hspace : c = space <;> by_cases hb : b = space <;> simp [colonStop, colonEnd, hspace, hb]

theorem endsAlike_spaces {t : Bytes} (hshort : (k ++ v).length + 1 < 2 ^ 31)
    (hk : keyRest k = colon :: space :: t) : EndsAlike .spacesAfterColon u v c (k ++ v) := by
  have hrest := keyRest_append v (by simp) hk
  obtain ⟨hnone, hend⟩ := (key_spaces_iff hshort).mpr (by simp [hrest])
  refine ⟨hnone.symm, ?_⟩
  rw [if_pos (by rfl)]
  exact ⟨hend.symm, rfl⟩

end Line

/-- What scans from the start make of the first part of an input whose line is `c :: k`, and of all of it. -/
theorem line_scans {u : Bytes} (v : Bytes) {c : Byte} {k : Bytes} (hline : u.dropWhile isEol = c :: k)
    (hshort : (u ++ v).length < 2 ^ 31) :
    (plainEnd .start u = keyEnd k ∧ kept .start u = c :: k ∧ headerStop .start u = keyStop k) ∧
      plainEnd .start (u ++ v) = keyEnd (k ++ v) ∧ kept .start (u ++ v) = c :: (k ++ v) ∧
        headerStop .start (u ++ v) = keyStop (k ++ v) := by
  have hu : u.length < 2 ^ 31 := by
    rw [List.length_append] at hshort
    omega
  have hline' : (u ++ v).dropWhile isEol = c :: (k ++ v) := by
    rw [List.dropWhile_append, hline]
    rfl
  simp only [plainEnd, kept_start hu, kept_start hshort, headerStop, startStop, hline, hline', reduceCtorEq,
    if_false, and_self]

/-- The second scan of the line, from where the first has ended in it. -/
theorem endsAlike_iff {u v k : Bytes} {c : Byte} (hrest : (k ++ v).length + 1 < 2 ^ 31) (hc : isEol c = false)
    (hcut : c :: (k ++ v) = u ++ v ↔ NoLineEndFirst u) (hkey : keyStop k = none) :
    EndsAlike (keyEnd k) u v c (k ++ v) ↔ match keyRest k with
      | [] => ResumesInKey u c (k ++ v)
      | [_] => ResumesAfterColon u c v
      | _ => True := by
  have hk_le : k.length + 1 < 2 ^ 31 := by
    rw [List.length_append] at hrest
    omega
  have hcontinues := (keyStop_eq_none_iff hk_le).mp hkey
  rw [KeyContinues] at hcontinues
  rw [keyEnd_eq]
  cases hk : keyRest k with
  | nil => exact endsAlike_key hrest hc hcut
  | cons b rest =>
      rw [hk] at hcontinues
      cases rest with
      | nil =>
          obtain rfl : b = colon := hcontinues
          exact endsAlike_colon hrest hk hcut
      | cons b' t =>
          obtain ⟨rfl, rfl⟩ : b = colon ∧ b' = space := hcontinues
          exact iff_of_true (endsAlike_spaces hrest hk) trivial

theorem resumes_iff {u v : Bytes} (hshort : (u ++ v).length < 2 ^ 31) (hstop : headerStop .start u = none) :
    (headerStop (plainEnd .start u) (kept .start u ++ v) = headerStop .start (u ++ v) ∧
      if headerStop (plainEnd .start u) (kept .start u ++ v) = none then
        plainEnd (plainEnd .start u) (kept .start u ++ v) = plainEnd .start (u ++ v) ∧
          kept (plainEnd .start u) (kept .start u ++ v) = kept .start (u ++ v)
      else kept .start u ++ v = u ++ v) ↔ ResumesAt u v := by
  unfold ResumesAt
  cases hline : u.dropWhile isEol with
  | nil =>
      have hu : u.length < 2 ^ 31 := by
        rw [List.length_append] at hshort
        omega
      have hend : plainEnd .start u = .start := by rw [plainEnd, hline]
      have hkept : kept .start u = u := by rw [kept_start hu, if_pos hline]
      rw [hend, hkept]
      exact iff_of_true ⟨rfl, by split_ifs <;> trivial⟩ trivial
  | cons c k =>
      obtain ⟨⟨hend, hkept, hkey⟩, hend', hkept', hstop'⟩ := line_scans v hline hshort
      rw [hend, hkept, hstop', hend', hkept', List.cons_append]
      have hc : isEol c = false := by
        have hhead := List.head_dropWhile_not (p := isEol) (l := u) (by rw [hline]; exact List.cons_ne_nil _ _)
        simpa [hline] using hhead
      have hcut : c :: (k ++ v) = u ++ v ↔ NoLineEndFirst u := by
        rw [NoLineEndFirst, hline, ← List.cons_append, List.append_left_inj]
      have hle : (c :: k).length ≤ u.length := by
        rw [← hline]
        exact (List.dropWhile_sublist isEol).length_le
      have hrest : (k ++ v).length + 1 < 2 ^ 31 := by
        rw [List.length_append] at hshort ⊢
        rw [List.length_cons] at hle
        omega
      exact endsAlike_iff hrest hc hcut (hkey ▸ hstop)

/-- No slice is taken in a state that reads no value. -/
theorem parseHeaders_plain_ok {h : HttpData} (hplain : h.hState.Plain) (hshort : h.inBuffer.length < 2 ^ 31)
    (f : Fault) : parseHeaders h ≠ .error f := by
  cases hstop : headerStop h.hState h.inBuffer with
  | none =>
      rw [parseHeaders_waits hplain (keptFrom_le _ hshort) hstop]
      exact fun heq => by cases heq
  | some st =>
      rw [parseHeaders_stop hstop]
      exact fun heq => by cases heq

/-- **Header parsing resumes where it stopped**, with the same answer, state, headers and input as one
call on the whole input, for these cuts and no others. No slice is taken outside the buffer. -/
theorem parseHeaders_resumes_iff {h h₁ : HttpData} {u v : Bytes} (hstart : h.hState = .start)
    (hshort : (u ++ v).length < 2 ^ 31) (hfirst : parseHeaders { h with inBuffer := u } = .ok (.again, h₁)) :
    (parseHeaders { h₁ with inBuffer := h₁.inBuffer ++ v } = parseHeaders { h with inBuffer := u ++ v } ∧
      ∀ f, parseHeaders { h₁ with inBuffer := h₁.inBuffer ++ v } ≠ .error f) ↔ ResumesAt u v := by
  have hplain : ParseState.Plain .start := Or.inl rfl
  have hlength : u.length + v.length < 2 ^ 31 := by rwa [List.length_append] at hshort
  have hstop : headerStop .start u = none := by
    cases hstop : headerStop .start u with
    | none => rfl
    | some st =>
        rw [parseHeaders_stop (h := { h with inBuffer := u }) (by rw [hstart]; exact hstop)] at hfirst
        cases hfirst
  have hwaits := parseHeaders_waits (h := { h with inBuffer := u }) (by rw [hstart]; exact hplain)
    (keptFrom_le _ (by dsimp only; omega)) (by rw [hstart]; exact hstop)
  rw [hfirst, hstart] at hwaits
  cases hwaits
  have hkept : (kept .start u ++ v).length < 2 ^ 31 := by
    have hle := kept_length_le .start u
    rw [List.length_append]
    omega
  have hsecond := plainEnd_plain hplain hstop
  have hagrees := (parseHeaders_eq_iff h hsecond hplain hkept hshort).trans (resumes_iff hshort hstop)
  rw [← hagrees, ← hstart]
  exact and_iff_left fun f => parseHeaders_plain_ok (by rw [hstart]; exact hsecond)
    (by rw [hstart]; exact hkept) f

/-- A cut inside the key. -/
theorem parseHeaders_resumes_key :
    ∃ h₁, parseHeaders { HttpData.new 5 with inBuffer := bytes "Ho" } = .ok (.again, h₁) ∧
      parseHeaders { h₁ with inBuffer := h₁.inBuffer ++ bytes "st: a" } =
        parseHeaders { HttpData.new 5 with inBuffer := bytes "Ho" ++ bytes "st: a" } :=
  ⟨_, rfl, ((parseHeaders_resumes_iff (h := HttpData.new 5) (u := bytes "Ho") (v := bytes "st: a") rfl
    (by decide) rfl).mpr (Or.inr rfl)).1⟩

/-- A cut behind the colon: the line is read again, in the state in which a space is expected. -/
theorem parseHeaders_cut_colon :
    ¬ ∀ (h h₁ : HttpData) (u v : Bytes), h.hState = .start → h.headers = [] → (u ++ v).length < 2 ^ 31 →
      parseHeaders { h with inBuffer := u } = .ok (.again, h₁) →
        parseHeaders { h₁ with inBuffer := h₁.inBuffer ++ v } =
          parseHeaders { h with inBuffer := u ++ v } := by
  intro hresumes
  have hline := hresumes (HttpData.new 5) { HttpData.new 5 with hState := .colon, inBuffer := bytes "a:" }
    (bytes "a:") (bytes " b") rfl rfl (by decide) rfl
  exact absurd hline (by decide)

end WebServer
