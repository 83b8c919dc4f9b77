import WebServer.HttpState

/-! `HttpData::parseHeaders`: the character loop over its nine states, and which inputs it rejects.
The comparison `m_state == H_VALUE` in the state after the colon changes nothing, so the loop stays
there to the end of the buffer; a header value is only read when the loop is entered in `H_VALUE`. The
positions are kept as `int`s: they wrap, and so do their differences. -/

namespace WebServer

/-- The state of the connection and the local variables that the loop of `parseHeaders` changes. -/
structure HeaderScan where
  hState : ParseState
  headers : HeaderMap
  keyStart : Int
  keyEnd : Int
  vauleStart : Int
  valueEnd : Int
  nowReadLineBegin : Int
  notFinish : Bool

/-- How one turn of the loop ends: with the next turn, with `PARSE_HEADER_ERROR`, or with a fault. -/
inductive HeaderStep where
  | next (s : HeaderScan)
  | reject (s : HeaderScan)
  | fault (f : Fault)

/-- The `switch` of the loop, on the character `c` at position `i`. -/
def headerStep (str : Bytes) (i : Nat) (c : Byte) (s : HeaderScan) : HeaderStep :=
  match s.hState with
  | .start =>
      if c = cr ∨ c = lf then .next s
      else .next { s with hState := .key, keyStart := toInt i, nowReadLineBegin := toInt i }
  | .key =>
      if c = colon then
        let s := { s with keyEnd := toInt i }
        if toInt (s.keyEnd - s.keyStart) ≤ 0 then .reject s else .next { s with hState := .colon }
      else if c = lf ∨ c = cr then .reject s
      else .next s
  | .colon => if c = space then .next { s with hState := .spacesAfterColon } else .reject s
  | .spacesAfterColon => .next { s with vauleStart := toInt i }
  | .value =>
      if c = cr then
        let s := { s with hState := .cr, valueEnd := toInt i }
        if toInt (s.valueEnd - s.vauleStart) ≤ 0 then .reject s else .next s
      else if 255 < subSize i (sizeT s.vauleStart) then .reject s
      else .next s
  | .cr =>
      if c = lf then
        match slice str s.keyStart s.keyEnd, slice str s.vauleStart s.valueEnd with
        | .ok key, .ok value =>
            .next { s with
              hState := .lf, headers := s.headers.assign key value, nowReadLineBegin := toInt i }
        | .error f, _ => .fault f
        | _, .error f => .fault f
      else .reject s
  | .lf =>
      if c = cr then .next { s with hState := .endCr }
      else .next { s with keyStart := toInt i, hState := .key }
  | .endCr => if c = lf then .next { s with hState := .endLf } else .reject s
  | .endLf => .next { s with notFinish := false, keyStart := toInt i, nowReadLineBegin := toInt i }

/-- How the loop ends. -/
inductive ScanEnd where
  | finished (i : Nat) (s : HeaderScan)
  | rejected (s : HeaderScan)
  | fault (f : Fault)

/-- The loop from position `i` on, where the rest of the string is the list. -/
def headerLoop (str : Bytes) : Bytes → Nat → HeaderScan → ScanEnd
  | [], i, s => .finished i s
  | c :: rest, i, s =>
      if s.notFinish then
        match headerStep str i c s with
        | .next s => headerLoop str rest (i + 1) s
        | .reject s => .rejected s
        | .fault f => .fault f
      else .finished i s

/-- The local variables as `parseHeaders` initialises them. -/
def HeaderScan.init (h : HttpData) : HeaderScan where
  hState := h.hState
  headers := h.headers
  keyStart := -1
  keyEnd := -1
  vauleStart := -1
  valueEnd := -1
  nowReadLineBegin := 0
  notFinish := true

/-- `HttpData::parseHeaders`. -/
def parseHeaders (h : HttpData) : Except Fault (HeaderState × HttpData) :=
  match headerLoop h.inBuffer h.inBuffer 0 (HeaderScan.init h) with
  | .fault f => .error f
  | .rejected s => .ok (.error, { h with hState := s.hState, headers := s.headers })
  | .finished i s =>
      if s.hState = .endLf then do
        let str ← substrFrom h.inBuffer i
        return (.success, { h with hState := s.hState, headers := s.headers, inBuffer := str })
      else do
        let str ← substrFrom h.inBuffer (sizeT s.nowReadLineBegin)
        return (.again, { h with hState := s.hState, headers := s.headers, inBuffer := str })

/-! ### Which inputs are rejected

`headerStop` finds the state in which the loop rejects an input, reading the input once from the state it is
entered in. -/

def isEol (c : Byte) : Bool := c == cr || c == lf

def endsKey (c : Byte) : Bool := c == colon || isEol c

/-- After a colon, anything but a space is rejected. -/
def colonStop : Bytes → Option ParseState
  | [] => none
  | c :: _ => if c = space then none else some .colon

/-- A key, from `n` bytes behind its beginning on, ends with a colon; the end of a line inside it is rejected,
and so is a colon that is not behind its beginning as an `int`. -/
def keyStopFrom (n : Nat) (s : Bytes) : Option ParseState :=
  match s.dropWhile (fun c => !endsKey c) with
  | [] => none
  | c :: rest =>
      if c = colon ∧ 0 < toInt ((n + (s.takeWhile fun c => !endsKey c).length : Nat)) then colonStop rest
      else some .key

def keyStop (s : Bytes) : Option ParseState := keyStopFrom 1 s

/-- Leading line ends are skipped, and the first character of a key is not looked at. -/
def startStop (s : Bytes) : Option ParseState :=
  match s.dropWhile isEol with
  | [] => none
  | _ :: rest => keyStop rest

/-- Only `expected` may come next. -/
def expectStop (st : ParseState) (expected : Byte) : Bytes → Option ParseState
  | [] => none
  | c :: _ => if c = expected then none else some st

/-- A value of more than 255 bytes is rejected, and so is one that a line feed does not follow. -/
def valueStop (s : Bytes) : Option ParseState :=
  if 255 < (s.takeWhile (· ≠ cr)).length then some .value
  else
    match s.dropWhile (· ≠ cr) with
    | [] => none
    | _ :: rest => expectStop .cr lf rest

/-- After a complete line, the next key or the end of the header. -/
def lfStop : Bytes → Option ParseState
  | [] => none
  | c :: rest => if c = cr then expectStop .endCr lf rest else keyStop rest

/-- The state in which `parseHeaders`, entered in `st`, rejects the input `s`. -/
def headerStop (st : ParseState) (s : Bytes) : Option ParseState :=
  match st with
  | .start => startStop s
  | .key => keyStop s
  | .colon => colonStop s
  | .spacesAfterColon => none
  | .value => valueStop s
  | .cr => expectStop .cr lf s
  | .lf => lfStop s
  | .endCr => expectStop .endCr lf s
  | .endLf => none

theorem keyStopFrom_cons (n : Nat) (c : Byte) (rest : Bytes) : keyStopFrom n (c :: rest) =
    if c = colon then (if 0 < toInt n then colonStop rest else some .key)
    else if c = lf ∨ c = cr then some .key else keyStopFrom (n + 1) rest := by
  unfold keyStopFrom
  by_cases hcolon : c = colon
  · simp [endsKey, hcolon]
  · by_cases heol : c = lf ∨ c = cr
    · have : isEol c = true := by simpa [isEol, or_comm] using heol
      simp [endsKey, hcolon, heol, this]
    · have : isEol c = false := by simpa [isEol, not_or, and_comm] using heol
      simp [endsKey, hcolon, heol, this, Nat.add_assoc, Nat.add_comm 1]

/-- The positions of a short input do not wrap. -/
theorem keyStopFrom_short : ∀ {n m : Nat} {s : Bytes}, 0 < n → 0 < m → n + s.length ≤ 2 ^ 31 →
    m + s.length ≤ 2 ^ 31 → keyStopFrom n s = keyStopFrom m s
  | _, _, [], _, _, _, _ => rfl
  | n, m, c :: s, hn, hm, hlength, hlength' => by
      rw [List.length_cons] at hlength hlength'
      have hrest := keyStopFrom_short (s := s) (Nat.succ_pos n) (Nat.succ_pos m) (by omega) (by omega)
      have hlate : 0 < toInt n := by
        rw [toInt_of_lt (by omega)]
        omega
      have hlate' : 0 < toInt m := by
        rw [toInt_of_lt (by omega)]
        omega
      rw [keyStopFrom_cons, keyStopFrom_cons, if_pos hlate, if_pos hlate', hrest]

@[simp] theorem keyStop_nil : keyStop [] = none := rfl

theorem keyStop_cons {c : Byte} {rest : Bytes} (hshort : (c :: rest).length < 2 ^ 31) : keyStop (c :: rest) =
    if c = colon then colonStop rest else if c = lf ∨ c = cr then some .key else keyStop rest := by
  rw [List.length_cons] at hshort
  rw [keyStop, keyStopFrom_cons, if_pos (show 0 < toInt (1 : Nat) by decide),
    keyStopFrom_short (m := 1) (by decide) (by decide) (by omega) (by omega), keyStop]

@[simp] theorem startStop_nil : startStop [] = none := rfl

theorem startStop_cons (c : Byte) (rest : Bytes) : startStop (c :: rest) =
    if c = cr ∨ c = lf then startStop rest else keyStop rest := by
  unfold startStop
  by_cases heol : c = cr ∨ c = lf
  · have : isEol c = true := by simpa [isEol] using heol
    simp [heol, this]
  · have : isEol c = false := by simpa [isEol, not_or] using heol
    simp [heol, this]

/-! ### Where the other inputs end -/

/-- The state after a colon and what follows it. -/
def colonEnd : Bytes → ParseState
  | [] => .colon
  | _ :: _ => .spacesAfterColon

/-- The state after a part of a key, or a key and what follows it. -/
def keyEnd (s : Bytes) : ParseState :=
  match s.dropWhile (fun c => !endsKey c) with
  | [] => .key
  | _ :: rest => colonEnd rest

/-- The state in which `parseHeaders`, entered in a state that reads no value, leaves an input that it
does not reject. -/
def plainEnd (st : ParseState) (s : Bytes) : ParseState :=
  match st with
  | .start =>
      match s.dropWhile isEol with
      | [] => .start
      | _ :: rest => keyEnd rest
  | .key => keyEnd s
  | .colon => colonEnd s
  | st => st

/-- Where the input is to be cut, from position `i` on: at the first character that is not of a line end. -/
def cutAt (i : Nat) (start : Int) (s : Bytes) : Int :=
  match s.dropWhile isEol with
  | [] => start
  | _ :: _ => toInt ((i + (s.takeWhile isEol).length : Nat))

/-- The position at which an input that is not rejected is cut. -/
def keptFrom (st : ParseState) (s : Bytes) : Nat := sizeT (if st = .start then cutAt 0 0 s else 0)

/-- What is kept of that input: the line ends before a key are cut off. -/
def kept (st : ParseState) (s : Bytes) : Bytes := s.drop (keptFrom st s)

theorem keyEnd_cons (c : Byte) (rest : Bytes) :
    keyEnd (c :: rest) = if endsKey c then colonEnd rest else keyEnd rest := by
  unfold keyEnd
  cases hc : endsKey c with
  | true => rw [List.dropWhile_cons_of_neg (by simp [hc]), if_pos rfl]
  | false => rw [List.dropWhile_cons_of_pos (by simp [hc]), if_neg Bool.false_ne_true]

/-- The states that the loop, entered in one of them, never leaves: it reads no value. -/
def ParseState.Plain (st : ParseState) : Prop :=
  st = .start ∨ st = .key ∨ st = .colon ∨ st = .spacesAfterColon

section Loop

variable {str : Bytes}

theorem headerLoop_next {c : Byte} {rest : Bytes} {i : Nat} {s s' : HeaderScan}
    (hrun : s.notFinish = true) (hstep : headerStep str i c s = .next s') :
    headerLoop str (c :: rest) i s = headerLoop str rest (i + 1) s' := by
  simp only [headerLoop, hrun, if_true, hstep]

theorem headerLoop_reject {c : Byte} {rest : Bytes} {i : Nat} {s s' : HeaderScan}
    (hrun : s.notFinish = true) (hstep : headerStep str i c s = .reject s') :
    headerLoop str (c :: rest) i s = .rejected s' := by
  simp only [headerLoop, hrun, if_true, hstep]

/-- The loop ends in a rejection in the given state, or at the end of the input: in the state `st`, and
with the input to be cut at `start`. It reads no header. -/
def PlainLoop (headers : HeaderMap) (start : Int) (st : ParseState) (e : ScanEnd) :
    Option ParseState → Prop
  | some st' => ∃ s, e = .rejected s ∧ s.hState = st' ∧ st'.Plain ∧ s.headers = headers
  | none => ∃ i s, e = .finished i s ∧ s.hState = st ∧ st.Plain ∧ s.headers = headers ∧
      s.nowReadLineBegin = start

theorem headerLoop_spaces : ∀ (rest : Bytes) (i : Nat) (s : HeaderScan),
    s.hState = .spacesAfterColon → s.notFinish = true →
    PlainLoop s.headers s.nowReadLineBegin .spacesAfterColon (headerLoop str rest i s) none
  | [], i, s, hst, _ => ⟨i, s, rfl, hst, Or.inr (Or.inr (Or.inr rfl)), rfl, rfl⟩
  | c :: rest, i, s, hst, hrun => by
      have hstep : headerStep str i c s = .next { s with vauleStart := toInt i } := by
        simp only [headerStep, hst]
      rw [headerLoop_next hrun hstep]
      exact headerLoop_spaces rest (i + 1) { s with vauleStart := toInt i } hst hrun

theorem headerLoop_colon (rest : Bytes) (i : Nat) (s : HeaderScan) (hst : s.hState = .colon)
    (hrun : s.notFinish = true) :
    PlainLoop s.headers s.nowReadLineBegin (colonEnd rest) (headerLoop str rest i s) (colonStop rest) := by
  cases rest with
  | nil => exact ⟨i, s, rfl, hst, Or.inr (Or.inr (Or.inl rfl)), rfl, rfl⟩
  | cons c rest =>
      by_cases hspace : c = space
      · have hstep : headerStep str i c s = .next { s with hState := .spacesAfterColon } := by
          simp only [headerStep, hst, if_pos hspace]
        rw [headerLoop_next hrun hstep, colonStop, if_pos hspace]
        exact headerLoop_spaces rest (i + 1) { s with hState := .spacesAfterColon } rfl hrun
      · have hstep : headerStep str i c s = .reject s := by
          simp only [headerStep, hst, if_neg hspace]
        rw [headerLoop_reject hrun hstep, colonStop, if_neg hspace]
        exact ⟨s, rfl, hst, Or.inr (Or.inr (Or.inl rfl)), rfl⟩

theorem headerLoop_key : ∀ (rest : Bytes) (i n : Nat) (s : HeaderScan), s.hState = .key →
    s.notFinish = true → s.keyStart = toInt (i - n) →
    PlainLoop s.headers s.nowReadLineBegin (keyEnd rest) (headerLoop str rest i s) (keyStopFrom n rest)
  | [], i, _, s, hst, _, _ => ⟨i, s, rfl, hst, Or.inr (Or.inl rfl), rfl, rfl⟩
  | c :: rest, i, n, s, hst, hrun, hkey => by
      rw [keyStopFrom_cons, keyEnd_cons]
      by_cases hcolon : c = colon
      · have hdistance : toInt (toInt i - s.keyStart) = toInt n := by
          rw [hkey, toInt_sub_toInt, Int.sub_sub_self]
        have hends : endsKey c = true := by simp [endsKey, hcolon]
        rw [if_pos hcolon, if_pos hends]
        by_cases hlate : 0 < toInt n
        · have hstep : headerStep str i c s =
              .next { s with keyEnd := toInt i, hState := .colon } := by
            simp only [headerStep, hst, if_pos hcolon, hdistance, if_neg (Int.not_le.mpr hlate)]
          rw [headerLoop_next hrun hstep, if_pos hlate]
          exact headerLoop_colon rest (i + 1) { s with keyEnd := toInt i, hState := .colon } rfl hrun
        · have hstep : headerStep str i c s = .reject { s with keyEnd := toInt i } := by
            simp only [headerStep, hst, if_pos hcolon, hdistance, if_pos (Int.not_lt.mp hlate)]
          rw [headerLoop_reject hrun hstep, if_neg hlate]
          exact ⟨_, rfl, hst, Or.inr (Or.inl rfl), rfl⟩
      · rw [if_neg hcolon]
        by_cases heol : c = lf ∨ c = cr
        · have hstep : headerStep str i c s = .reject s := by
            simp only [headerStep, hst, if_neg hcolon, if_pos heol]
          rw [headerLoop_reject hrun hstep, if_pos heol]
          exact ⟨s, rfl, hst, Or.inr (Or.inl rfl), rfl⟩
        · have hstep : headerStep str i c s = .next s := by
            simp only [headerStep, hst, if_neg hcolon, if_neg heol]
          have hends : ¬ endsKey c = true := by simpa [endsKey, isEol, hcolon, or_comm] using heol
          rw [headerLoop_next hrun hstep, if_neg heol, if_neg hends]
          refine headerLoop_key rest (i + 1) (n + 1) s hst hrun (hkey.trans (congrArg toInt ?_))
          push_cast
          omega

/-- The key begins at the character before. -/
theorem keyStart_behind (i : Nat) : toInt i = toInt ((i + 1 : Nat) - (1 : Nat)) :=
  congrArg toInt (by push_cast; omega)

theorem headerLoop_start : ∀ (rest : Bytes) (i : Nat) (s : HeaderScan), s.hState = .start →
    s.notFinish = true →
    PlainLoop s.headers (cutAt i s.nowReadLineBegin rest) (plainEnd .start rest) (headerLoop str rest i s)
      (startStop rest)
  | [], i, s, hst, _ => ⟨i, s, rfl, hst, Or.inl rfl, rfl, rfl⟩
  | c :: rest, i, s, hst, hrun => by
      rw [startStop_cons]
      by_cases heol : c = cr ∨ c = lf
      · have hstep : headerStep str i c s = .next s := by
          simp only [headerStep, hst, if_pos heol]
        have hc : isEol c = true := by simpa [isEol] using heol
        have hcut : cutAt i s.nowReadLineBegin (c :: rest) = cutAt (i + 1) s.nowReadLineBegin rest := by
          unfold cutAt
          rw [List.dropWhile_cons_of_pos hc, List.takeWhile_cons_of_pos hc, List.length_cons, Nat.add_assoc,
            Nat.add_comm 1]
        rw [headerLoop_next hrun hstep, if_pos heol, hcut,
          show plainEnd .start (c :: rest) = plainEnd .start rest by
            rw [plainEnd, plainEnd, List.dropWhile_cons_of_pos hc]]
        exact headerLoop_start rest (i + 1) s hst hrun
      · have hstep : headerStep str i c s =
            .next { s with hState := .key, keyStart := toInt i, nowReadLineBegin := toInt i } := by
          simp only [headerStep, hst, if_neg heol]
        have hc : ¬ isEol c = true := by simpa [isEol] using heol
        have hcut : cutAt i s.nowReadLineBegin (c :: rest) = toInt i := by
          unfold cutAt
          rw [List.dropWhile_cons_of_neg hc, List.takeWhile_cons_of_neg hc]
          rfl
        rw [headerLoop_next hrun hstep, if_neg heol, hcut,
          show plainEnd .start (c :: rest) = keyEnd rest by
            rw [plainEnd, List.dropWhile_cons_of_neg hc]]
        exact headerLoop_key rest (i + 1) 1
          { s with hState := .key, keyStart := toInt i, nowReadLineBegin := toInt i } rfl hrun
          (keyStart_behind i)

/-- The loop ends in a rejection in the given state, or in no rejection. -/
def Agrees (headers : HeaderMap) (e : ScanEnd) : Option ParseState → Prop
  | some st => ∃ s, e = .rejected s ∧ s.hState = st ∧ s.headers = headers
  | none => ∀ s, e ≠ .rejected s

theorem PlainLoop.agrees {headers : HeaderMap} {start : Int} {st : ParseState} {e : ScanEnd}
    {stop : Option ParseState} (h : PlainLoop headers start st e stop) : Agrees headers e stop := by
  cases stop with
  | some st =>
      obtain ⟨s, he, hst, _, hheaders⟩ := h
      exact ⟨s, he, hst, hheaders⟩
  | none =>
      obtain ⟨i, s, he, _⟩ := h
      intro s' hs'
      rw [he] at hs'
      cases hs'

theorem headerLoop_stopped (rest : Bytes) (i : Nat) (s : HeaderScan) (h : s.notFinish = false) :
    headerLoop str rest i s = .finished i s := by
  cases rest <;> simp [headerLoop, h]

theorem headerLoop_endLf (rest : Bytes) (i : Nat) (s : HeaderScan) (hst : s.hState = .endLf)
    (hrun : s.notFinish = true) : Agrees s.headers (headerLoop str rest i s) none := by
  intro s'
  cases rest with
  | nil => simp [headerLoop]
  | cons c rest =>
      have hstep : headerStep str i c s = .next { s with
          notFinish := false, keyStart := toInt i, nowReadLineBegin := toInt i } := by
        simp only [headerStep, hst]
      rw [headerLoop_next hrun hstep, headerLoop_stopped _ _ _ rfl]
      simp

theorem headerLoop_endCr (rest : Bytes) (i : Nat) (s : HeaderScan) (hst : s.hState = .endCr)
    (hrun : s.notFinish = true) :
    Agrees s.headers (headerLoop str rest i s) (expectStop .endCr lf rest) := by
  cases rest with
  | nil =>
      intro s'
      simp [headerLoop]
  | cons c rest =>
      by_cases hlf : c = lf
      · have hstep : headerStep str i c s = .next { s with hState := .endLf } := by
          simp only [headerStep, hst, if_pos hlf]
        rw [headerLoop_next hrun hstep, expectStop, if_pos hlf]
        exact headerLoop_endLf rest (i + 1) { s with hState := .endLf } rfl hrun
      · have hstep : headerStep str i c s = .reject s := by
          simp only [headerStep, hst, if_neg hlf]
        rw [headerLoop_reject hrun hstep, expectStop, if_neg hlf]
        exact ⟨s, rfl, hst, rfl⟩

theorem headerLoop_lf (rest : Bytes) (i : Nat) (s : HeaderScan) (hst : s.hState = .lf)
    (hrun : s.notFinish = true) : Agrees s.headers (headerLoop str rest i s) (lfStop rest) := by
  cases rest with
  | nil =>
      intro s'
      simp [headerLoop]
  | cons c rest =>
      rw [lfStop]
      by_cases hcr : c = cr
      · have hstep : headerStep str i c s = .next { s with hState := .endCr } := by
          simp only [headerStep, hst, if_pos hcr]
        rw [headerLoop_next hrun hstep, if_pos hcr]
        exact headerLoop_endCr rest (i + 1) { s with hState := .endCr } rfl hrun
      · have hstep : headerStep str i c s = .next { s with keyStart := toInt i, hState := .key } := by
          simp only [headerStep, hst, if_neg hcr]
        rw [headerLoop_next hrun hstep, if_neg hcr]
        exact (headerLoop_key rest (i + 1) 1 { s with keyStart := toInt i, hState := .key } rfl hrun
          (keyStart_behind i)).agrees

/-- A header line whose key was begun in an earlier call has no key in this one: completing it takes
a slice outside the buffer. -/
theorem headerLoop_cr (rest : Bytes) (i : Nat) (s : HeaderScan) (hst : s.hState = .cr)
    (hrun : s.notFinish = true) (hkey : s.keyStart < 0) :
    Agrees s.headers (headerLoop str rest i s) (expectStop .cr lf rest) := by
  cases rest with
  | nil =>
      intro s'
      simp [headerLoop]
  | cons c rest =>
      by_cases hlf : c = lf
      · have hslice : slice str s.keyStart s.keyEnd = .error .badSlice :=
          if_neg fun h => absurd h.1 (by omega)
        have hstep : headerStep str i c s = .fault .badSlice := by
          simp only [headerStep, hst, if_pos hlf, hslice]
        rw [expectStop, if_pos hlf]
        intro s'
        simp [headerLoop, hrun, hstep]
      · have hstep : headerStep str i c s = .reject s := by
          simp only [headerStep, hst, if_neg hlf]
        rw [headerLoop_reject hrun hstep, expectStop, if_neg hlf]
        exact ⟨s, rfl, hst, rfl⟩

/-- `valueStop` with `i` bytes of the value already read. -/
def valueStopFrom (i : Nat) (s : Bytes) : Option ParseState :=
  if 255 < i + (s.takeWhile (· ≠ cr)).length then some .value
  else
    match s.dropWhile (· ≠ cr) with
    | [] => none
    | _ :: rest => expectStop .cr lf rest

theorem headerLoop_value : ∀ (rest : Bytes) (i : Nat) (s : HeaderScan), s.hState = .value →
    s.notFinish = true → s.keyStart < 0 → s.vauleStart = -1 → i ≤ 255 →
    Agrees s.headers (headerLoop str rest i s) (valueStopFrom i rest)
  | [], i, s, _, _, _, _, hi => by
      have : valueStopFrom i [] = none := by simp [valueStopFrom]; omega
      rw [this]
      intro s'
      simp [headerLoop]
  | c :: rest, i, s, hst, hrun, hkey, hvalue, hi => by
      by_cases hcr : c = cr
      · have hpos : ¬ toInt (toInt i - s.vauleStart) ≤ 0 := by
          rw [hvalue, toInt_of_lt (by omega), show (i : Int) - -1 = (i + 1 : Nat) by omega,
            toInt_of_lt (by omega)]
          omega
        have hstep : headerStep str i c s = .next { s with hState := .cr, valueEnd := toInt i } := by
          simp only [headerStep, hst, if_pos hcr, if_neg hpos]
        have hstop : valueStopFrom i (c :: rest) = expectStop .cr lf rest := by
          simp [valueStopFrom, hcr]
          omega
        rw [headerLoop_next hrun hstep, hstop]
        exact headerLoop_cr rest (i + 1) { s with hState := .cr, valueEnd := toInt i } rfl hrun hkey
      · have hcount : subSize i (sizeT s.vauleStart) = i + 1 := by
          rw [hvalue, show sizeT (-1) = npos by decide]
          simp only [subSize, sizeModulus, npos]
          omega
        by_cases hlong : i = 255
        · have hstep : headerStep str i c s = .reject s := by
            simp only [headerStep, hst, if_neg hcr, hcount]
            rw [if_pos (by omega)]
          have hstop : valueStopFrom i (c :: rest) = some .value := by
            simp [valueStopFrom, hcr, hlong]
          rw [headerLoop_reject hrun hstep, hstop]
          exact ⟨s, rfl, hst, rfl⟩
        · have hstep : headerStep str i c s = .next s := by
            simp only [headerStep, hst, if_neg hcr, hcount]
            rw [if_neg (by omega)]
          have hstop : valueStopFrom i (c :: rest) = valueStopFrom (i + 1) rest := by
            simp [valueStopFrom, hcr, Nat.add_assoc, Nat.add_comm 1]
          rw [headerLoop_next hrun hstep, hstop]
          exact headerLoop_value rest (i + 1) s hst hrun hkey hvalue (by omega)

end Loop

theorem headerLoop_plain (h : HttpData) (hplain : h.hState.Plain) :
    PlainLoop h.headers (if h.hState = .start then cutAt 0 0 h.inBuffer else 0) (plainEnd h.hState h.inBuffer)
      (headerLoop h.inBuffer h.inBuffer 0 (HeaderScan.init h)) (headerStop h.hState h.inBuffer) := by
  rcases hplain with hst | hst | hst | hst <;> rw [hst] <;> simp only [headerStop]
  · exact headerLoop_start h.inBuffer 0 (HeaderScan.init h) hst rfl
  · exact headerLoop_key h.inBuffer 0 1 (HeaderScan.init h) hst rfl rfl
  · exact headerLoop_colon h.inBuffer 0 (HeaderScan.init h) hst rfl
  · exact headerLoop_spaces h.inBuffer 0 (HeaderScan.init h) hst rfl

theorem headerLoop_agrees (h : HttpData) :
    Agrees h.headers (headerLoop h.inBuffer h.inBuffer 0 (HeaderScan.init h))
      (headerStop h.hState h.inBuffer) := by
  have hkey : (HeaderScan.init h).keyStart < 0 := by simp [HeaderScan.init]
  cases hst : h.hState with
  | start => exact hst ▸ (headerLoop_plain h (Or.inl hst)).agrees
  | key => exact hst ▸ (headerLoop_plain h (Or.inr (Or.inl hst))).agrees
  | colon => exact hst ▸ (headerLoop_plain h (Or.inr (Or.inr (Or.inl hst)))).agrees
  | spacesAfterColon => exact hst ▸ (headerLoop_plain h (Or.inr (Or.inr (Or.inr hst)))).agrees
  | value =>
      have hstop : headerStop .value h.inBuffer = valueStopFrom 0 h.inBuffer := by
        simp [headerStop, valueStop, valueStopFrom]
      rw [hstop]
      exact headerLoop_value h.inBuffer 0 _ hst rfl hkey rfl (Nat.zero_le _)
  | cr => exact headerLoop_cr h.inBuffer 0 _ hst rfl hkey
  | lf => exact headerLoop_lf h.inBuffer 0 _ hst rfl
  | endCr => exact headerLoop_endCr h.inBuffer 0 _ hst rfl
  | endLf => exact headerLoop_endLf h.inBuffer 0 _ hst rfl

/-- A rejected input is left as it is. -/
theorem parseHeaders_stop {h : HttpData} {st : ParseState}
    (hstop : headerStop h.hState h.inBuffer = some st) :
    parseHeaders h = .ok (.error, { h with hState := st }) := by
  have hagrees := headerLoop_agrees h
  rw [hstop] at hagrees
  obtain ⟨s, he, hst, hheaders⟩ := hagrees
  simp only [parseHeaders, he, hst, hheaders]

/-- `PARSE_HEADER_ERROR` is returned on the inputs that `headerStop` rejects and on no others. -/
theorem parseHeaders_error_iff {h h' : HttpData} {flag : HeaderState}
    (hparse : parseHeaders h = .ok (flag, h')) :
    flag = .error ↔ (headerStop h.hState h.inBuffer).isSome := by
  cases hstop : headerStop h.hState h.inBuffer with
  | some st =>
      rw [parseHeaders_stop hstop] at hparse
      cases hparse
      simp
  | none =>
      have hagrees := headerLoop_agrees h
      rw [hstop] at hagrees
      refine ⟨fun hflag => ?_, fun hsome => absurd hsome (by simp)⟩
      subst hflag
      unfold parseHeaders at hparse
      cases he : headerLoop h.inBuffer h.inBuffer 0 (HeaderScan.init h) with
      | rejected s => exact absurd he (hagrees s)
      | fault f => simp [he] at hparse
      | finished i s =>
          simp only [he] at hparse
          split_ifs at hparse
          · cases hsub : substrFrom h.inBuffer i <;> simp [hsub, bind, Except.bind, pure, Except.pure] at hparse
          · cases hsub : substrFrom h.inBuffer (sizeT s.nowReadLineBegin) <;>
              simp [hsub, bind, Except.bind, pure, Except.pure] at hparse

/-- The end of the loop on an input that is not rejected, in a plain state. -/
theorem headerLoop_waits {h : HttpData} (hplain : h.hState.Plain)
    (hstop : headerStop h.hState h.inBuffer = none) :
    parseHeaders h = (substrFrom h.inBuffer (keptFrom h.hState h.inBuffer)).map fun str =>
      (.again, { h with hState := plainEnd h.hState h.inBuffer, inBuffer := str }) := by
  have hloop := headerLoop_plain h hplain
  rw [hstop] at hloop
  obtain ⟨i, s, he, hst, hplain', hheaders, hbegin⟩ := hloop
  have hnot : plainEnd h.hState h.inBuffer ≠ .endLf := by
    rcases hplain' with h | h | h | h <;> rw [h] <;> decide
  have hcut : sizeT s.nowReadLineBegin = keptFrom h.hState h.inBuffer := congrArg sizeT hbegin
  simp only [parseHeaders, he, hst, hnot, if_false, hcut, hheaders]
  cases substrFrom h.inBuffer (keptFrom h.hState h.inBuffer) <;> rfl

/-- The input is cut at its header line, if that is inside it as a position, and is asked to be continued. -/
theorem parseHeaders_waits {h : HttpData} (hplain : h.hState.Plain)
    (hcut : keptFrom h.hState h.inBuffer ≤ h.inBuffer.length)
    (hstop : headerStop h.hState h.inBuffer = none) :
    parseHeaders h = .ok (.again, { h with
      hState := plainEnd h.hState h.inBuffer, inBuffer := kept h.hState h.inBuffer }) := by
  rw [headerLoop_waits hplain hstop, substrFrom_ok hcut]
  rfl

theorem parseHeaders_throws {h : HttpData} (hplain : h.hState.Plain)
    (hcut : h.inBuffer.length < keptFrom h.hState h.inBuffer)
    (hstop : headerStop h.hState h.inBuffer = none) : parseHeaders h = .error .substrRange := by
  rw [headerLoop_waits hplain hstop, substrFrom, if_pos hcut]
  rfl

/-- What the cut of a short input is. -/
theorem keptFrom_short (st : ParseState) {s : Bytes} (hshort : s.length < 2 ^ 31) :
    keptFrom st s = if st = .start ∧ s.dropWhile isEol ≠ [] then (s.takeWhile isEol).length else 0 := by
  have hlength := (List.takeWhile_sublist isEol (l := s)).length_le
  unfold keptFrom cutAt
  by_cases hst : st = .start
  · cases hrest : s.dropWhile isEol with
    | nil => simp [hst, sizeT]
    | cons c rest =>
        simp only [hst, if_true, Nat.zero_add, ne_eq, reduceCtorEq, not_false_eq_true, and_self]
        rw [toInt_of_lt (by omega), sizeT, sizeModulus]
        omega
  · simp [hst, sizeT]

theorem keptFrom_le (st : ParseState) {s : Bytes} (hshort : s.length < 2 ^ 31) :
    keptFrom st s ≤ s.length := by
  rw [keptFrom_short st hshort]
  split_ifs
  · exact (List.takeWhile_sublist isEol).length_le
  · exact Nat.zero_le _

theorem kept_length_le (st : ParseState) (s : Bytes) : (kept st s).length ≤ s.length :=
  (List.drop_sublist _ _).length_le

theorem kept_later {st : ParseState} (hst : st ≠ .start) (s : Bytes) : kept st s = s := by
  rw [kept, keptFrom, if_neg hst]
  rfl

theorem kept_start {s : Bytes} (hshort : s.length < 2 ^ 31) :
    kept .start s = if s.dropWhile isEol = [] then s else s.dropWhile isEol := by
  have hsplit : s.drop (s.takeWhile isEol).length = s.dropWhile isEol := by
    have happend := List.takeWhile_append_dropWhile (p := isEol) (l := s)
    calc s.drop (s.takeWhile isEol).length
        = (s.takeWhile isEol ++ s.dropWhile isEol).drop (s.takeWhile isEol).length := by rw [happend]
      _ = s.dropWhile isEol := List.drop_left
  rw [kept, keptFrom_short .start hshort]
  by_cases hrest : s.dropWhile isEol = []
  · simp [hrest]
  · simp [hrest, hsplit]

theorem plainEnd_plain {st : ParseState} {s : Bytes} (hplain : st.Plain) (hstop : headerStop st s = none) :
    (plainEnd st s).Plain := by
  have hloop := headerLoop_plain { HttpData.new 0 with hState := st, inBuffer := s } hplain
  rw [show headerStop _ _ = none from hstop] at hloop
  obtain ⟨_, _, _, _, hplain', _⟩ := hloop
  exact hplain'

/-- The state in which a scan from a plain state is rejected is a plain one. -/
theorem headerStop_plain {st st' : ParseState} {s : Bytes} (hplain : st.Plain)
    (hstop : headerStop st s = some st') : st'.Plain := by
  have hloop := headerLoop_plain { HttpData.new 0 with hState := st, inBuffer := s } hplain
  rw [show headerStop _ _ = some st' from hstop] at hloop
  obtain ⟨_, _, _, hst, _⟩ := hloop
  exact hst

/-- The parser answers `PARSE_HEADER_ERROR` or `PARSE_HEADER_AGAIN` in a plain state. -/
theorem parseHeaders_plain {h h' : HttpData} {flag : HeaderState} (hplain : h.hState.Plain)
    (hparse : parseHeaders h = .ok (flag, h')) : flag ≠ .success := by
  cases hstop : headerStop h.hState h.inBuffer with
  | none =>
      rw [headerLoop_waits hplain hstop] at hparse
      cases hcut : substrFrom h.inBuffer (keptFrom h.hState h.inBuffer) with
      | error f =>
          rw [hcut] at hparse
          cases hparse
      | ok str =>
          rw [hcut] at hparse
          cases hparse
          decide
  | some st =>
      rw [parseHeaders_stop hstop] at hparse
      cases hparse
      decide

end WebServer
