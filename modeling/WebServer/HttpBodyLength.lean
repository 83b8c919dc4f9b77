import WebServer.HttpUnanswered

/-! The length of a body, in the state in which `handleRead` waits for the body of a request. It is the
text a client sent as its `Content-length`, read by `std::stoi`, and it is compared with the size of the
input as an `int`. The theorem says for which texts, and for how much input, that decides rightly: first of
all the input has to be logged. -/

namespace WebServer

open Stages

def INT_MAX : Nat := 2147483647

/-- The text is a number, written with digits alone. -/
def IsNumeral (value : Bytes) : Prop := value ≠ [] ∧ ∀ b ∈ value, isDigit b = true

instance (value : Bytes) : Decidable (IsNumeral value) := inferInstanceAs (Decidable (_ ∧ _))

theorem digit_not_space {b : Byte} (hb : isDigit b = true) : isSpace b = false ∧ b ≠ 45 ∧ b ≠ 43 := by
  rw [isDigit, Bool.and_eq_true, decide_eq_true_iff, decide_eq_true_iff, UInt8.le_iff_toNat_le,
    UInt8.le_iff_toNat_le] at hb
  obtain ⟨hge, -⟩ := hb
  have hne : ∀ n : Byte, n.toNat < 48 → b ≠ n := by
    rintro n hn rfl
    exact absurd hge (Nat.not_le.mpr hn)
  have hwhite : ¬ b ≤ 13 := by
    rw [UInt8.le_iff_toNat_le]
    exact Nat.not_le.mpr (lt_of_lt_of_le (by decide) hge)
  refine ⟨?_, hne 45 (by decide), hne 43 (by decide)⟩
  simp [isSpace, hne 32 (by decide), hwhite]

/-- `std::stoi` reads a numeral as its value, if that is an `int`. -/
theorem stoi_numeral {value : Bytes} (hvalue : IsNumeral value) :
    stoi value = if digitsValue value ≤ INT_MAX then .ok (digitsValue value : Int) else .error .stoiRange := by
  obtain ⟨hne, hdigits⟩ := hvalue
  have hall : value.takeWhile isDigit = value := List.takeWhile_eq_self_iff.mpr hdigits
  have hrest : stoi value = stoiDigits false value := by
    cases value with
    | nil => exact absurd rfl hne
    | cons b rest =>
        obtain ⟨hspace, hminus, hplus⟩ := digit_not_space (hdigits b List.mem_cons_self)
        unfold stoi
        rw [List.dropWhile_cons_of_neg (by simp [hspace])]
        split
        · rename_i heq
          exact absurd (List.cons.inj heq).1 hminus
        · rename_i heq
          exact absurd (List.cons.inj heq).1 hplus
        · rfl
  have hrange : (-2147483648 ≤ (digitsValue value : Int) ∧ (digitsValue value : Int) ≤ 2147483647) ↔
      digitsValue value ≤ INT_MAX := by
    rw [INT_MAX]
    omega
  rw [hrest, stoiDigits]
  simp only [hall, if_neg hne, Bool.false_eq_true, if_false, hrange]

/-- A connection that waits for the body of a request, about to read more of it. -/
structure InBody (c : Conn) : Prop where
  connected : c.http.connectionState = .connected
  state : c.http.state = .recvBody
  error : c.http.error = false
  read : 0 ≤ (readn c.sock.reads c.http.inBuffer).value
  more : (readn c.sock.reads c.http.inBuffer).zero = false

/-- The connection stays in `STATE_RECV_BODY`, and not in error. -/
def Waits (host : Host) (c : Conn) : Prop := handleReadBody host c = .ok (.brk, c.afterRead)

/-- The body is there, and the request is analysed. -/
def GoesOn (host : Host) (c : Conn) : Prop :=
  handleReadBody host c = analysisSection host.files { c.afterRead with http.state := .analysis }

/-- The request is answered with a 400 error response, and the connection is in error. -/
def Refuses (host : Host) (c : Conn) : Prop :=
  ∃ d shortMsg, handleReadBody host c = .ok (.brk, d) ∧ d.http.error = true ∧
    d.calls = c.calls ++ [.handleError 400 shortMsg]

/-- The bytes there are to the body of the request, after the read. -/
def Conn.bodySize (c : Conn) : Nat := c.afterRead.http.inBuffer.length

/-- The length of the body is handled: there is no exception, a body with a length that is a number is
waited for until it is there, and any other length is refused. -/
structure LengthHandled (host : Host) (c : Conn) (value : Bytes) : Prop where
  total : ∃ c', handleRead host c = .ok c'
  waits : IsNumeral value → digitsValue value ≤ INT_MAX → (Waits host c ↔ c.bodySize < digitsValue value)
  goesOn : IsNumeral value → digitsValue value ≤ INT_MAX → (GoesOn host c ↔ digitsValue value ≤ c.bodySize)
  refuses : ¬ (IsNumeral value ∧ digitsValue value ≤ INT_MAX) → Refuses host c

/-- The length is a number that is an `int`, and not one that the size of the input passes as a number
but not as an `int`. -/
def LengthSound (size : Nat) (value : Bytes) : Prop :=
  IsNumeral value ∧ digitsValue value ≤ INT_MAX ∧
    ¬ (digitsValue value ≤ size ∧ toInt size < digitsValue value)

instance (size : Nat) (value : Bytes) : Decidable (LengthSound size value) :=
  inferInstanceAs (Decidable (_ ∧ _ ∧ _))

/-- The size is an `int` whenever it is less than an `int`. -/
theorem LengthSound.lt_iff {size : Nat} {value : Bytes} (h : LengthSound size value) :
    toInt size < digitsValue value ↔ size < digitsValue value := by
  obtain ⟨-, hmax, hclip⟩ := h
  constructor
  · intro hlt
    exact Nat.not_le.mp fun hle => hclip ⟨hle, hlt⟩
  · intro hlt
    rw [INT_MAX] at hmax
    rw [toInt_of_lt (by omega)]
    exact_mod_cast hlt

/-- The request is answered with a success, the write of which does not fail, and there is input left behind
it: `handleRead` calls itself. -/
structure Continues (fs : FileSystem) (c : Conn) : Prop where
  method : c.http.method ≠ .post
  name : c.http.fileName ≠ bytes "hello"
  file : c.http.fileName = bytes "favicon.ico" ∨ Sendable (fs (cstr c.http.fileName)) c.http.method
  written : 0 ≤ toInt (writenString c.sock (c.http.outBuffer ++ analysisResponse fs c.http)).value
  input : c.http.inBuffer ≠ []

/-- What it takes to handle the length: the input is logged; if the number of bytes read is negative as an
`int`, the read is taken for one that failed, which is right for a length that is refused; otherwise the length
is a sound one, and the call that `handleRead` makes of itself has its records and can cut its header. -/
structure LengthFit (host : Host) (c : Conn) (value : Bytes) : Prop where
  logged : host.logRequest c.afterRead.http.inBuffer = .ok ()
  failed : toInt (readn c.sock.reads c.http.inBuffer).value < 0 →
    ¬ (IsNumeral value ∧ digitsValue value ≤ INT_MAX)
  sound : 0 ≤ toInt (readn c.sock.reads c.http.inBuffer).value → LengthSound c.bodySize value
  again : 0 ≤ toInt (readn c.sock.reads c.http.inBuffer).value → digitsValue value ≤ c.bodySize →
    Continues host.files c.afterRead → (reset c.afterRead).Logged host

section

variable {host : Host} {c : Conn} {value : Bytes}

theorem InBody.open (hc : InBody c) : c.http.connectionState ≠ .disconnecting := by
  rw [hc.connected]
  decide

theorem handleReadBody_body (hc : InBody c) (hlog : host.logRequest c.afterRead.http.inBuffer = .ok ())
    (hread : 0 ≤ toInt (readn c.sock.reads c.http.inBuffer).value) :
    handleReadBody host c = Stage.seq bodySection (analysisSection host.files) c.afterRead := by
  have hstate : c.afterRead.http.state = .recvBody := hc.state
  have hsection := readSection_next host hc.open hread hc.more
  rw [hlog] at hsection
  rw [handleReadBody, seq_next hsection, seq_next (uriSection_skip host (by simp [hstate])), headerSections,
    seq_next (headersSection_skip host (by simp [hstate]))]

/-- A length that `std::stoi` reads is compared with the size as an `int`. -/
theorem handleReadBody_length {n : Int} (hc : InBody c)
    (hlog : host.logRequest c.afterRead.http.inBuffer = .ok ())
    (hread : 0 ≤ toInt (readn c.sock.reads c.http.inBuffer).value)
    (hlength : c.http.headers.find (bytes "Content-length") = some value) (hvalue : stoi value = .ok n) :
    handleReadBody host c = if toInt c.bodySize < n then .ok (.brk, c.afterRead)
      else analysisSection host.files { c.afterRead with http.state := .analysis } := by
  have hsection := bodySection_length (c := c.afterRead) hc.state hlength
  rw [hvalue] at hsection
  rw [handleReadBody_body hc hlog hread, Conn.bodySize]
  split_ifs with hlt
  · apply seq_brk
    rw [hsection, Except.map, if_pos hlt]
  · apply seq_next
    rw [hsection, Except.map, if_neg hlt]

theorem handleRead_of_fault {f : Fault} (hbody : handleReadBody host c = .error f) :
    handleRead host c = .error f := by
  simp only [handleRead, handleReadN, handleReadPass, hbody, bind, Except.bind]

/-- Any other length is an exception. -/
theorem handleRead_throws {f : Fault} (hc : InBody c)
    (hlog : host.logRequest c.afterRead.http.inBuffer = .ok ())
    (hread : 0 ≤ toInt (readn c.sock.reads c.http.inBuffer).value)
    (hlength : c.http.headers.find (bytes "Content-length") = some value) (hvalue : stoi value = .error f) :
    handleRead host c = .error f := by
  have hsection := bodySection_length (c := c.afterRead) hc.state hlength
  rw [hvalue] at hsection
  exact handleRead_of_fault ((handleReadBody_body hc hlog hread).trans (seq_error hsection))

/-- A read taken for one that failed. -/
theorem handleReadBody_fails (hc : InBody c) (hlog : host.logRequest c.afterRead.http.inBuffer = .ok ())
    (hread : toInt (readn c.sock.reads c.http.inBuffer).value < 0) :
    handleReadBody host c = .ok (.brk, rejected (bytes "Bad Request") c.afterRead) := by
  have hsection := readSection_fails host hc.open hread
  rw [hlog] at hsection
  exact seq_brk hsection

/-- The analysis ends the pass, in error or with the request finished. -/
theorem analysisSection_reaches (fs : FileSystem) (hstate : c.http.state = .analysis) :
    ∃ d, analysisSection fs c = .ok (.brk, d) ∧ (d.http.error = true ∨ d.http.state = .finish) := by
  rw [analysisSection, if_pos hstate]
  obtain ⟨-, hrun⟩ | ⟨-, -, hrun⟩ | ⟨-, -, -, hrun⟩ | ⟨-, -, -, -, -, hrun⟩ :=
    analysisRequest_results fs c
  · rw [hrun]
    exact ⟨_, rfl, Or.inl rfl⟩
  · rw [hrun]
    exact ⟨_, rfl, Or.inl rfl⟩
  · rw [hrun]
    exact ⟨_, rfl, Or.inr rfl⟩
  · rw [hrun]
    exact ⟨_, rfl, Or.inl rfl⟩

/-- An error response of the analysis is no 400 response. -/
theorem analysisSection_not_bad {fs : FileSystem} {d : Conn} {flow : Flow} {shortMsg : Bytes}
    (hrun : analysisSection fs c = .ok (flow, d)) (hstate : c.http.state = .analysis) :
    d.calls ≠ c.calls ++ [.handleError 400 shortMsg] := by
  rw [analysisSection, if_pos hstate] at hrun
  obtain ⟨-, hrun'⟩ | ⟨-, -, hrun'⟩ | ⟨-, -, -, hrun'⟩ | ⟨-, -, -, -, -, hrun'⟩ :=
    analysisRequest_results fs c
  all_goals
    rw [hrun'] at hrun
    cases hrun
    simp [answered, refused]

/-- A body that does not finish a request is all of `handleRead`. -/
theorem handleRead_total {d : Conn} {flow : Flow} (hbody : handleReadBody host c = .ok (flow, d))
    (hend : d.http.error = true ∨ d.http.state ≠ .finish) : ∃ c', handleRead host c = .ok c' := by
  cases herror : d.http.error with
  | true => exact ⟨d, handleRead_of_error hbody herror⟩
  | false =>
      refine ⟨_, handleRead_of_write hbody herror (hend.resolve_left fun h => ?_)⟩
      cases herror.symm.trans h

/-- Behind a request that is finished there is a self-call where the write does not fail and input is left. -/
theorem handleRead_finished_iff {d : Conn} (hpass : handleReadPass host c = .ok (handleWrite d))
    (herror : d.http.error = false) (hfinish : d.http.state = .finish)
    (hconn : d.http.connectionState = .connected) :
    (∃ c', handleRead host c = .ok c') ↔
      (0 ≤ toInt (writenString d.sock d.http.outBuffer).value → d.http.inBuffer ≠ [] →
        (reset d).Logged host) := by
  have hopen : d.http.connectionState ≠ .disconnected ∧ d.http.connectionState ≠ .disconnecting := by
    rw [hconn]
    decide
  have hsame := handleWrite_sameInput d
  have hreset : SameInput (reset (handleWrite d)) (reset d) :=
    ⟨hsame.fd, hsame.inBuffer, hsame.connectionState, hsame.method, hsame.httpVersion, rfl, rfl, rfl, rfl,
      hsame.reads⟩
  rw [handleRead_returns_iff hpass, hreset.logged_iff host, Conn.CallsAgain, (handleWrite_open herror hopen.1).2.2,
    handleWrite_state, hsame.inBuffer, hsame.connectionState]
  exact ⟨fun h hwritten hleft => h ⟨hwritten, hfinish, hleft, hopen.2⟩, fun h hagain => h hagain.1 hagain.2.2.1⟩

/-- After the analysis `handleRead` returns just if its self-call does, where it comes to one. -/
theorem handleRead_analysis_iff (hc : InBody c) (hon : GoesOn host c) :
    (∃ c', handleRead host c = .ok c') ↔
      (Continues host.files c.afterRead → (reset c.afterRead).Logged host) := by
  have hsection (flag : AnalysisState) (d : Conn)
      (hrun : analysisRequest host.files { c.afterRead with http.state := .analysis } = .ok (flag, d)) :
      handleReadBody host c = .ok (.brk,
        if flag = .success then { d with http.state := .finish } else { d with http.error := true }) := by
    rw [hon, analysisSection, if_pos rfl, hrun]
    simp only [bind, Except.bind, pure, Except.pure]
    split_ifs <;> rfl
  rcases analysisRequest_results host.files { c.afterRead with http.state := .analysis } with
    ⟨hpost, hrun⟩ | ⟨-, hhello, hrun⟩ | ⟨hpost, hhello, hsend, hrun⟩ |
    ⟨-, -, hfavicon, hsend, -, hrun⟩
  · exact iff_of_true (handleRead_total (hsection _ _ hrun) (Or.inl rfl)) fun h => absurd hpost h.method
  · exact iff_of_true (handleRead_total (hsection _ _ hrun) (Or.inl rfl)) fun h => absurd hhello h.name
  · have hbody := hsection _ _ hrun
    rw [if_pos rfl] at hbody
    have hpass := handleReadPass_write hbody hc.error
    rw [handleRead_finished_iff hpass hc.error rfl hc.connected]
    exact ⟨fun h hagain => h hagain.written hagain.input,
      fun h hwritten hleft => h ⟨hpost, hhello, hsend, hwritten, hleft⟩⟩
  · refine iff_of_true (handleRead_total (hsection _ _ hrun) (Or.inl rfl)) fun h => ?_
    exact absurd h.file (not_or.mpr ⟨hfavicon, hsend⟩)

theorem not_waits_and_goesOn (hc : InBody c) (hwaits : Waits host c) : ¬ GoesOn host c := by
  intro hon
  obtain ⟨d, hrun, hend⟩ :=
    analysisSection_reaches (c := { c.afterRead with http.state := .analysis }) host.files rfl
  have hd : d = c.afterRead := by
    have h := hwaits.symm.trans (hon.trans hrun)
    cases h
    rfl
  rcases hend with herror | hfinish
  · rw [hd] at herror
    exact absurd (hc.error.symm.trans herror) (by decide)
  · rw [hd] at hfinish
    exact absurd (hc.state.symm.trans hfinish) (by decide)

theorem not_waits_and_refuses (hc : InBody c) (hwaits : Waits host c) : ¬ Refuses host c := by
  rintro ⟨d, shortMsg, hrun, herror, -⟩
  cases hwaits.symm.trans hrun
  exact absurd (hc.error.symm.trans herror) (by decide)

theorem not_goesOn_and_refuses (hon : GoesOn host c) : ¬ Refuses host c := by
  rintro ⟨d, shortMsg, hrun, -, hcalls⟩
  exact analysisSection_not_bad (hon.symm.trans hrun) rfl hcalls

/-- A length that `std::stoi` reads is waited for or taken. -/
theorem waits_or_goesOn {n : Int} (hc : InBody c)
    (hlog : host.logRequest c.afterRead.http.inBuffer = .ok ())
    (hread : 0 ≤ toInt (readn c.sock.reads c.http.inBuffer).value)
    (hlength : c.http.headers.find (bytes "Content-length") = some value) (hvalue : stoi value = .ok n) :
    (toInt c.bodySize < n ∧ Waits host c) ∨ (¬ toInt c.bodySize < n ∧ GoesOn host c) := by
  have hbody := handleReadBody_length hc hlog hread hlength hvalue
  split_ifs at hbody with hlt
  · exact Or.inl ⟨hlt, hbody⟩
  · exact Or.inr ⟨hlt, hbody⟩

theorem refuses_of_failed (hc : InBody c) (hlog : host.logRequest c.afterRead.http.inBuffer = .ok ())
    (hread : toInt (readn c.sock.reads c.http.inBuffer).value < 0) : Refuses host c :=
  ⟨_, bytes "Bad Request", handleReadBody_fails hc hlog hread, rfl, rfl⟩

theorem LengthHandled.fit (hc : InBody c) (hlength : c.http.headers.find (bytes "Content-length") = some value)
    (h : LengthHandled host c value) : LengthFit host c value := by
  obtain ⟨c', hrun⟩ := h.total
  have hlog := handleRead_record hrun
  have hsound (hread : 0 ≤ toInt (readn c.sock.reads c.http.inBuffer).value) :
      LengthSound c.bodySize value := by
    cases hstoi : stoi value with
    | error f =>
        rw [handleRead_throws hc hlog hread hlength hstoi] at hrun
        cases hrun
    | ok n =>
        have hdecided := waits_or_goesOn hc hlog hread hlength hstoi
        have hnum : IsNumeral value ∧ digitsValue value ≤ INT_MAX := by
          by_contra hother
          rcases hdecided with ⟨-, hwaits⟩ | ⟨-, hon⟩
          · exact not_waits_and_refuses hc hwaits (h.refuses hother)
          · exact not_goesOn_and_refuses hon (h.refuses hother)
        have hn : n = digitsValue value := by
          rw [stoi_numeral hnum.1, if_pos hnum.2] at hstoi
          exact (Except.ok.inj hstoi).symm
        refine ⟨hnum.1, hnum.2, ?_⟩
        rintro ⟨hle, hclip⟩
        rcases hdecided with ⟨-, hwaits⟩ | ⟨hnot, -⟩
        · have hless := (h.waits hnum.1 hnum.2).mp hwaits
          omega
        · exact hnot (by rwa [hn])
  refine ⟨hlog, fun hread hnum => ?_, hsound, fun hread hle => ?_⟩
  · have hrefuses := refuses_of_failed hc hlog hread
    have hwaits := (h.waits hnum.1 hnum.2).mpr
    have hon := (h.goesOn hnum.1 hnum.2).mpr
    rcases Nat.lt_or_ge c.bodySize (digitsValue value) with hless | hge
    · exact not_waits_and_refuses hc (hwaits hless) hrefuses
    · exact not_goesOn_and_refuses (hon hge) hrefuses
  · have hnum := hsound hread
    exact (handleRead_analysis_iff hc ((h.goesOn hnum.1 hnum.2.1).mpr hle)).mp ⟨c', hrun⟩

theorem LengthFit.handled (hc : InBody c) (hlength : c.http.headers.find (bytes "Content-length") = some value)
    (h : LengthFit host c value) : LengthHandled host c value := by
  rcases Int.lt_or_le (toInt (readn c.sock.reads c.http.inBuffer).value) 0 with hread | hread
  · have hother := h.failed hread
    refine ⟨handleRead_total (handleReadBody_fails hc h.logged hread) (Or.inl rfl), ?_, ?_,
      fun _ => refuses_of_failed hc h.logged hread⟩
    · exact fun hnum hmax => absurd ⟨hnum, hmax⟩ hother
    · exact fun hnum hmax => absurd ⟨hnum, hmax⟩ hother
  · have hsound := h.sound hread
    have hlt := hsound.lt_iff
    have hstoi := stoi_numeral hsound.1
    rw [if_pos hsound.2.1] at hstoi
    have hrefuses (hother : ¬ (IsNumeral value ∧ digitsValue value ≤ INT_MAX)) : Refuses host c :=
      absurd ⟨hsound.1, hsound.2.1⟩ hother
    rcases waits_or_goesOn hc h.logged hread hlength hstoi with ⟨hless, hwaits⟩ | ⟨hge, hon⟩
    · have hless' := hlt.mp hless
      have hrecv : c.afterRead.http.state ≠ .finish := by
        rw [show c.afterRead.http.state = .recvBody from hc.state]
        decide
      refine ⟨handleRead_total hwaits (Or.inr hrecv), fun _ _ => iff_of_true hwaits hless', fun _ _ => ?_, hrefuses⟩
      exact iff_of_false (not_waits_and_goesOn hc hwaits) (by omega)
    · have hge' : ¬ c.bodySize < digitsValue value := fun h => hge (hlt.mpr h)
      have hagain := h.again hread (by omega)
      refine ⟨(handleRead_analysis_iff hc hon).mpr hagain, fun _ _ => ?_, fun _ _ => ?_, hrefuses⟩
      · exact iff_of_false (fun hwaits => not_waits_and_goesOn hc hwaits hon) hge'
      · exact iff_of_true hon (by omega)

/-- **The length of a body is handled** just if the input is logged and the length is a number, an `int`, and
not passed by the size of the input as a number only. -/
theorem lengthHandled_iff (hc : InBody c)
    (hlength : c.http.headers.find (bytes "Content-length") = some value) :
    LengthHandled host c value ↔ LengthFit host c value :=
  ⟨LengthHandled.fit hc hlength, LengthFit.handled hc hlength⟩

end

/-- A connection that waits for a body of the length that a client wrote, with `s` about to be read. -/
def bodyConn (value s : Bytes) : Conn where
  http := { HttpData.new 5 with
    method := .post, state := .recvBody, headers := [(bytes "Content-length", value)] }
  chan := Channel.new 5
  sock := ⟨deliver s, [], []⟩
  calls := []

theorem bodyConn_inBody (value s : Bytes) : InBody (bodyConn value s) := by
  constructor <;> simp [bodyConn, HttpData.new, readn_deliver]

theorem bodyConn_find (value s : Bytes) :
    (bodyConn value s).http.headers.find (bytes "Content-length") = some value := by
  simp [bodyConn, HeaderMap.find]

/-- Three of the five bytes of a body. -/
theorem lengthHandled_iff_partial :
    InBody (bodyConn (bytes "5") (bytes "abc")) ∧
      (LengthHandled someHost (bodyConn (bytes "5") (bytes "abc")) (bytes "5") ↔
        LengthFit someHost (bodyConn (bytes "5") (bytes "abc")) (bytes "5")) :=
  ⟨bodyConn_inBody _ _, lengthHandled_iff (bodyConn_inBody _ _) (bodyConn_find _ _)⟩

/-- A length that is not a number leaves `handleRead` as an exception. -/
theorem bodyLength_throws :
    InBody (bodyConn (bytes "abc") []) ∧
      (bodyConn (bytes "abc") []).http.headers.find (bytes "Content-length") = some (bytes "abc") ∧
      handleRead someHost (bodyConn (bytes "abc") []) = .error .stoiInvalid ∧
      ¬ LengthHandled someHost (bodyConn (bytes "abc") []) (bytes "abc") := by
  have hthrows : handleRead someHost (bodyConn (bytes "abc") []) = .error .stoiInvalid :=
    handleRead_throws (bodyConn_inBody (bytes "abc") []) (by decide +kernel) (by decide) (bodyConn_find _ _)
      (by decide)
  refine ⟨bodyConn_inBody _ _, bodyConn_find _ _, hthrows, ?_⟩
  rintro ⟨⟨c', hrun⟩, -, -, -⟩
  rw [hthrows] at hrun
  cases hrun

end WebServer
