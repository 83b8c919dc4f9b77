import WebServer.HttpState
import WebServer.LogRecord

/-! The log records of `HttpData.cpp`. A handler that logs its input comes back only where the record goes
through: a long input can leave no room for the strings that are inserted behind it, and one of `2 ^ 31` bytes
is copied over the end of the buffer. What `output` makes of the record does not concern the connection. -/

namespace WebServer

/-- What a handler finds around its connection: the files, and what its log records begin and end with. -/
structure Host where
  files : FileSystem
  /-- `__FILE__` in `HttpData.cpp`. -/
  fileName : Bytes
  time : TimeText
  fits : fileName.length < 2 ^ 31

namespace Host

/-- `LOG << a₁ << … << aₙ;` -/
def log (host : Host) (line : IntValue .int) (as : List Operand) : Except Fault Unit :=
  (Logger.record host.fileName line host.time as).map fun _ => ()

/-- `LOG << "Request:" << m_inBuffer;` -/
def logRequest (host : Host) (inBuffer : Bytes) : Except Fault Unit :=
  host.log ⟨170, by decide, by decide⟩ [.pointer (some (bytes "Request:")), .string inBuffer]

/-- `LOG << "FD= " << m_fd << ", " << m_inBuffer << what;` -/
def logFailed (host : Host) (line : IntValue .int) (fd : Nat) (inBuffer what : Bytes) : Except Fault Unit :=
  host.log line [.pointer (some (bytes "FD= ")), .integer .int (intValue fd), .pointer (some (bytes ", ")),
    .string inBuffer, .pointer (some what)]

def logURIFailed (host : Host) (fd : Nat) (inBuffer : Bytes) : Except Fault Unit :=
  host.logFailed ⟨198, by decide, by decide⟩ fd inBuffer (bytes "parse uri failed****")

def logHeadersFailed (host : Host) (fd : Nat) (inBuffer : Bytes) : Except Fault Unit :=
  host.logFailed ⟨213, by decide, by decide⟩ fd inBuffer (bytes "parse headers failed****")

open LogStream Logger

variable {host : Host} {inBuffer : Bytes}

theorem log_ok_iff {line : IntValue .int} {as : List Operand} :
    host.log line as = .ok () ↔ (LogStream.new.insert (.pointer (some host.time.text))).Intact as ∧
      RoomForColon (message host.time as).content host.fileName := by
  rw [log]
  cases hrecord : record host.fileName line host.time as with
  | error f =>
      refine iff_of_false (fun h => by cases h) fun ⟨has, hroom⟩ => ?_
      rw [(record_eq line host.time host.fits).mpr ⟨has, hroom, rfl⟩] at hrecord
      cases hrecord
  | ok text =>
      obtain ⟨has, hroom, -⟩ := (record_eq line host.time host.fits).mp hrecord
      exact iff_of_true rfl ⟨has, hroom⟩

/-- The bytes of the record before the input. -/
def requestStart (host : Host) : Nat := (cstr host.time.text).length + 8

/-- The stream of the record of a request before the input. -/
theorem requestStart_stream (host : Host) :
    (message host.time [.pointer (some (bytes "Request:"))]).Sound ∧
      (message host.time [.pointer (some (bytes "Request:"))]).content.length = host.requestStart ∧
      (LogStream.new.insert (.pointer (some host.time.text))).returns (.pointer (some (bytes "Request:"))) = true := by
  have hsmall : kSmallBuffer = 4096 := rfl
  have height : (bytes "Request:").length = 8 := by decide
  have hcstr : cstr (bytes "Request:") = bytes "Request:" := by decide
  have hle : (cstr host.time.text).length ≤ host.time.text.length := (List.takeWhile_sublist _).length_le
  have hfits := host.time.fits
  obtain ⟨hsound, hlength, -⟩ := append_short new_sound (cstr host.time.text) (by omega)
  have hnew : LogStream.new.content.length = 0 := rfl
  rw [hnew, fillWith, if_pos (by omega), Nat.zero_add] at hlength
  obtain ⟨hsound', hlength', -⟩ := append_short hsound (bytes "Request:") (by decide)
  rw [hlength, height, fillWith, if_pos (by omega)] at hlength'
  refine ⟨hsound', hlength', (returns_short hsound (bytes "Request:") (by decide)).mpr ?_⟩
  rw [hcstr, hlength, height]
  omega

/-- The input is inserted behind that. -/
theorem message_request (host : Host) (inBuffer : Bytes) :
    message host.time [.pointer (some (bytes "Request:")), .string inBuffer] =
      (message host.time [.pointer (some (bytes "Request:"))]).append (Operand.string inBuffer).text := by
  show (message host.time [.pointer (some (bytes "Request:"))]).insert (.string inBuffer) = _
  rw [LogStream.insert, Operand.text]
  by_cases hempty : inBuffer = []
  · rw [if_neg (not_not.mpr hempty), if_neg (not_not.mpr hempty)]
  · rw [if_pos hempty, if_pos hempty]

/-- **Which inputs can be logged**, of those of less than `2 ^ 31` bytes: behind the time and the input, as far
as that is taken, there is room for the dashes, and behind the name of the file, as far as that is, for the
colon. -/
theorem logRequest_ok_iff (hinput : inBuffer.length < 2 ^ 31) :
    host.logRequest inBuffer = .ok () ↔
      fillWith host.requestStart (Operand.string inBuffer).text.length + 2 < kSmallBuffer ∧
        fillWith (fillWith host.requestStart (Operand.string inBuffer).text.length + 2)
          (fileText host.fileName).length + 1 < kSmallBuffer := by
  obtain ⟨hsound, hlength, hreturns⟩ := host.requestStart_stream
  have htext : (Operand.string inBuffer).text.length < 2 ^ 31 := fileText_length hinput
  obtain ⟨-, hfilled, -⟩ := append_short hsound (Operand.string inBuffer).text htext
  have hintact : (LogStream.new.insert (.pointer (some host.time.text))).Intact
      [.pointer (some (bytes "Request:")), .string inBuffer] :=
    ⟨Fits.of_small (by decide), fun _ => hreturns, Fits.of_small htext, fun h => absurd rfl h, trivial⟩
  rw [logRequest, log_ok_iff, and_iff_right hintact, host.message_request, RoomForColon, RoomFor, hfilled,
    hlength]

/-- An input of `2 ^ 31` bytes or more, but less than `2 ^ 32`, is copied over the end of the buffer. -/
theorem logRequest_short (hinput : inBuffer.length < 2 ^ 32) (hlog : host.logRequest inBuffer = .ok ()) :
    inBuffer.length < 2 ^ 31 := by
  by_contra hlong
  obtain ⟨hsound, -, -⟩ := host.requestStart_stream
  obtain ⟨⟨-, -, hfits, -⟩, -⟩ := log_ok_iff.mp hlog
  have hne : inBuffer ≠ [] := by
    rintro rfl
    exact hlong (by decide)
  have htext : (Operand.string inBuffer).text = inBuffer := if_pos hne
  have hroom := hsound.room
  have havail := hsound.avail_eq
  have hsmall : kSmallBuffer = 4096 := rfl
  have hnegative : toInt inBuffer.length < 0 := by
    rw [toInt_eq_bmod, Int.bmod_def]
    omega
  have hfits' : (message host.time [.pointer (some (bytes "Request:"))]).Fits (.string inBuffer) := hfits
  rw [LogStream.Fits, htext] at hfits'
  have hroom' := hfits' (by omega)
  omega

/-- A record goes through if there is room for all of it. -/
theorem log_of_room {line : IntValue .int} {as : List Operand}
    (hroom : (cstr host.time.text).length + (as.map fun a => a.text.length).sum +
      (fileText host.fileName).length + 3 < kSmallBuffer) : host.log line as = .ok () := by
  have hsmall : kSmallBuffer = 4096 := rfl
  have hstart : (LogStream.new.insert (.pointer (some host.time.text))).content.length ≤
      (cstr host.time.text).length := by
    have hle := insert_length_le LogStream.new (.pointer (some host.time.text))
    rwa [show LogStream.new.content.length = 0 from rfl, Nat.zero_add] at hle
  obtain ⟨hintact, hlength⟩ := Intact.of_room (stream_sound host.time) as (by omega)
  have hmessage : (message host.time as).content.length ≤
      (LogStream.new.insert (.pointer (some host.time.text))).content.length +
        (as.map fun a => a.text.length).sum := hlength
  refine log_ok_iff.mpr ⟨hintact, by omega, ?_⟩
  rw [fillWith, if_pos (by omega)]
  omega

/-- There is room in each record for an input of `n` bytes. -/
def HasRoom (host : Host) (n : Nat) : Prop :=
  (cstr host.time.text).length + n + (fileText host.fileName).length + 64 < kSmallBuffer

instance (host : Host) (n : Nat) : Decidable (host.HasRoom n) := inferInstanceAs (Decidable (_ < _))

/-- A string is inserted as it is, or for an empty one six bytes. -/
theorem string_length_le (v : Bytes) : (Operand.string v).text.length ≤ v.length + 6 := by
  rw [Operand.text]
  split_ifs with hempty
  · exact Nat.le_add_right _ _
  · rw [not_not.mp hempty]
    decide

theorem HasRoom.logRequest {n : Nat} (hroom : host.HasRoom n) (hn : inBuffer.length ≤ n) :
    host.logRequest inBuffer = .ok () := by
  have hlength := string_length_le inBuffer
  have hfirst : (Operand.pointer (some (bytes "Request:"))).text.length = 8 := by decide
  unfold HasRoom at hroom
  apply log_of_room
  simp only [List.map_cons, List.map_nil, List.sum_cons, List.sum_nil, hfirst]
  omega

theorem HasRoom.logFailed {n fd : Nat} {line : IntValue .int} {what : Bytes} (hroom : host.HasRoom n)
    (hn : inBuffer.length ≤ n) (hwhat : (cstr what).length ≤ 24) :
    host.logFailed line fd inBuffer what = .ok () := by
  have hlength := string_length_le inBuffer
  have hfirst : (Operand.pointer (some (bytes "FD= "))).text.length = 4 := by decide
  have hcomma : (Operand.pointer (some (bytes ", "))).text.length = 2 := by decide
  have hnumber : (Operand.integer .int (intValue fd)).text.length ≤ 20 := by
    show (convert (intValue fd).val).text.length ≤ 20
    rw [convert_text_length]
    exact convert_length_le _
  have hlast : (Operand.pointer (some what)).text = cstr what := rfl
  unfold HasRoom at hroom
  apply log_of_room
  simp only [List.map_cons, List.map_nil, List.sum_cons, List.sum_nil, hfirst, hcomma, hlast]
  omega

end Host

/-- A host without files. -/
def someHost : Host := ⟨fun _ => .missing, bytes "HttpData.cpp", Logger.someTime, by decide⟩

end WebServer
