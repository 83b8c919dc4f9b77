import WebServer.LogStream

/-! `Logger`: a record is the time, what is inserted into the stream, and what the destructor inserts behind
it: the file, the line and the end of the line. All of them are dropped where they do not fit, the end of
the line too; and where the dashes or the colon are, the destructor does not come to its end. -/

namespace WebServer

namespace LogStream

variable {s : LogStream}

/-- How far a buffer is filled after a text that is dropped if it leaves no byte free. -/
def fillWith (fill length : Nat) : Nat := if fill + length < kSmallBuffer then fill + length else fill

/-- A text of less than `2 ^ 31` bytes is taken if it leaves a byte free. -/
theorem append_short (hs : s.Sound) (text : Bytes) (htext : text.length < 2 ^ 31) :
    (s.append text).Sound ∧ (s.append text).content.length = fillWith s.content.length text.length ∧
      (s.append text).content =
        if s.content.length + text.length < kSmallBuffer then s.content ++ text else s.content := by
  have havail := hs.avail_eq
  have htest : s.avail > toInt text.length ↔ s.content.length + text.length < kSmallBuffer := by
    rw [toInt_of_lt htext]
    omega
  have hcontent : (s.append text).content =
      if s.content.length + text.length < kSmallBuffer then s.content ++ text else s.content := by
    rw [append]
    by_cases hfits : s.content.length + text.length < kSmallBuffer
    · rw [if_pos (htest.mpr hfits), if_pos hfits]
    · rw [if_neg fun h => hfits (htest.mp h), if_neg hfits]
  refine ⟨(append_sound_iff hs text).mpr fun h => by rwa [toInt_of_lt htext] at h, ?_, hcontent⟩
  rw [hcontent, fillWith]
  split_ifs
  · exact List.length_append
  · rfl

theorem insert_short (hs : s.Sound) {a : Operand} (ha : a.text.length < 2 ^ 31) : (s.insert a).Sound :=
  (insert_sound_iff hs a).mpr (Fits.of_small ha)

/-- A string of less than `2 ^ 31` bytes gives the stream back just if it is taken. -/
theorem returns_short (hs : s.Sound) (str : Bytes) (hstr : (cstr str).length < 2 ^ 31) :
    s.returns (.pointer (some str)) = true ↔ s.content.length + (cstr str).length < kSmallBuffer := by
  have havail := hs.avail_eq
  rw [returns, decide_eq_true_iff, toInt_of_lt hstr]
  omega

/-- What an operand adds to the buffer. -/
theorem insert_length_le (s : LogStream) (a : Operand) :
    (s.insert a).content.length ≤ s.content.length + a.text.length := by
  rcases insert_whole s a with h | h
  · rw [h, List.length_append]
  · rw [h]
    exact Nat.le_add_right _ _

/-- Where there is room for all its operands, a chain is intact. -/
theorem Intact.of_room (hs : s.Sound) (as : List Operand)
    (hroom : s.content.length + (as.map fun a => a.text.length).sum < kSmallBuffer) :
    s.Intact as ∧ (as.foldl insert s).content.length ≤
      s.content.length + (as.map fun a => a.text.length).sum := by
  induction as generalizing s with
  | nil => exact ⟨trivial, le_rfl⟩
  | cons a as ih =>
      have hsmall : kSmallBuffer = 4096 := rfl
      rw [List.map_cons, List.sum_cons] at hroom ⊢
      have hlength := insert_length_le s a
      have hsound := insert_short hs (a := a) (by omega)
      obtain ⟨hrest, hend⟩ := ih hsound (by omega)
      refine ⟨⟨Fits.of_small (by omega), fun _ => ?_, hrest⟩, ?_⟩
      · cases a with
        | pointer str =>
            cases str with
            | none => rfl
            | some str =>
                have htext : (Operand.pointer (some str)).text = cstr str := rfl
                rw [htext] at hroom
                exact (returns_short hs _ (by omega)).mpr (by omega)
        | _ => rfl
      · rw [List.foldl_cons]
        omega

end LogStream

/-- What `strftime` leaves in the array `str_t`, before its NUL. -/
structure TimeText where
  text : Bytes
  fits : text.length < 26

structure Logger where
  stream : LogStream
  line : IntValue .int
  basename : Bytes

namespace Logger

/-- The constructor of `Logger`, with `formatTime`. -/
def new (fileName : Bytes) (line : IntValue .int) (time : TimeText) : Logger where
  stream := LogStream.new.insert (.pointer (some time.text))
  line := line
  basename := fileName

/-- Insertions into `stream()`. -/
def log (l : Logger) (as : List Operand) : Except Fault Logger :=
  (l.stream.chain as).map fun stream => { l with stream := stream }

/-- What the destructor inserts. -/
def suffix (l : Logger) : List Operand :=
  [.pointer (some (bytes "--")), .string l.basename, .pointer (some (bytes ":")), .integer .int l.line,
    .pointer (some (bytes "\n"))]

/-- The destructor, up to its call of `output`. -/
def finish (l : Logger) : Except Fault LogStream := l.stream.chain l.suffix

/-- The bytes the destructor hands to `output`. -/
def output (l : Logger) : Except Fault Bytes := l.finish.map LogStream.content

/-- `LOG << a₁ << … << aₙ` in a line of a file: the record that is handed to `output`. -/
def record (fileName : Bytes) (line : IntValue .int) (time : TimeText) (as : List Operand) :
    Except Fault Bytes :=
  ((new fileName line time).log as).bind output

/-- The stream of a record before its destructor. -/
def message (time : TimeText) (as : List Operand) : LogStream :=
  as.foldl LogStream.insert (LogStream.new.insert (.pointer (some time.text)))

/-- The record ends its line. -/
def EndsLine (record : Bytes) : Prop := record.getLast? = some lf

instance (record : Bytes) : Decidable (EndsLine record) := inferInstanceAs (Decidable (_ = _))

/-- The name of the file as it is inserted. -/
def fileText (basename : Bytes) : Bytes := (Operand.string basename).text

/-- The dashes are taken, and after the file, as far as that is taken, there is room for `more` bytes. -/
def RoomFor (more : Nat) (message basename : Bytes) : Prop :=
  message.length + 2 < kSmallBuffer ∧
    LogStream.fillWith (message.length + 2) (fileText basename).length + more < kSmallBuffer

instance (more : Nat) (message basename : Bytes) : Decidable (RoomFor more message basename) :=
  inferInstanceAs (Decidable (_ ∧ _))

/-- There is room for the colon, without which the destructor does not come to its end. -/
abbrev RoomForColon : Bytes → Bytes → Prop := RoomFor 1

/-- There is room for the colon and the end of the line. -/
abbrev RoomForLine : Bytes → Bytes → Prop := RoomFor 2

open LogStream

variable {s : LogStream} {fileName : Bytes} {as : List Operand}

theorem fileText_length (hname : fileName.length < 2 ^ 31) : (fileText fileName).length < 2 ^ 31 := by
  rw [fileText, Operand.text]
  split_ifs
  · exact hname
  · decide

theorem stream_sound (time : TimeText) : (LogStream.new.insert (.pointer (some time.text))).Sound := by
  have htime : (cstr time.text).length < 2 ^ 31 := by
    have hle : (cstr time.text).length ≤ time.text.length := (List.takeWhile_sublist _).length_le
    have hfits := time.fits
    omega
  exact insert_short new_sound (a := .pointer (some time.text)) htime

theorem message_sound (time : TimeText) (has : (LogStream.new.insert (.pointer (some time.text))).Intact as) :
    (message time as).Sound := has.sound (stream_sound time)

/-- The destructor comes to its end just if the dashes and the colon are taken. -/
theorem suffix_intact_iff (hs : s.Sound) (line : IntValue .int) (hname : fileName.length < 2 ^ 31) :
    s.Intact (suffix ⟨s, line, fileName⟩) ↔ RoomForColon s.content fileName := by
  have hfile := fileText_length hname
  have hdashes : cstr (bytes "--") = bytes "--" ∧ (bytes "--").length = 2 := by decide
  have hcolon : cstr (bytes ":") = bytes ":" ∧ (bytes ":").length = 1 := by decide
  have hend : (Operand.pointer (some (bytes "\n"))).text.length = 1 := by decide
  obtain ⟨hsound, hlength, -⟩ := append_short hs (bytes "--") (by decide)
  obtain ⟨hnamed, hnamedLength, -⟩ := append_short hsound (fileText fileName) hfile
  have hinsert : s.insert (.pointer (some (bytes "--"))) = s.append (bytes "--") := rfl
  have hinsertName : (s.append (bytes "--")).insert (.string fileName) =
      (s.append (bytes "--")).append (fileText fileName) := by
    rw [fileText, Operand.text, LogStream.insert]
    split_ifs <;> rfl
  have hreturns := returns_short hs (bytes "--") (by decide)
  have hreturns' := returns_short hnamed (bytes ":") (by decide)
  rw [hdashes.1, hdashes.2] at hreturns
  rw [hcolon.1, hcolon.2, hnamedLength, hlength, hdashes.2] at hreturns'
  have hfits {u : LogStream} {a : Operand} (ha : a.text.length < 2 ^ 31) : u.Fits a := Fits.of_small ha
  have hnumber {u : LogStream} : u.Fits (.integer .int line) := by
    refine Fits.of_small ?_
    have hlength := convert_length_le line
    show (convert line.val).text.length < 2 ^ 31
    rw [convert_text_length]
    omega
  simp only [suffix, Intact, hinsert, hinsertName, ne_eq, List.cons_ne_nil, not_false_eq_true, true_implies,
    not_true_eq_false, false_implies, and_true, hreturns, hreturns']
  rw [RoomForColon, RoomFor]
  constructor
  · rintro ⟨-, htaken, -, -, -, hroom, -⟩
    have hfill : fillWith s.content.length 2 = s.content.length + 2 := if_pos htaken
    rw [hfill] at hroom
    exact ⟨htaken, hroom⟩
  · rintro ⟨htaken, hroom⟩
    have hfill : fillWith s.content.length 2 = s.content.length + 2 := if_pos htaken
    refine ⟨hfits (by decide), htaken, hfits hfile, rfl, hfits (by decide), ?_, hnumber, rfl, hfits (by decide)⟩
    rwa [hfill]

/-- A record that is handed over is shorter than the buffer it was put together in. -/
theorem record_length {line : IntValue .int} {time : TimeText} {text : Bytes}
    (hrecord : record fileName line time as = .ok text) : text.length < kSmallBuffer := by
  rw [record, log] at hrecord
  cases hchain : (new fileName line time).stream.chain as with
  | error f =>
      rw [hchain] at hrecord
      cases hrecord
  | ok u =>
      obtain ⟨has, rfl⟩ := (chain_eq (stream_sound time)).mp hchain
      rw [hchain] at hrecord
      have hfinish : output ⟨message time as, line, fileName⟩ = .ok text := hrecord
      rw [output, finish] at hfinish
      cases hend : (message time as).chain (suffix ⟨message time as, line, fileName⟩) with
      | error f =>
          rw [hend] at hfinish
          cases hfinish
      | ok w =>
          obtain ⟨hsuffix, rfl⟩ := (chain_eq (message_sound time has)).mp hend
          rw [hend] at hfinish
          cases hfinish
          exact (hsuffix.sound (message_sound time has)).room

/-- Whether a record is handed over: what is inserted goes through, and the destructor comes to its end. -/
theorem record_eq (line : IntValue .int) (time : TimeText) (hname : fileName.length < 2 ^ 31) {text : Bytes} :
    record fileName line time as = .ok text ↔
      (LogStream.new.insert (.pointer (some time.text))).Intact as ∧
        RoomForColon (message time as).content fileName ∧
        text = ((suffix ⟨message time as, line, fileName⟩).foldl LogStream.insert (message time as)).content := by
  have hstream := stream_sound time
  cases hchain : (LogStream.new.insert (.pointer (some time.text))).chain as with
  | error f =>
      have hnot : ¬ (LogStream.new.insert (.pointer (some time.text))).Intact as := fun has => by
        rw [(chain_eq hstream).mpr ⟨has, rfl⟩] at hchain
        cases hchain
      refine iff_of_false (fun h => ?_) fun h => hnot h.1
      rw [record, log, new, hchain] at h
      cases h
  | ok u =>
      obtain ⟨has, rfl⟩ := (chain_eq hstream).mp hchain
      have hmessage := message_sound time has
      have hsuffix := suffix_intact_iff hmessage line hname
      have hrecord : record fileName line time as =
          ((message time as).chain (suffix ⟨message time as, line, fileName⟩)).map LogStream.content := by
        rw [record, log, new, hchain]
        rfl
      rw [and_iff_right has, hrecord, ← hsuffix]
      cases hend : (message time as).chain (suffix ⟨message time as, line, fileName⟩) with
      | error f =>
          refine iff_of_false (fun h => by cases h) fun h => ?_
          rw [(chain_eq hmessage).mpr ⟨h.1, rfl⟩] at hend
          cases hend
      | ok w =>
          obtain ⟨hintact, rfl⟩ := (chain_eq hmessage).mp hend
          simp only [Except.map, Except.ok.injEq, and_iff_right hintact, eq_comm]

theorem endsLine_append {record : Bytes} (rest : Bytes) (hne : record ≠ []) :
    EndsLine (rest ++ record) ↔ EndsLine record := by
  rw [EndsLine, EndsLine, List.getLast?_append_of_ne_nil _ hne]

/-- Behind the colon: the line number, if there is room for any, and the end of the line. -/
theorem endsLine_after_colon (hs : s.Sound) (line : IntValue .int) :
    EndsLine ((s.insert (.integer .int line)).insert (.pointer (some (bytes "\n")))).content ↔
      s.content.length < kSmallBuffer - 1 ∨ EndsLine s.content := by
  have hroom := hs.room
  have havail := hs.avail_eq
  have hsmall : kSmallBuffer = 4096 := rfl
  have hnumber := formatInteger_sound hs line
  have hcontent : (((s.formatInteger line.val).append (bytes "\n")).content) = _ :=
    (append_short hnumber (bytes "\n") (by decide)).2.2
  show EndsLine ((s.formatInteger line.val).append (bytes "\n")).content ↔ _
  by_cases hfull : s.content.length < kSmallBuffer - 1
  · refine iff_of_true ?_ (Or.inl hfull)
    have hfits : (s.formatInteger line.val).content.length + (bytes "\n").length < kSmallBuffer := by
      have hlength := convert_length_le line
      have htext := convert_text_length line.val
      have hreserve : kMaxNumericSize = 32 := rfl
      have hone : (bytes "\n").length = 1 := by decide
      unfold formatInteger
      split_ifs with htest
      · rw [List.length_append]
        omega
      · omega
    rw [hcontent, if_pos hfits]
    exact List.getLast?_concat
  · -- no room for the number, and none for the end of the line
    have hsame : s.formatInteger line.val = s := if_neg (by
      have hreserve : kMaxNumericSize = 32 := rfl
      omega)
    rw [or_iff_right hfull, hcontent, hsame, if_neg]
    have hone : (bytes "\n").length = 1 := by decide
    omega

/-- The end of a record that is handed over: a colon is taken, and behind it the end of the line if there is
room. -/
theorem endsLine_suffix (hs : s.Sound) (line : IntValue .int) (hname : fileName.length < 2 ^ 31)
    (hcolon : RoomForColon s.content fileName) :
    EndsLine ((suffix ⟨s, line, fileName⟩).foldl LogStream.insert s).content ↔
      RoomForLine s.content fileName := by
  obtain ⟨htaken, hroom⟩ := hcolon
  have hone : (bytes ":").length = 1 := by decide
  have htwo : (bytes "--").length = 2 := by decide
  have hsmall : kSmallBuffer = 4096 := rfl
  obtain ⟨hdashes, hlength, -⟩ := append_short hs (bytes "--") (by decide)
  obtain ⟨hnamed, hnamedLength, -⟩ := append_short hdashes (fileText fileName) (fileText_length hname)
  obtain ⟨hsound, hcolonLength, hcontent⟩ := append_short hnamed (bytes ":") (by decide)
  have hdashesFill : fillWith s.content.length 2 = s.content.length + 2 := if_pos htaken
  rw [hlength, htwo, hdashesFill] at hnamedLength
  rw [hnamedLength, hone] at hcontent hcolonLength
  rw [if_pos hroom] at hcontent
  rw [fillWith, if_pos hroom] at hcolonLength
  have hnot : ¬ EndsLine ((((s.append (bytes "--")).append (fileText fileName)).append (bytes ":"))).content := by
    rw [hcontent, endsLine_append _ (by decide)]
    decide
  have hinsertName : (s.append (bytes "--")).insert (.string fileName) =
      (s.append (bytes "--")).append (fileText fileName) := by
    rw [fileText, Operand.text, LogStream.insert]
    split_ifs <;> rfl
  have hfold : (suffix ⟨s, line, fileName⟩).foldl LogStream.insert s =
      ((((s.append (bytes "--")).append (fileText fileName)).append (bytes ":")).insert
        (.integer .int line)).insert (.pointer (some (bytes "\n"))) := by
    rw [← hinsertName]
    rfl
  rw [hfold, endsLine_after_colon hsound, or_iff_left hnot, hcolonLength, RoomForLine, RoomFor,
    and_iff_right htaken]
  omega

/-- **The record ends its line** just if what is inserted goes through, and there is room for the end of the
line behind the dashes, the file and the colon. -/
theorem output_endsLine_iff (line : IntValue .int) (time : TimeText) (hname : fileName.length < 2 ^ 31) :
    (∃ text, record fileName line time as = .ok text ∧ EndsLine text) ↔
      (LogStream.new.insert (.pointer (some time.text))).Intact as ∧
        RoomForLine (message time as).content fileName := by
  constructor
  · rintro ⟨text, hrecord, hends⟩
    obtain ⟨hintact, hcolon, rfl⟩ := (record_eq line time hname).mp hrecord
    exact ⟨hintact, (endsLine_suffix (message_sound time hintact) line hname hcolon).mp hends⟩
  · rintro ⟨hintact, hroom⟩
    have hcolon : RoomForColon (message time as).content fileName := ⟨hroom.1, Nat.lt_of_succ_lt hroom.2⟩
    refine ⟨_, (record_eq line time hname).mpr ⟨hintact, hcolon, rfl⟩, ?_⟩
    exact (endsLine_suffix (message_sound time hintact) line hname hcolon).mpr hroom

def someTime : TimeText := ⟨bytes "2024-01-01 00:00:00N", by decide⟩

def someLine : IntValue .int := ⟨40, by decide, by decide⟩

/-- `LOG << "_PTHREADS is not defined!"`. -/
theorem output_endsLine_short :
    ∃ text, record (bytes "Main.cpp") someLine someTime
      [.pointer (some (bytes "_PTHREADS is not defined!"))] = .ok text ∧ EndsLine text := by
  apply (output_endsLine_iff someLine someTime (by decide)).mpr
  decide

/-- The stream of `LOG << message`, where the message fits. -/
theorem message_string {text : Bytes} (hne : text ≠ []) (hfits : text.length < 4076) :
    (LogStream.new.insert (.pointer (some someTime.text))).Intact [.string text] ∧
      (message someTime [.string text]).content.length = 20 + text.length := by
  have hsmall : kSmallBuffer = 4096 := rfl
  have hstart : (LogStream.new.insert (.pointer (some someTime.text))).content.length = 20 := by decide
  obtain ⟨-, hlength, -⟩ := append_short (stream_sound someTime) text (by omega)
  have htext : (Operand.string text).text = text := if_pos hne
  have hinsert : message someTime [.string text] =
      (LogStream.new.insert (.pointer (some someTime.text))).append text := if_pos hne
  refine ⟨⟨Fits.of_small (by rw [htext]; omega), fun h => absurd rfl h, trivial⟩, ?_⟩
  rw [hinsert, hlength, hstart, fillWith, if_pos (by omega)]

/-- A message that leaves no more room than for the dashes, the file and the colon. -/
theorem output_runs_on :
    ∃ text record : Bytes, text.length = 4067 ∧
      Logger.record (bytes "a.cpp") someLine someTime [.string text] = .ok record ∧ ¬ EndsLine record := by
  obtain ⟨text, htext⟩ : ∃ v : Bytes, v.length = 4067 := ⟨List.replicate 4067 97, List.length_replicate⟩
  have hne : text ≠ [] := by
    rintro rfl
    cases htext
  obtain ⟨hintact, hlength⟩ := message_string hne (by omega)
  have hname : (bytes "a.cpp").length < 2 ^ 31 := by decide
  have hfile : (fileText (bytes "a.cpp")).length = 5 := by decide
  have hcolon : RoomForColon (message someTime [.string text]).content (bytes "a.cpp") := by
    rw [RoomForColon, RoomFor, hlength, hfile, htext]
    decide
  refine ⟨text, _, htext, (record_eq someLine someTime hname).mpr ⟨hintact, hcolon, rfl⟩, ?_⟩
  rw [endsLine_suffix (message_sound someTime hintact) someLine hname hcolon, RoomForLine, RoomFor, hlength,
    hfile, htext]
  -- the colon leaves the one byte that is never taken
  decide

end Logger

end WebServer
