import WebServer.LogBuffer
import WebServer.LogConvert
import WebServer.RunsTrace

/-! `LogStream`: the operands of one log record, put one behind the other into a small fixed buffer. The
cursor is not kept inside the buffer: the test that a string fits is made with its length as an `int`. The
operator for a `const char *` lacks its `return`, so that a chain of insertions is lost behind a text that
it drops. -/

namespace WebServer

open Runs

def kSmallBuffer : Nat := 4096

def kMaxNumericSize : Int := 32

/-- The buffer of a stream: the bytes before its cursor, and how far from its start on bytes were written. -/
structure LogStream where
  content : Bytes
  extent : Nat
  deriving DecidableEq

/-- What is inserted into a stream. A pointer to characters is what `strlen` and `memcpy` find there. -/
inductive Operand where
  | bool (v : Bool)
  | char (v : Byte)
  | short (v : Int16)
  | unsignedShort (v : UInt16)
  | integer (T : IntType) (v : IntValue T)
  | pointer (str : Option Bytes)
  | string (v : Bytes)

namespace LogStream

/-- A fresh stream. -/
def new : LogStream := ⟨[], 0⟩

/-- `m_buffer.avail()`. -/
def avail (s : LogStream) : Int := toInt ((kSmallBuffer : Int) - s.content.length)

/-- `m_buffer.append(logline, len)`. -/
def append (s : LogStream) (logline : Bytes) : LogStream :=
  if s.avail > toInt logline.length then
    { content := s.content ++ logline, extent := max s.extent (s.content.length + logline.length) }
  else s

/-- `LogStream::formatInteger`: the text is written in place, with its NUL. -/
def formatInteger (s : LogStream) (v : Int) : LogStream :=
  if s.avail ≥ kMaxNumericSize then
    { content := s.content ++ (convert v).text
      extent := max s.extent (s.content.length + (convert v).written.length) }
  else s

/-- What `LogStream::operator<<` leaves in the stream. -/
def insert (s : LogStream) : Operand → LogStream
  | .bool v => s.append (if v then bytes "1" else bytes "0")
  | .char v => s.append [v]
  | .short v => s.formatInteger v.toInt
  | .unsignedShort v => s.formatInteger v.toNat
  | .integer _ v => s.formatInteger v.val
  | .pointer (some str) => s.append (cstr str)
  | .pointer none => s.append (bytes "<null>")
  | .string v => if v ≠ [] then s.append v else s.append (bytes "<null>")

/-- One insertion after the other, each begun on the stream itself. -/
def step (s : LogStream) (a : Operand) : Option LogStream := some (s.insert a)

/-- The operator gives the stream back. Behind the `append` of a `const char *` there is no `return`. Built
without optimisation, as `CMakeLists.txt` asks for, the operator gives back what that call leaves behind: the
stream where the text was taken, and the value of a failed test where it was dropped. (The operator for
`unsigned short` has none either, but ends with a call that leaves the stream.) -/
def returns (s : LogStream) : Operand → Bool
  | .pointer (some str) => s.avail > toInt (cstr str).length
  | _ => true

/-- `stream << a₁ << … << aₙ`. -/
def chain (s : LogStream) : List Operand → Except Fault LogStream
  | [] => .ok s
  | a :: as =>
      if kSmallBuffer < (s.insert a).extent then .error .overflow
      else if as ≠ [] ∧ s.returns a = false then .error .lostStream
      else (s.insert a).chain as

end LogStream

/-- The complete text of an operand. -/
def Operand.text : Operand → Bytes
  | bool v => if v then bytes "1" else bytes "0"
  | char v => [v]
  | short v => (convert v.toInt).text
  | unsignedShort v => (convert v.toNat).text
  | integer _ v => (convert v.val).text
  | pointer (some str) => cstr str
  | pointer none => bytes "<null>"
  | string v => if v ≠ [] then v else bytes "<null>"

namespace LogStream

variable {s t : LogStream}

/-- The cursor is inside the buffer, with a byte behind it, and no byte was written outside. -/
structure Sound (s : LogStream) : Prop where
  room : s.content.length < kSmallBuffer
  inside : s.extent ≤ kSmallBuffer

/-- After the insertion the stream is sound, and it has taken the operand whole or not at all. -/
structure Takes (s : LogStream) (a : Operand) (t : LogStream) : Prop where
  sound : t.Sound
  whole : t.content = s.content ++ a.text ∨ t.content = s.content

/-- A text that passes the test of its length fits. It fails only for a text of `2 ^ 31` bytes or more. -/
def Fits (s : LogStream) (a : Operand) : Prop :=
  s.avail > toInt a.text.length → s.avail > a.text.length

instance (s : LogStream) (a : Operand) : Decidable (s.Fits a) := inferInstanceAs (Decidable (_ → _))

theorem new_sound : new.Sound := ⟨by decide, by decide⟩

theorem Sound.avail_eq (hs : s.Sound) : s.avail = kSmallBuffer - s.content.length := by
  have hroom := hs.room
  have hsmall : kSmallBuffer = 4096 := rfl
  have hnat : (kSmallBuffer : Int) - s.content.length = ((kSmallBuffer - s.content.length : Nat) : Int) := by
    omega
  rw [avail, hnat, toInt_of_lt (by omega)]

theorem Fits.of_small {a : Operand} (h : a.text.length < 2 ^ 31) : s.Fits a := by
  intro htest
  rwa [toInt_of_lt h] at htest

theorem append_sound_iff (hs : s.Sound) (logline : Bytes) :
    (s.append logline).Sound ↔ (s.avail > toInt logline.length → s.avail > logline.length) := by
  have havail := hs.avail_eq
  unfold append
  split_ifs with htest
  · have hinside := hs.inside
    have hlength : (s.content ++ logline).length = s.content.length + logline.length := List.length_append
    constructor
    · rintro ⟨hroom, -⟩ _
      have htaken : (s.content ++ logline).length < kSmallBuffer := hroom
      omega
    · intro hfits
      have hroom := hfits htest
      refine ⟨?_, ?_⟩
      · show (s.content ++ logline).length < kSmallBuffer
        omega
      · show max s.extent (s.content.length + logline.length) ≤ kSmallBuffer
        omega
  · exact iff_of_true hs fun h => absurd h htest

/-- The text of an integer, and its NUL, stay in the room tested for. -/
theorem formatInteger_sound {T : IntType} (hs : s.Sound) (v : IntValue T) : (s.formatInteger v.val).Sound := by
  have havail := hs.avail_eq
  have hinside := hs.inside
  have hlength := convert_length_le v
  unfold formatInteger
  split_ifs with htest
  · have htext := convert_text_length v.val
    have hwritten := convert_written_length v.val
    have hreserve : kMaxNumericSize = 32 := rfl
    refine ⟨?_, ?_⟩
    · show (s.content ++ (convert v.val).text).length < kSmallBuffer
      rw [List.length_append]
      omega
    · show max s.extent (s.content.length + (convert v.val).written.length) ≤ kSmallBuffer
      omega
  · exact hs

/-- A `short` is an `int`. -/
def shortValue (v : Int16) : IntValue .int where
  val := v.toInt
  ge := le_trans (by decide) v.le_toInt
  le := le_trans (Int.le_of_lt v.toInt_lt) (by decide)

def unsignedShortValue (v : UInt16) : IntValue .int where
  val := v.toNat
  ge := le_trans (by decide) (Int.natCast_nonneg _)
  le := le_trans (Int.ofNat_le.mpr (Nat.le_of_lt v.toNat_lt)) (by decide)

/-- The two ways to insert an operand: its text is appended, or written in place. -/
theorem insert_cases (s : LogStream) (a : Operand) :
    s.insert a = s.append a.text ∨ ∃ (T : IntType) (v : IntValue T),
      a.text = (convert v.val).text ∧ s.insert a = s.formatInteger v.val := by
  cases a with
  | bool _ | char _ => exact Or.inl rfl
  | short v => exact Or.inr ⟨.int, shortValue v, rfl, rfl⟩
  | unsignedShort v => exact Or.inr ⟨.int, unsignedShortValue v, rfl, rfl⟩
  | integer T v => exact Or.inr ⟨T, v, rfl, rfl⟩
  | pointer str => cases str <;> exact Or.inl rfl
  | string v =>
      apply Or.inl
      rw [insert, Operand.text]
      split_ifs <;> rfl

theorem insert_whole (s : LogStream) (a : Operand) :
    (s.insert a).content = s.content ++ a.text ∨ (s.insert a).content = s.content := by
  rcases insert_cases s a with happend | ⟨T, v, htext, hformat⟩
  · rw [happend, append]
    split_ifs
    · exact Or.inl rfl
    · exact Or.inr rfl
  · rw [hformat, htext, formatInteger]
    split_ifs
    · exact Or.inl rfl
    · exact Or.inr rfl

theorem insert_sound_iff (hs : s.Sound) (a : Operand) : (s.insert a).Sound ↔ s.Fits a := by
  rcases insert_cases s a with happend | ⟨T, v, htext, hformat⟩
  · rw [happend]
    exact append_sound_iff hs a.text
  · rw [hformat]
    refine iff_of_true (formatInteger_sound hs v) (Fits.of_small ?_)
    have hlength := convert_length_le v
    rw [htext, convert_text_length]
    omega

/-- Each text fits that passes the test of its length, and each operator but the last gives the stream
back. -/
def Intact (s : LogStream) : List Operand → Prop
  | [] => True
  | a :: as => s.Fits a ∧ (as ≠ [] → s.returns a = true) ∧ (s.insert a).Intact as

instance decidableIntact (s : LogStream) : ∀ as, Decidable (s.Intact as)
  | [] => inferInstanceAs (Decidable True)
  | a :: as =>
      have := decidableIntact (s.insert a) as
      inferInstanceAs (Decidable (_ ∧ _ ∧ _))

/-- A text that passes the test and does not fit is written past the end of the buffer. -/
theorem fits_iff_extent (hs : s.Sound) (a : Operand) : s.Fits a ↔ (s.insert a).extent ≤ kSmallBuffer := by
  constructor
  · intro hfits
    exact ((insert_sound_iff hs a).mpr hfits).inside
  · intro hinside htest
    by_contra hlong
    have hroom := hs.room
    have havail := hs.avail_eq
    have hsmall : kSmallBuffer = 4096 := rfl
    have hlarge : 2 ^ 31 ≤ a.text.length := by
      by_contra hless
      rw [toInt_of_lt (by omega)] at htest
      exact hlong htest
    rcases insert_cases s a with happend | ⟨T, v, htext, -⟩
    · rw [happend, append, if_pos htest] at hinside
      have hextent : max s.extent (s.content.length + a.text.length) ≤ kSmallBuffer := hinside
      omega
    · have hlength := convert_length_le v
      rw [htext, convert_text_length] at hlarge
      omega

/-- **A chain of insertions** goes through just if it is intact, and then leaves what the single insertions
leave. -/
theorem chain_eq (hs : s.Sound) {as : List Operand} :
    s.chain as = .ok t ↔ s.Intact as ∧ t = as.foldl insert s := by
  induction as generalizing s with
  | nil => simp only [chain, Intact, List.foldl_nil, true_and, Except.ok.injEq, eq_comm]
  | cons a as ih =>
      rw [chain, Intact, List.foldl_cons]
      by_cases hfits : s.Fits a
      · rw [if_neg (Nat.not_lt.mpr ((fits_iff_extent hs a).mp hfits))]
        by_cases hlost : as ≠ [] ∧ s.returns a = false
        · rw [if_pos hlost]
          simp [hlost]
        · have hreturns : as ≠ [] → s.returns a = true := fun hmore =>
            (Bool.not_eq_false _).mp fun h => hlost ⟨hmore, h⟩
          rw [if_neg hlost, ih ((insert_sound_iff hs a).mpr hfits), and_iff_right hfits, and_iff_right hreturns]
      · rw [if_pos (Nat.lt_of_not_le fun h => hfits ((fits_iff_extent hs a).mpr h))]
        simp [hfits]

/-- An intact chain keeps the stream sound. -/
theorem Intact.sound (hs : s.Sound) {as : List Operand} (has : s.Intact as) : (as.foldl insert s).Sound := by
  induction as generalizing s with
  | nil => exact hs
  | cons a as ih => exact ih ((insert_sound_iff hs a).mpr has.1) has.2.2

/-- **A record takes each operand whole or not at all**, and stays in its buffer, just if no text passes the
test of its length and is too long. -/
theorem run_takes_iff {as : List Operand} (hrun : Run step (fun _ _ => True) new as t) :
    (∀ bs a u, bs ++ [a] <+: as → Run step (fun _ _ => True) new bs u → u.Takes a (u.insert a)) ↔
      Run step Fits new as t := by
  have hprefixes : (∀ bs u, bs <+: as → Run step (fun _ _ => True) new bs u → u.Sound) ↔
      Run step Fits new as t := by
    refine hrun.prefixes_iff (I := fun _ => True) (fun _ _ _ _ _ _ => trivial) ?_ trivial new_sound
    intro s a u _ hstep _ hs
    cases hstep
    exact insert_sound_iff hs a
  rw [← hprefixes]
  constructor
  · intro htakes bs u hbs hu
    rcases List.eq_nil_or_concat bs with rfl | ⟨cs, a, rfl⟩
    · cases hu
      exact new_sound
    · rw [List.concat_eq_append] at hbs hu
      obtain ⟨r, hr, hlast⟩ := Run.split hu
      cases hlast with
      | cons _ hstep hnil =>
          cases hnil
          cases hstep
          exact (htakes cs a r hbs hr).sound
  · intro hsound bs a u hbs hu
    refine ⟨hsound (bs ++ [a]) _ hbs (hu.append (.cons trivial rfl (.nil _))), ?_⟩
    exact insert_whole u a

/-- A short record. -/
theorem run_takes_record :
    ∃ t, Run step (fun _ _ => True) new [.pointer (some (bytes "fddsa")), .char 99, .bool true] t ∧
      ∀ bs a u, bs ++ [a] <+: [.pointer (some (bytes "fddsa")), .char 99, .bool true] →
        Run step (fun _ _ => True) new bs u → u.Takes a (u.insert a) := by
  have hexec : ∃ t, exec (checked step Fits) new
      [.pointer (some (bytes "fddsa")), .char 99, .bool true] = some t := ⟨_, rfl⟩
  obtain ⟨t, ht⟩ := hexec
  have hrun := run_of_exec_checked ht
  have hall : Run step (fun _ _ => True) new _ t := hrun.mono fun _ _ _ => trivial
  exact ⟨t, hall, (run_takes_iff hall).mpr hrun⟩

/-- A string of `2 ^ 31` bytes has a negative length as an `int`, and is copied over the end of the buffer. -/
theorem run_overflows :
    ∃ (v : Bytes) (t : LogStream), v.length = 2 ^ 31 ∧
      Run step (fun _ _ => True) new [.string v] t ∧ t.content = v ∧ t.extent = 2 ^ 31 ∧ ¬ t.Sound := by
  obtain ⟨v, hv⟩ : ∃ v : Bytes, v.length = 2 ^ 31 := ⟨List.replicate (2 ^ 31) 97, List.length_replicate⟩
  have hne : v ≠ [] := by
    rintro rfl
    simp at hv
  have htest : new.avail > toInt v.length := by
    rw [hv]
    decide
  have hinsert : new.insert (.string v) = ⟨v, 2 ^ 31⟩ := by
    rw [insert, if_pos hne, append, if_pos htest, hv]
    rfl
  refine ⟨v, ⟨v, 2 ^ 31⟩, hv, .cons trivial (congrArg some hinsert) (.nil _), rfl, rfl, ?_⟩
  rintro ⟨-, hinside⟩
  have hextent : (2 : Nat) ^ 31 ≤ kSmallBuffer := hinside
  exact absurd hextent (by decide)

/-- Where there is room for an integer, the cursor is followed by a byte. -/
theorem sound_of_reserve (hcursor : s.content.length ≤ kSmallBuffer) (hextent : s.extent ≤ kSmallBuffer)
    (htest : s.avail ≥ kMaxNumericSize) : s.Sound := by
  refine ⟨?_, hextent⟩
  by_contra hfull
  have hnone : (kSmallBuffer : Int) - s.content.length = 0 := by omega
  rw [avail, hnone] at htest
  exact absurd htest (by decide)

/-- The loop of `convert` ends, with each `lsd` in its table; what it writes, with the NUL, is not more than
`formatInteger` tests for. Where the test holds, the text is taken, and a byte is left behind it. -/
structure InReserve {T : IntType} (v : IntValue T) (s : LogStream) : Prop where
  ends : ∀ rounds, 20 ≤ rounds → convertLoop rounds v = some (remainders v.val)
  inTable : ∀ lsd ∈ remainders v.val, 0 ≤ 9 + lsd ∧ 9 + lsd < digits.length
  reserve : ((convert v.val).written.length : Int) ≤ kMaxNumericSize
  taken : s.avail ≥ kMaxNumericSize → (s.formatInteger v.val).content = s.content ++ (convert v.val).text
  free : s.avail ≥ kMaxNumericSize → (s.formatInteger v.val).Sound

/-- **Integers stay in their reserve**, of each type and with each sign, wherever the cursor of the stream
is in its buffer. -/
theorem formatInteger_inReserve {T : IntType} (v : IntValue T) (hcursor : s.content.length ≤ kSmallBuffer)
    (hextent : s.extent ≤ kSmallBuffer) : InReserve v s := by
  refine ⟨?_, ?_, ?_, ?_, ?_⟩
  · intro rounds hrounds
    exact convertLoop_ends v hrounds
  · intro lsd hlsd
    exact remainders_inTable hlsd
  · have hlength := convert_length_le v
    have hreserve : kMaxNumericSize = 32 := rfl
    rw [convert_written_length]
    omega
  · intro htest
    rw [formatInteger, if_pos htest]
  · intro htest
    exact formatInteger_sound (sound_of_reserve hcursor hextent htest) v

/-- The least `long long`, on a stream with just its reserve left. -/
theorem formatInteger_inReserve_min :
    ∃ s : LogStream, s.content.length = 4064 ∧ s.avail = kMaxNumericSize ∧
      InReserve (⟨-9223372036854775808, by decide, by decide⟩ : IntValue .longLong) s := by
  have hlength : (List.replicate 4064 (97 : Byte)).length = 4064 := List.length_replicate
  refine ⟨⟨List.replicate 4064 97, 4064⟩, hlength, ?_, ?_⟩
  · rw [avail, hlength]
    decide
  · apply formatInteger_inReserve
    · show (List.replicate 4064 (97 : Byte)).length ≤ kSmallBuffer
      rw [hlength]
      decide
    · show 4064 ≤ kSmallBuffer
      decide

end LogStream

end WebServer
