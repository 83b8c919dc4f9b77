import WebServer.UtilBytes
import Mathlib.Tactic.IntervalCases

/-! `convert` of the logging library, which writes an integer as text. Its digits come out of truncated
remainders, negative for a negative value, which a table of twice nine digits maps to characters; the test
for the sign is an assignment, so the text is that of the absolute value. -/

namespace WebServer

/-- The types `formatInteger` is used with. -/
inductive IntType where
  | int
  | unsignedInt
  | long
  | unsignedLong
  | longLong
  | unsignedLongLong
  deriving DecidableEq, Repr

namespace IntType

def min : IntType → Int
  | int => -2147483648
  | long | longLong => -9223372036854775808
  | unsignedInt | unsignedLong | unsignedLongLong => 0

def max : IntType → Int
  | int => 2147483647
  | unsignedInt => 4294967295
  | long | longLong => 9223372036854775807
  | unsignedLong | unsignedLongLong => 18446744073709551615

end IntType

/-- A value of the type. -/
structure IntValue (T : IntType) where
  val : Int
  ge : T.min ≤ val
  le : val ≤ T.max
  deriving DecidableEq

/-- An `int` that a number was converted to. -/
def intValue (n : Int) : IntValue .int := ⟨toInt n, (toInt_between n).1, (toInt_between n).2⟩

def digits : Bytes := bytes "9876543210123456789"

/-- `zero[lsd]`, where `zero` is `digits + 9`. -/
def zeroAt (lsd : Int) : Byte := digits.getD (9 + lsd).toNat 0

def minus : Byte := 45

/-- The values of `lsd` in the loop of `convert` from `i` on. The quotient and the remainder of a type are
those of the integers, rounded towards zero. -/
def remainders (i : Int) : List Int :=
  i.tmod 10 :: if i.tdiv 10 = 0 then [] else remainders (i.tdiv 10)
termination_by i.natAbs
decreasing_by
  rename_i hquot
  have hne : (i.tdiv 10).natAbs ≠ 0 := Int.natAbs_ne_zero.mpr hquot
  have hdiv : (i.tdiv 10).natAbs = i.natAbs / 10 := Int.natAbs_tdiv i 10
  omega

/-- What `convert` leaves: the bytes written from `buf` on, and the length it returns. -/
structure Converted where
  written : Bytes
  length : Nat
  deriving DecidableEq

/-- `convert<T>(buf, value)`. -/
def convert (value : Int) : Converted :=
  let p := (remainders value).map zeroAt
  -- `if(value = 0)`
  let value := (0 : Int)
  let p := if value ≠ 0 then p ++ [minus] else p
  ⟨p.reverse ++ [0], p.length⟩

/-- The text is what lies before the end that is returned. -/
def Converted.text (r : Converted) : Bytes := r.written.take r.length

theorem remainders_eq (i : Int) :
    remainders i = i.tmod 10 :: if i.tdiv 10 = 0 then [] else remainders (i.tdiv 10) := by
  rw [remainders]

theorem tmod_ten_between (i : Int) : -9 ≤ i.tmod 10 ∧ i.tmod 10 ≤ 9 := by
  have hge := Int.lt_tmod_of_pos i (show (0 : Int) < 10 by decide)
  have hlt := Int.tmod_lt_of_pos i (show (0 : Int) < 10 by decide)
  omega

/-- The table is symmetric about its zero. -/
theorem zeroAt_tmod (i : Int) :
    zeroAt (i.tmod 10) = UInt8.ofNat (Nat.digitChar (i.natAbs % 10)).toNat := by
  have habs : (i.tmod 10).natAbs = i.natAbs % 10 := Int.natAbs_tmod i 10
  obtain ⟨hge, hle⟩ := tmod_ten_between i
  rw [← habs]
  generalize i.tmod 10 = r at hge hle
  interval_cases r <;> rfl

/-- The loop writes the digits of the absolute value, the last one first. -/
theorem reverse_remainders (i : Int) : ((remainders i).map zeroAt).reverse = stdToString i.natAbs := by
  induction i using remainders.induct with
  | case1 i ih =>
      have hdiv : (i.tdiv 10).natAbs = i.natAbs / 10 := Int.natAbs_tdiv i 10
      have hquot : i.tdiv 10 = 0 ↔ i.natAbs < 10 := by
        rw [← Int.natAbs_eq_zero, hdiv]
        omega
      rw [remainders_eq, List.map_cons, zeroAt_tmod, List.reverse_cons, stdToString,
        Nat.toDigits_eq_if (by decide)]
      by_cases hsmall : i.natAbs < 10
      · rw [if_pos (hquot.mpr hsmall), if_pos hsmall, Nat.mod_eq_of_lt hsmall]
        rfl
      · have hmore := mt hquot.mp hsmall
        rw [if_neg hmore, if_neg hsmall, ih hmore, hdiv, stdToString, List.map_append]
        rfl

theorem convert_length (v : Int) : (convert v).length = (stdToString v.natAbs).length := by
  rw [← reverse_remainders, List.length_reverse]
  rfl

theorem convert_written (v : Int) : (convert v).written = stdToString v.natAbs ++ [0] := by
  rw [← reverse_remainders]
  rfl

/-- **The text is that of the absolute value.** -/
theorem convert_text (v : Int) : (convert v).text = stdToString v.natAbs := by
  rw [Converted.text, convert_written, convert_length, List.take_left]

/-- The decimal numeral of a value. -/
def numeral (v : Int) : Bytes := if v < 0 then minus :: stdToString v.natAbs else stdToString v.natAbs

/-- The value of a numeral. -/
def readNumeral : Bytes → Int
  | 45 :: ds => -(digitsValue ds : Int)
  | ds => digitsValue ds

/-- A number does not begin with a sign. -/
theorem readNumeral_stdToString (n : Nat) : readNumeral (stdToString n) = n := by
  obtain ⟨d, ds, hcons, hdigit⟩ := stdToString_cons n
  have hvalue := digitsValue_stdToString n
  rw [hcons] at hvalue ⊢
  unfold readNumeral
  split
  · rename_i heq
    obtain ⟨rfl, -⟩ := List.cons.inj heq
    exact absurd hdigit (by decide)
  · exact congrArg Nat.cast hvalue

theorem readNumeral_numeral (v : Int) : readNumeral (numeral v) = v := by
  unfold numeral
  split_ifs with hneg
  · show -(digitsValue (stdToString v.natAbs) : Int) = v
    rw [digitsValue_stdToString]
    omega
  · rw [readNumeral_stdToString]
    omega

theorem numeral_of_nonneg {v : Int} (hv : 0 ≤ v) : numeral v = stdToString v.natAbs :=
  if_neg (Int.not_lt.mpr hv)

/-- The text is the numeral of the value, the length returned is its length, and it is read back as the
value. -/
structure WritesValue (v : Int) : Prop where
  text : (convert v).text = numeral v
  length : (convert v).length = (numeral v).length
  read : readNumeral (convert v).text = v

theorem writesValue_iff (v : Int) : WritesValue v ↔ 0 ≤ v := by
  constructor
  · intro h
    have hread := h.read
    rw [convert_text, readNumeral_stdToString] at hread
    omega
  · intro hv
    have htext : (convert v).text = numeral v := by rw [convert_text, numeral_of_nonneg hv]
    refine ⟨htext, ?_, ?_⟩
    · rw [convert_length, numeral_of_nonneg hv]
    · rw [htext, readNumeral_numeral]

/-- **Integers are logged as their value**, and different ones differently, just if they are not negative. -/
theorem convert_value_iff {T : IntType} (v w : IntValue T) :
    (WritesValue v.val ∧ WritesValue w.val ∧ (v.val ≠ w.val → (convert v.val).text ≠ (convert w.val).text)) ↔
      0 ≤ v.val ∧ 0 ≤ w.val := by
  constructor
  · rintro ⟨hv, hw, -⟩
    exact ⟨(writesValue_iff _).mp hv, (writesValue_iff _).mp hw⟩
  · rintro ⟨hv, hw⟩
    have hright := (writesValue_iff _).mpr hv
    have hright' := (writesValue_iff _).mpr hw
    refine ⟨hright, hright', ?_⟩
    intro hne htext
    apply hne
    calc v.val = readNumeral (convert v.val).text := hright.read.symm
      _ = readNumeral (convert w.val).text := by rw [htext]
      _ = w.val := hright'.read

/-- `-5` and `5` are both logged as `5`. -/
theorem convert_sign_lost :
    ∃ v w : IntValue .int, v.val = -5 ∧ w.val = 5 ∧ (convert v.val).text = bytes "5" ∧
      (convert w.val).text = bytes "5" ∧ ¬ WritesValue v.val := by
  refine ⟨⟨-5, by decide, by decide⟩, ⟨5, by decide, by decide⟩, rfl, rfl, ?_, ?_, ?_⟩
  · rw [convert_text]
    decide
  · rw [convert_text]
    decide
  · rw [writesValue_iff]
    decide

/-- The quotient lies between the value and zero, whichever is the greater. -/
theorem tdiv_ten_between (i : Int) : min i 0 ≤ i.tdiv 10 ∧ i.tdiv 10 ≤ max i 0 := by
  have habs : (i.tdiv 10).natAbs = i.natAbs / 10 := Int.natAbs_tdiv i 10
  have hsplit : 10 * i.tdiv 10 + i.tmod 10 = i := Int.mul_tdiv_add_tmod i 10
  have hlsd := tmod_ten_between i
  omega

theorem IntType.zero_between (T : IntType) : T.min ≤ 0 ∧ 0 ≤ T.max := by
  cases T <;> decide

/-- `i /= 10`. -/
def IntValue.quot {T : IntType} (i : IntValue T) : IntValue T where
  val := i.val.tdiv 10
  ge := (le_min i.ge T.zero_between.1).trans (tdiv_ten_between i.val).1
  le := (tdiv_ten_between i.val).2.trans (max_le i.le T.zero_between.2)

/-- The values of `lsd` in the loop of `convert`, if it ends within so many rounds. -/
def convertLoop {T : IntType} : Nat → IntValue T → Option (List Int)
  | 0, _ => none
  | rounds + 1, i =>
      let lsd := i.val.tmod 10
      let i := i.quot
      if i.val ≠ 0 then (convertLoop rounds i).map (lsd :: ·) else some [lsd]

/-- The loop takes a round for each digit of the absolute value. -/
theorem convertLoop_eq {T : IntType} {rounds : Nat} : ∀ {i : IntValue T},
    i.val.natAbs < 10 ^ (rounds + 1) → convertLoop (rounds + 1) i = some (remainders i.val) := by
  induction rounds with
  | zero =>
      intro i hi
      have hzero : i.val.tdiv 10 = 0 := by
        have habs : (i.val.tdiv 10).natAbs = i.val.natAbs / 10 := Int.natAbs_tdiv i.val 10
        omega
      rw [remainders_eq, if_pos hzero, convertLoop]
      exact if_neg (not_not_intro hzero)
  | succ rounds ih =>
      intro i hi
      have hquot : i.quot.val.natAbs < 10 ^ (rounds + 1) := by
        have habs : i.quot.val.natAbs = i.val.natAbs / 10 := Int.natAbs_tdiv i.val 10
        rw [Nat.pow_succ] at hi
        omega
      rw [remainders_eq, convertLoop]
      by_cases hzero : i.val.tdiv 10 = 0
      · rw [if_pos hzero]
        exact if_neg (not_not_intro hzero)
      · rw [if_neg hzero]
        refine (if_pos hzero).trans ?_
        rw [ih hquot]
        rfl

theorem IntValue.natAbs_lt {T : IntType} (v : IntValue T) : v.val.natAbs < 10 ^ 20 := by
  have hge := v.ge
  have hle := v.le
  cases T <;> simp only [IntType.min, IntType.max] at hge hle <;> omega

/-- The loop ends, with no more rounds than twenty. -/
theorem convertLoop_ends {T : IntType} (v : IntValue T) {rounds : Nat} (hrounds : 20 ≤ rounds) :
    convertLoop rounds v = some (remainders v.val) := by
  obtain ⟨n, rfl⟩ : ∃ n, rounds = n + 1 := ⟨rounds - 1, by omega⟩
  apply convertLoop_eq
  calc v.val.natAbs < 10 ^ 20 := v.natAbs_lt
    _ ≤ 10 ^ (n + 1) := Nat.pow_le_pow_right (by decide) hrounds

/-- Each `lsd` has its character in the table. -/
theorem remainders_inTable {i lsd : Int} (hlsd : lsd ∈ remainders i) :
    0 ≤ 9 + lsd ∧ 9 + lsd < digits.length := by
  have htable : digits.length = 19 := rfl
  induction i using remainders.induct with
  | case1 i ih =>
      rw [remainders_eq, List.mem_cons] at hlsd
      rcases hlsd with rfl | hrest
      · have hbetween := tmod_ten_between i
        omega
      · split_ifs at hrest with hzero
        · cases hrest
        · exact ih hzero hrest

/-- No value of a type has more than twenty digits. -/
theorem convert_length_le {T : IntType} (v : IntValue T) : (convert v.val).length ≤ 20 := by
  rw [convert_length, stdToString, List.length_map]
  exact (Nat.length_toDigits_le_iff (by decide) (by decide)).mpr v.natAbs_lt

theorem convert_written_length (v : Int) : (convert v).written.length = (convert v).length + 1 := by
  rw [convert_written, convert_length, List.length_append, List.length_singleton]

theorem convert_text_length (v : Int) : (convert v).text.length = (convert v).length := by
  rw [convert_text, convert_length]

end WebServer
