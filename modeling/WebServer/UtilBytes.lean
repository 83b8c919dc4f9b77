import Mathlib.Algebra.Group.Int.Defs
import Mathlib.Algebra.Group.Nat.Defs
import Mathlib.Data.List.Basic
import Mathlib.Data.List.TakeWhile

/-! Byte strings and the part of `std::string` the server uses. A `size_t` is a natural number below
`2^64` whose arithmetic wraps, so that `npos` flows through additions, differences and comparisons as
it does in the source. A conversion to `int` keeps the lowest 32 bits: `npos` becomes `-1`. The `ssize_t`
counts that `readn` returns are plain integers. A call that throws, or that reads outside a string, is a
`Fault`. -/

namespace WebServer

abbrev Byte := UInt8

abbrev Bytes := List Byte

/-- The bytes of a string literal of the source. -/
def bytes (s : String) : Bytes := s.toList.flatMap String.utf8EncodeChar

def cr : Byte := 13

def lf : Byte := 10

def space : Byte := 32

def colon : Byte := 58

def slash : Byte := 47

def question : Byte := 63

def dot : Byte := 46

/-- What leaves a function other than by its return. -/
inductive Fault where
  /-- `std::out_of_range` of `std::string::substr`. -/
  | substrRange
  /-- `std::invalid_argument` of `std::stoi`. -/
  | stoiInvalid
  /-- `std::out_of_range` of `std::stoi`. -/
  | stoiRange
  /-- An iterator range that is not inside its string: undefined behaviour. -/
  | badSlice
  /-- A write past the end of a local array: undefined behaviour. -/
  | overflow
  /-- An insertion into what a `LogStream` operator left without its `return`: undefined behaviour. -/
  | lostStream
  /-- Not a fault of the source: the bound on the depth of self-calls was too small. -/
  | depth
  deriving DecidableEq, Repr

/-- `2 ^ 64`. -/
def sizeModulus : Nat := 18446744073709551616

/-- `std::string::npos`. -/
def npos : Nat := 18446744073709551615

/-- An `int` converted to `size_t`. -/
def sizeT (n : Int) : Nat := (n % (sizeModulus : Int)).toNat

/-- A `size_t` or `ssize_t` converted to `int`. -/
def toInt (n : Int) : Int := (BitVec.ofInt 32 n).toInt

def addSize (a b : Nat) : Nat := (a + b) % sizeModulus

def subSize (a b : Nat) : Nat := (a + (sizeModulus - b)) % sizeModulus

/-- `s.find(c, pos)` for a single character. -/
def find (s : Bytes) (c : Byte) (pos : Nat) : Nat :=
  if pos < s.length then
    match (s.drop pos).findIdx? (· == c) with
    | some i => pos + i
    | none => npos
  else npos

/-- The first position of `pat` in a string. -/
def indexOf (pat : Bytes) : Bytes → Option Nat
  | [] => if pat = [] then some 0 else none
  | b :: s => if pat.isPrefixOf (b :: s) then some 0 else (indexOf pat s).map (· + 1)

/-- `s.find(pat)`. -/
def findStr (s pat : Bytes) : Nat := (indexOf pat s).getD npos

/-- `s.substr(pos, n)`. -/
def substr (s : Bytes) (pos n : Nat) : Except Fault Bytes :=
  if s.length < pos then .error .substrRange else .ok ((s.drop pos).take n)

/-- `s.substr(pos)`. -/
def substrFrom (s : Bytes) (pos : Nat) : Except Fault Bytes :=
  if s.length < pos then .error .substrRange else .ok (s.drop pos)

/-- `std::string(s.begin() + start, s.begin() + stop)`. -/
def slice (s : Bytes) (start stop : Int) : Except Fault Bytes :=
  if 0 ≤ start ∧ start ≤ stop ∧ stop ≤ s.length then
    .ok ((s.drop start.toNat).take (stop.toNat - start.toNat))
  else .error .badSlice

/-- What a function that takes `s.c_str()` reads: the bytes before the first NUL. -/
def cstr (s : Bytes) : Bytes := s.takeWhile (· ≠ 0)

/-- `std::to_string`. -/
def stdToString (n : Nat) : Bytes := (Nat.toDigits 10 n).map fun c => UInt8.ofNat c.toNat

def isSpace (b : Byte) : Bool := b == 32 || (9 ≤ b && b ≤ 13)

def isDigit (b : Byte) : Bool := 48 ≤ b && b ≤ 57

def digitsValue (s : Bytes) : Nat := s.foldl (fun n b => 10 * n + (b.toNat - 48)) 0

/-- The digits `std::stoi` reads after the sign, as a number of that sign. -/
def stoiDigits (negative : Bool) (s : Bytes) : Except Fault Int :=
  let digits := s.takeWhile isDigit
  if digits = [] then .error .stoiInvalid
  else
    let n : Int := if negative then -(digitsValue digits : Int) else digitsValue digits
    if -2147483648 ≤ n ∧ n ≤ 2147483647 then .ok n else .error .stoiRange

/-- `std::stoi`: white space, a sign, digits, and anything after them. -/
def stoi (s : Bytes) : Except Fault Int :=
  match s.dropWhile isSpace with
  | 45 :: rest => stoiDigits true rest
  | 43 :: rest => stoiDigits false rest
  | rest => stoiDigits false rest

@[simp] theorem toInt_zero : toInt 0 = 0 := rfl

@[simp] theorem toInt_neg_one : toInt (-1) = -1 := rfl

@[simp] theorem toInt_npos : toInt npos = -1 := rfl

theorem toInt_eq_bmod (n : Int) : toInt n = n.bmod (2 ^ 32) := BitVec.toInt_ofInt n

theorem toInt_of_lt {n : Nat} (hn : n < 2 ^ 31) : toInt n = n := by
  rw [toInt_eq_bmod, Int.bmod_def]
  omega

theorem toInt_between (n : Int) : -2147483648 ≤ toInt n ∧ toInt n ≤ 2147483647 := by
  rw [toInt_eq_bmod]
  have hge := Int.le_bmod (x := n) (m := 2 ^ 32) (by decide)
  have hlt := Int.bmod_lt (x := n) (m := 2 ^ 32) (by decide)
  omega

/-- The difference of two `int`s, where it wraps. -/
theorem toInt_sub_toInt (a b : Int) : toInt (toInt a - toInt b) = toInt (a - b) := by
  simp only [toInt_eq_bmod, Int.bmod_def]
  omega

theorem addSize_le (a b : Nat) : addSize a b ≤ a + b := Nat.mod_le _ _

theorem find_lt {s : Bytes} {c : Byte} {pos : Nat} (h : find s c pos ≠ npos) :
    pos ≤ find s c pos ∧ find s c pos < s.length := by
  unfold find at h ⊢
  by_cases hpos : pos < s.length
  · rw [if_pos hpos] at h ⊢
    cases hi : (s.drop pos).findIdx? (· == c) with
    | none => simp [hi] at h
    | some i =>
        have hlt := (List.findIdx?_eq_some_iff_findIdx_eq.mp hi).1
        rw [List.length_drop] at hlt
        simp only
        omega
  · rw [if_neg hpos] at h
    exact absurd rfl h

theorem substr_ok {s : Bytes} {pos : Nat} (n : Nat) (h : pos ≤ s.length) :
    substr s pos n = .ok ((s.drop pos).take n) := if_neg (by omega)

theorem substrFrom_ok {s : Bytes} {pos : Nat} (h : pos ≤ s.length) :
    substrFrom s pos = .ok (s.drop pos) := if_neg (by omega)

/-- The byte of a digit. -/
theorem toNat_ofNat_digit {c : Char} (hc : c.isDigit = true) : (UInt8.ofNat c.toNat).toNat = c.toNat := by
  have hrange := Char.isDigit_iff_toNat.mp hc
  rw [show '0'.toNat = 48 from rfl, show '9'.toNat = 57 from rfl] at hrange
  apply UInt8.toNat_ofNat_of_lt'
  show c.toNat < 256
  omega

/-- A number begins with a digit. -/
theorem stdToString_cons (n : Nat) : ∃ d ds, stdToString n = d :: ds ∧ isDigit d = true := by
  unfold stdToString
  cases hdigits : Nat.toDigits 10 n with
  | nil => exact absurd hdigits Nat.toDigits_ne_nil
  | cons c cs =>
      have hc : c.isDigit = true :=
        Nat.isDigit_of_mem_toDigits (by decide) (by decide) (hdigits ▸ List.mem_cons_self)
      have hrange := Char.isDigit_iff_toNat.mp hc
      refine ⟨_, _, rfl, ?_⟩
      rw [isDigit, Bool.and_eq_true, decide_eq_true_iff, decide_eq_true_iff, UInt8.le_iff_toNat_le,
        UInt8.le_iff_toNat_le, toNat_ofNat_digit hc]
      exact hrange

theorem foldl_digits {digits : List Char} (hdigits : ∀ c ∈ digits, c.isDigit = true) (n : Nat) :
    (digits.map fun c => UInt8.ofNat c.toNat).foldl (fun n b => 10 * n + (b.toNat - 48)) n =
      Nat.ofDigitChars 10 digits n := by
  induction digits generalizing n with
  | nil => rw [List.map_nil, List.foldl_nil, Nat.ofDigitChars_nil]
  | cons c digits ih =>
      rw [List.map_cons, List.foldl_cons, toNat_ofNat_digit (hdigits c List.mem_cons_self),
        ih fun d hd => hdigits d (List.mem_cons_of_mem _ hd), Nat.ofDigitChars_cons]
      rfl

/-- A number is read back from its digits. -/
theorem digitsValue_stdToString (n : Nat) : digitsValue (stdToString n) = n := by
  rw [digitsValue, stdToString, foldl_digits, Nat.ofDigitChars_ten_toDigits]
  exact fun c hc => Nat.isDigit_of_mem_toDigits (by decide) (by decide) hc

theorem stdToString_injective : Function.Injective stdToString := fun m n h => by
  rw [← digitsValue_stdToString m, h, digitsValue_stdToString]

end WebServer
