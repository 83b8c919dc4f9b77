import WebServer.UtilBytes

/-! Searches as optional positions: where `find` and `findStr` look, whether or not a `size_t` or an
`int` can tell a failed search from a position. -/

namespace WebServer

/-- A string is shorter than `npos`, as `max_size` promises. -/
def Fits (s : Bytes) : Prop := s.length < npos

instance (s : Bytes) : Decidable (Fits s) := inferInstanceAs (Decidable (_ < _))

/-- The first position of a byte from `pos` on. -/
def position (s : Bytes) (c : Byte) (pos : Nat) : Option Nat :=
  ((s.drop pos).findIdx? (· == c)).map (pos + ·)

/-- The first position of `pat`, where the `int` that keeps it is not negative: the value of that
`int`. -/
def intPosition (s pat : Bytes) : Option Nat :=
  (indexOf pat s).bind fun p => if 0 ≤ toInt p then some (toInt p).toNat else none

theorem addSize_of_lt {a b : Nat} (h : a + b < sizeModulus) : addSize a b = a + b := Nat.mod_eq_of_lt h

theorem subSize_of_le {a b : Nat} (ha : a < sizeModulus) (hb : b ≤ a) : subSize a b = a - b := by
  unfold subSize sizeModulus at *
  omega

theorem sizeT_toInt {n : Int} (h : 0 ≤ toInt n) : sizeT (toInt n) = (toInt n).toNat := by
  have hlt : toInt n < 2147483648 := BitVec.toInt_lt
  unfold sizeT sizeModulus
  omega

/-- A length less a failed search. -/
theorem subSize_npos {a : Nat} (ha : a < npos) : subSize a npos = a + 1 := by
  unfold subSize sizeModulus npos at *
  omega

theorem find_eq (s : Bytes) (c : Byte) (pos : Nat) : find s c pos = (position s c pos).getD npos := by
  unfold find position
  by_cases hpos : pos < s.length
  · rw [if_pos hpos]
    cases (s.drop pos).findIdx? (· == c) <;> rfl
  · rw [if_neg hpos, List.drop_eq_nil_of_le (by omega)]
    rfl

theorem position_bounds {s : Bytes} {c : Byte} {pos p : Nat} (h : position s c pos = some p) :
    pos ≤ p ∧ p < s.length := by
  obtain ⟨i, hi, rfl⟩ := Option.map_eq_some_iff.mp h
  have hlt := (List.findIdx?_eq_some_iff_findIdx_eq.mp hi).1
  rw [List.length_drop] at hlt
  omega

theorem position_from_end {s : Bytes} {pos : Nat} (c : Byte) (h : s.length ≤ pos) :
    position s c pos = none := by
  rw [position, List.drop_eq_nil_of_le h]
  rfl

/-- The first occurrence of a byte ends the part of the string that is free of it. -/
theorem position_split {a : Bytes} {c : Byte} {pos : Nat} (b : Bytes) (hpos : pos ≤ a.length)
    (h : c ∉ a.drop pos) : position (a ++ c :: b) c pos = some a.length := by
  have hnone : (a.drop pos).findIdx? (· == c) = none := by
    rw [List.findIdx?_eq_none_iff]
    intro x hx
    exact beq_eq_false_iff_ne.mpr fun hxc => h (hxc ▸ hx)
  rw [position, List.drop_append_of_le_length hpos, List.findIdx?_append, hnone, List.findIdx?_cons,
    beq_self_eq_true, List.length_drop]
  simp only [if_true, Option.none_or, Option.map_some, Option.some.injEq]
  omega

/-- A search that starts after one part of a string, over a part without the byte. -/
theorem position_chunk {b : Bytes} {c : Byte} (a d : Bytes) (h : c ∉ b) :
    position (a ++ (b ++ c :: d)) c a.length = some (a ++ b).length := by
  rw [← List.append_assoc, position_split d (by simp)]
  rwa [List.drop_left]

/-- A string up to the first `c`, or all of it. -/
theorem take_position {s : Bytes} {n : Nat} (c : Byte) (hn : s.length ≤ n) :
    s.take ((position s c 0).getD n) = s.takeWhile (· ≠ c) := by
  induction s generalizing n with
  | nil => exact List.take_nil
  | cons b s ih =>
      rw [List.length_cons] at hn
      by_cases hb : b = c
      · simp [position, List.findIdx?_cons, hb]
      · have hstep : position (b :: s) c 0 = (position s c 0).map (· + 1) := by
          simp only [position, List.drop_zero, List.findIdx?_cons, beq_false_of_ne hb, Bool.false_eq_true,
            if_false, Option.map_map]
          congr 1
        have hlen : (b :: s).take (n - 1 + 1) = b :: s.take (n - 1) := List.take_succ_cons
        rw [hstep, List.takeWhile_cons_of_pos (by simpa using hb), ← ih (n := n - 1) (by omega)]
        cases position s c 0 with
        | none => rwa [show n - 1 + 1 = n by omega] at hlen
        | some p => rfl

theorem position_drop (s : Bytes) (c : Byte) (pos : Nat) :
    position s c pos = (position (s.drop pos) c 0).map (pos + ·) := by
  simp [position]

/-- A string from `pos` up to the first `c`, or all of it. -/
theorem drop_takeWhile (s : Bytes) (c : Byte) (pos : Nat) :
    (s.drop pos).takeWhile (· ≠ c) = (s.drop pos).take ((position s c pos).getD s.length - pos) := by
  have hlength : (s.drop pos).length ≤ s.length - pos := by rw [List.length_drop]
  rw [← take_position c hlength, position_drop s c pos]
  cases position (s.drop pos) c 0 with
  | none => rfl
  | some i => simp

/-- The string from the position found on. -/
theorem drop_position {s : Bytes} {c : Byte} {pos p : Nat} (h : position s c pos = some p) :
    s.drop p = c :: s.drop (p + 1) := by
  have hlt := (position_bounds h).2
  obtain ⟨i, hi, rfl⟩ := Option.map_eq_some_iff.mp h
  obtain ⟨hlt', hget, -⟩ := List.findIdx?_eq_some_iff_getElem.mp hi
  rw [List.getElem_drop, beq_iff_eq] at hget
  rw [List.drop_eq_getElem_cons hlt, hget]

theorem isPrefixOf_append_cons {pat : Bytes} {c : Byte} (hc : c ∉ pat) (s tail : Bytes) :
    pat.isPrefixOf (s ++ c :: tail) = pat.isPrefixOf s := by
  induction pat generalizing s with
  | nil => rfl
  | cons p pat ih =>
      rw [List.mem_cons, not_or] at hc
      cases s with
      | nil => simp [List.isPrefixOf, Ne.symm hc.1]
      | cons b s => rw [List.cons_append, List.isPrefixOf, List.isPrefixOf, ih hc.2]

/-- What follows a byte that is not in the pattern is searched by itself. -/
theorem indexOf_append_cons {pat tail : Bytes} {c : Byte} (hpat : pat ≠ []) (hc : c ∉ pat)
    (htail : indexOf pat (c :: tail) = none) (s : Bytes) :
    indexOf pat (s ++ c :: tail) = indexOf pat s := by
  induction s with
  | nil => rw [List.nil_append, htail, indexOf, if_neg hpat]
  | cons b s ih =>
      rw [List.cons_append, indexOf, indexOf, ih, ← List.cons_append, isPrefixOf_append_cons hc]

/-- A part of the string without the first byte of the pattern is passed over. -/
theorem indexOf_append_of_notMem {p : Byte} {a : Bytes} (ha : p ∉ a) (pat s : Bytes) :
    indexOf (p :: pat) (a ++ s) = (indexOf (p :: pat) s).map (a.length + ·) := by
  induction a with
  | nil => simp
  | cons b a ih =>
      rw [List.mem_cons, not_or] at ha
      rw [List.cons_append, indexOf, List.isPrefixOf, beq_false_of_ne ha.1, ih ha.2]
      simp only [Bool.false_and, Bool.false_eq_true, if_false, Option.map_map, List.length_cons]
      congr 1
      funext i
      exact Nat.add_right_comm ..

theorem indexOf_prefix (pat s : Bytes) : indexOf pat (pat ++ s) = some 0 := by
  cases pat with
  | nil => cases s <;> rfl
  | cons p pat =>
      rw [List.cons_append, indexOf, ← List.cons_append, if_pos]
      rw [List.isPrefixOf_iff_prefix]
      exact List.prefix_append ..

theorem intPosition_eq (s pat : Bytes) :
    intPosition s pat = if 0 ≤ toInt (findStr s pat) then some (sizeT (toInt (findStr s pat))) else none := by
  unfold intPosition findStr
  cases indexOf pat s with
  | none => rw [Option.bind_none, Option.getD_none, toInt_npos, if_neg (by decide)]
  | some p =>
      simp only [Option.bind_some, Option.getD_some]
      by_cases hp : 0 ≤ toInt p
      · rw [if_pos hp, if_pos hp, sizeT_toInt hp]
      · rw [if_neg hp, if_neg hp]

end WebServer
