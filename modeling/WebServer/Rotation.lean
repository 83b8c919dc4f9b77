import Mathlib.Data.Int.CardIntervalMod

/-! Elements handed out in turn: the `i`-th goes to the place `first + i` modulo the number of places. The
loads of two places then differ by one at most, and whoever passes over some of the elements unbalances them
by no more than the number of those. -/

namespace Rotation

variable {β : Type*} {n first : Nat} {xs : List β} {qs : List (Nat × β)}

/-- The elements with their places. -/
def turns (n first : Nat) (xs : List β) : List (Nat × β) := xs.zipIdx.map fun p => ((first + p.2) % n, p.1)

/-- How many of the elements go to the place. -/
def load (place : Nat) (qs : List (Nat × β)) : Nat := qs.countP fun q => decide (q.1 = place)

theorem turns_concat (n first : Nat) (xs : List β) (x : β) :
    turns n first (xs ++ [x]) = turns n first xs ++ [((first + xs.length) % n, x)] := by
  simp only [turns, List.zipIdx_append, List.map_append, Nat.zero_add, List.zipIdx_singleton, List.map_cons,
    List.map_nil]

theorem length_turns (n first : Nat) (xs : List β) : (turns n first xs).length = xs.length := by
  rw [turns, List.length_map, List.length_zipIdx]

theorem load_concat (place : Nat) (qs : List (Nat × β)) (q : Nat × β) :
    load place (qs ++ [q]) = load place qs + if q.1 = place then 1 else 0 := by
  simp only [load, List.countP_append, List.countP_singleton, decide_eq_true_eq]

theorem load_turns_eq_count (n first place : Nat) (xs : List β) :
    load place (turns n first xs) = Nat.count (fun i => (first + i) % n = place) xs.length := by
  induction xs using List.reverseRecOn with
  | nil => rfl
  | append_singleton xs x ih =>
      rw [turns_concat, load_concat, ih, List.length_append, List.length_singleton, Nat.count_succ]

/-- The turns of a place recur. -/
theorem turn_iff {place : Nat} (hplace : place < n) (i : Nat) :
    (first + i) % n = place ↔ i ≡ place + (n - first % n) [MOD n] := by
  have hn : 0 < n := Nat.zero_lt_of_lt hplace
  have hround : first + (n - first % n) ≡ 0 [MOD n] := by
    have hmod := Nat.div_add_mod first n
    have hlt := Nat.mod_lt first hn
    have hsum : first + (n - first % n) = n * (first / n + 1) := by
      rw [Nat.mul_add, Nat.mul_one]
      omega
    rw [hsum]
    exact (Nat.modEq_zero_iff_dvd).mpr (Nat.dvd_mul_right n _)
  have hturn : (first + i) % n = place ↔ first + i ≡ place [MOD n] := by
    rw [Nat.ModEq, Nat.mod_eq_of_lt hplace]
  have hshift : first + i + (n - first % n) ≡ i [MOD n] := by
    have hsum : first + i + (n - first % n) = first + (n - first % n) + i := by omega
    rw [hsum]
    simpa only [Nat.zero_add] using hround.add_right i
  rw [hturn]
  constructor
  · intro h
    exact hshift.symm.trans (h.add_right _)
  · intro h
    exact Nat.ModEq.add_right_cancel' (n - first % n) (hshift.trans h)

/-- A place gets its share, rounded up or down. -/
theorem load_turns_cases {place : Nat} (hplace : place < n) (first : Nat) (xs : List β) :
    load place (turns n first xs) = xs.length / n ∨ load place (turns n first xs) = xs.length / n + 1 := by
  have hcount := Nat.count_modEq_card xs.length (Nat.zero_lt_of_lt hplace) (place + (n - first % n))
  simp only [load_turns_eq_count, turn_iff hplace, hcount]
  split_ifs
  · exact Or.inr rfl
  · exact Or.inl rfl

/-- Where only some of the elements are handed out, the others are missing from the loads. -/
theorem load_le_of_sublist {place place' : Nat} (hplace : place < n) (hplace' : place' < n)
    (hsub : qs.Sublist (turns n first xs)) :
    load place qs ≤ load place' qs + (xs.length - qs.length) + 1 := by
  have hfull : load place qs ≤ load place (turns n first xs) := hsub.countP_le
  have hmissing : load place' (turns n first xs) - ((turns n first xs).length - qs.length) ≤ load place' qs :=
    hsub.le_countP _
  rw [length_turns] at hmissing
  rcases load_turns_cases hplace first xs with h | h <;>
    rcases load_turns_cases hplace' first xs with h' | h' <;> omega

end Rotation
