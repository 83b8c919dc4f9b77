import Mathlib.Data.List.Rotate
import Mathlib.Data.Nat.ModEq

/-! A ring of slots that holds a queue: `count` elements from the slot `head` on, wrapping around at the
end of the slots. An element is put into the slot behind the last one, and taken from the first. -/

namespace Ring

variable {α : Type*}

/-- The elements held, in their order. -/
def contents (slots : List α) (head count : Nat) : List α := (slots.rotate head).take count

theorem length_contents {slots : List α} {head count : Nat} (h : count ≤ slots.length) :
    (contents slots head count).length = count := by
  rw [contents, List.length_take, List.length_rotate, Nat.min_eq_left h]

/-- Places of the ring that are less than a turn apart are different slots. -/
theorem place_inj {n head i j : Nat} (hi : i < n) (hj : j < n)
    (h : (i + head) % n = (j + head) % n) : i = j :=
  Nat.ModEq.eq_of_lt_of_lt (Nat.ModEq.add_right_cancel' head h) hi hj

/-- A slot is written in place, seen from the head. -/
theorem rotate_set (slots : List α) (head : Nat) {i : Nat} (hi : i < slots.length) (x : α) :
    (slots.set ((i + head) % slots.length) x).rotate head = (slots.rotate head).set i x := by
  apply List.ext_getElem?
  intro m
  by_cases hm : m < slots.length
  · have hplace : (i + head) % slots.length < slots.length := Nat.mod_lt _ (by omega)
    rw [List.getElem?_rotate (by rwa [List.length_set]), List.length_set, List.getElem?_set,
      List.getElem?_set, List.length_rotate, List.getElem?_rotate hm, if_pos hplace, if_pos hi]
    by_cases him : i = m
    · rw [if_pos him, if_pos (him ▸ rfl)]
    · rw [if_neg him, if_neg fun h => him (place_inj hi hm h)]
  · rw [List.getElem?_eq_none (by rw [List.length_rotate, List.length_set]; omega),
      List.getElem?_eq_none (by rw [List.length_set, List.length_rotate]; omega)]

/-- An element is put behind those held. -/
theorem contents_push (slots : List α) (head : Nat) {count : Nat} (h : count < slots.length) (x : α) :
    contents (slots.set ((head + count) % slots.length) x) head (count + 1) =
      contents slots head count ++ [x] := by
  have hlen : count < (slots.rotate head).length := by rwa [List.length_rotate]
  rw [contents, Nat.add_comm head, rotate_set slots head h, List.take_add_one, List.take_set_of_le le_rfl,
    List.getElem?_set_self hlen]
  rfl

/-- The first element is taken, and its slot may be written. -/
theorem contents_pop {slots : List α} {head count : Nat} (hhead : head < slots.length)
    (hcount : count < slots.length) (x : α) :
    contents slots head (count + 1) =
      slots[head] :: contents (slots.set head x) ((head + 1) % slots.length) count := by
  have hset : (slots.set head x).rotate head = (slots.rotate head).set 0 x := by
    have h := rotate_set slots head (Nat.zero_lt_of_lt hhead) x
    rwa [Nat.zero_add, Nat.mod_eq_of_lt hhead] at h
  have hfirst := List.head?_rotate hhead
  have hturn := List.rotate_mod (slots.set head x) (head + 1)
  rw [List.length_set] at hturn
  rw [contents, contents, hturn, ← List.rotate_rotate, hset]
  cases hrot : slots.rotate head with
  | nil =>
      rw [hrot, List.getElem?_eq_getElem hhead] at hfirst
      cases hfirst
  | cons a rest =>
      have hrest : count ≤ rest.length := by
        have hlen := List.length_rotate slots head
        rw [hrot, List.length_cons] at hlen
        omega
      rw [hrot, List.getElem?_eq_getElem hhead, List.head?_cons, Option.some.injEq] at hfirst
      rw [List.set_cons_zero, List.rotate_cons_succ, List.rotate_zero, List.take_append_of_le_length hrest,
        List.take_succ_cons, hfirst]

end Ring
