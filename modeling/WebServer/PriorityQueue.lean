import Mathlib.Data.List.Sort

/-! Priority queues over a comparison, known by what their operations do to the contents: one that is
not empty has a top, which no element of the contents comes before. How the elements are stored, and which
of several first ones is the top, is left open. -/

/-- `Q` is a type of priority queues; `after a b` says that `b` is to be taken before `a`. -/
structure PriorityQueue (Q : Type*) {α : Type*} (after : α → α → Bool) where
  contents : Q → List α
  top : Q → Option α
  pop : Q → Q
  push : Q → α → Q
  top_eq_none : ∀ q, top q = none → contents q = []
  contents_pop : ∀ q a, top q = some a → (contents q).Perm (a :: contents (pop q))
  top_first : ∀ q a, top q = some a → ∀ b ∈ contents q, after a b = false
  contents_push : ∀ q a, (contents (push q a)).Perm (a :: contents q)

namespace PriorityQueue

variable {Q α : Type*} {after : α → α → Bool} (pq : PriorityQueue Q after)

theorem length_pop {q : Q} {a : α} (htop : pq.top q = some a) :
    (pq.contents (pq.pop q)).length < (pq.contents q).length := by
  have hlength := (pq.contents_pop q a htop).length_eq
  rw [List.length_cons] at hlength
  omega

theorem top_mem {q : Q} {a : α} (htop : pq.top q = some a) : a ∈ pq.contents q :=
  (pq.contents_pop q a htop).symm.subset List.mem_cons_self

/-- What holds of a queue without a top, and of one if it holds after its top was popped, holds of every
queue. -/
theorem induction {motive : Q → Prop} (hempty : ∀ q, pq.top q = none → motive q)
    (hpop : ∀ q a, pq.top q = some a → motive (pq.pop q) → motive q) (q : Q) : motive q := by
  induction hn : (pq.contents q).length using Nat.strong_induction_on generalizing q with
  | _ n ih =>
      cases htop : pq.top q with
      | none => exact hempty q htop
      | some a => exact hpop q a htop (ih _ (hn ▸ pq.length_pop htop) _ rfl)

section Sorted

variable (after) [Std.Total fun a b => after a b = false] [IsTrans α fun a b => after a b = false]

/-- A list kept in order is a priority queue, for a comparison that ranks the elements. -/
def sorted : PriorityQueue { l : List α // l.Pairwise fun a b => after a b = false } after where
  contents q := q.1
  top q := q.1.head?
  pop q := ⟨q.1.tail, q.2.tail⟩
  push q a := ⟨q.1.orderedInsert (fun a b => after a b = false) a, q.2.orderedInsert a q.1⟩
  top_eq_none q htop := List.head?_eq_none_iff.mp htop
  contents_pop q a htop := .of_eq (List.eq_cons_of_mem_head? htop)
  top_first q a htop b hb := by
    have hq := q.2
    rw [List.eq_cons_of_mem_head? htop] at hq hb
    rcases List.mem_cons.mp hb with rfl | hb
    · exact refl_of (fun a b => after a b = false) b
    · exact (List.pairwise_cons.mp hq).1 b hb
  contents_push q a := List.perm_orderedInsert _ a q.1

end Sorted

end PriorityQueue
