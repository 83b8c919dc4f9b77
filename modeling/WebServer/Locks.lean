import Mathlib.Data.Option.Basic
import Mathlib.Logic.Function.Basic

/-! A lock that is not recursive, and where its threads stand. A thread stands where it needs the lock or
where it does not, by its program counter. A step of one thread leaves the lock alone, takes it while it
is free, or gives it up, and so who needs the lock has it. -/

namespace Locks

variable {ι : Type*}

/-- Who stands where it needs the lock has it. -/
def Held (owner : Option ι) (holds : ι → Bool) : Prop := ∀ i, holds i → owner = some i

/-- The owner is the one thread that stands where it needs the lock. -/
def Owned (owner : Option ι) (holds : ι → Bool) : Prop := ∀ i, owner = some i ↔ holds i

/-- What a step of the thread `i` does to the lock: it leaves it, takes it for itself, or gives it up. -/
structure Moves (owner : Option ι) (holds : ι → Bool) (owner' : Option ι) (holds' : ι → Bool) (i : ι) :
    Prop where
  others : ∀ k, k ≠ i → holds' k → holds k
  lock : (owner' = owner ∧ (holds' i → holds i)) ∨ (owner = none ∧ owner' = some i) ∨
    (holds i ∧ owner' = none ∧ holds' i = false)

/-- What a step that begins with the lock does once the lock is free. -/
theorem of_acquire {σ : Type*} {owner : Option ι} [Decidable (owner = none)] {a b : σ} {f : σ → σ}
    (h : (if owner = none then some a else none).map f = some b) : owner = none ∧ b = f a := by
  obtain ⟨c, hc, rfl⟩ := Option.map_eq_some_iff.mp h
  obtain ⟨hfree, heq⟩ := Option.ite_none_right_eq_some.mp hc
  exact ⟨hfree, congrArg f (Option.some.inj heq).symm⟩

namespace Held

variable {owner : Option ι} {holds : ι → Bool} {i k : ι}

theorem unique (h : Held owner holds) (hi : holds i) (hk : holds k) : i = k :=
  Option.some.inj ((h i hi).symm.trans (h k hk))

/-- While nobody has the lock, nobody stands where it needs it. -/
theorem free (h : Held none holds) (i : ι) : holds i = false :=
  Bool.eq_false_iff.mpr fun hi => nomatch h i hi

end Held

namespace Moves

variable {o o' : Option ι} {holds holds' : ι → Bool} {i k : ι}

/-- No other thread gets the lock. -/
theorem owner (h : Moves o holds o' holds' i) (hk : k ≠ i) (hown : o' = some k) :
    o = some k := by
  rcases h.lock with ⟨hsame, -⟩ | ⟨-, htaken⟩ | ⟨-, hfree, -⟩
  · rwa [← hsame]
  · rw [htaken] at hown
    cases hown
    exact absurd rfl hk
  · rw [hfree] at hown
    cases hown

theorem held (h : Moves o holds o' holds' i) (hs : Held o holds) : Held o' holds' := by
  intro k hk
  by_cases hki : k = i
  · subst k
    rcases h.lock with ⟨hsame, hholds⟩ | ⟨-, htaken⟩ | ⟨-, -, hnot⟩
    · rw [hsame]
      exact hs i (hholds hk)
    · exact htaken
    · rw [hnot] at hk
      cases hk
  · have hown := hs k (h.others k hki hk)
    rcases h.lock with ⟨hsame, -⟩ | ⟨hnone, -⟩ | ⟨hi, -, -⟩
    · rwa [hsame]
    · rw [hnone] at hown
      cases hown
    · rw [hs i hi] at hown
      cases hown
      exact absurd rfl hki

end Moves

namespace Owned

variable {owner : Option ι} {holds after : ι → Bool} {i : ι}

theorem held (h : Owned owner holds) : Held owner holds := fun i => (h i).mpr

theorem init (hnone : ∀ i, holds i = false) : Owned none holds :=
  fun i => iff_of_false (by simp) (by simp [hnone i])

/-- The thread keeps to its side, and the others do not move. -/
theorem keep (h : Owned owner holds) (hi : after i = holds i) (hne : ∀ k, k ≠ i → after k = holds k) :
    Owned owner after := by
  intro k
  by_cases hk : k = i
  · subst k
    rw [hi]
    exact h i
  · rw [hne k hk]
    exact h k

theorem acquire (h : Owned none holds) (hi : after i = true) (hne : ∀ k, k ≠ i → after k = holds k) :
    Owned (some i) after := by
  intro k
  by_cases hk : k = i
  · subst k
    exact iff_of_true rfl hi
  · refine iff_of_false (fun hsome => hk (Option.some.inj hsome).symm) ?_
    rw [hne k hk, h.held.free k]
    exact Bool.false_ne_true

theorem release (h : Owned owner holds) (hold : holds i = true) (hi : after i = false)
    (hne : ∀ k, k ≠ i → after k = holds k) : Owned none after := by
  apply init
  intro k
  by_cases hk : k = i
  · subst k
    exact hi
  · rw [hne k hk]
    exact Bool.eq_false_iff.mpr fun hholds => hk (h.held.unique hholds hold)

end Owned

end Locks
