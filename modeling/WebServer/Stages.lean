import Mathlib.Tactic.Common

/-! Straight-line code with early exits: a sequence of stages over one state, each of which goes on to
the next stage, breaks out of the sequence, or leaves by a fault. A stage is described by an invariant
and by a relation between its two ends; the rules below compose them along a sequence. -/

namespace Stages

universe u v

variable {ε : Type v} {σ : Type u}

theorem bind_eq_ok {α β : Type u} {x : Except ε α} {f : α → Except ε β} {b : β}
    (h : (x >>= f) = .ok b) : ∃ a, x = .ok a ∧ f a = .ok b := by
  cases x with
  | error e => cases h
  | ok a => exact ⟨a, rfl, h⟩

theorem map_eq_ok {α β : Type u} {x : Except ε α} {f : α → β} {b : β} (h : x.map f = .ok b) :
    ∃ a, x = .ok a ∧ f a = b := by
  cases x with
  | error e => cases h
  | ok a => exact ⟨a, rfl, Except.ok.inj h⟩

/-- An error is no result. -/
theorem error_ne_ok {α : Type u} (e : ε) : ¬ ∃ a, (Except.error e : Except ε α) = .ok a := by
  rintro ⟨a, ha⟩
  cases ha

theorem ok_bind {α β : Type u} (a : α) (f : α → Except ε β) : (Except.ok a >>= f) = f a := rfl

/-- A map that the continuations on both sides respect. -/
theorem map_bind {α α' β β' : Type u} {f : α → α'} {g : β → β'} {x : Except ε α} {k : α → Except ε β}
    {k' : α' → Except ε β'} (hk : ∀ a, (k a).map g = k' (f a)) : (x >>= k).map g = x.map f >>= k' := by
  cases x with
  | error e => rfl
  | ok a => exact hk a

/-- What holds of an outcome: `E` of its error, or `P` of its value. -/
def Safe {α : Type u} (E : ε → Prop) (P : α → Prop) : Except ε α → Prop
  | .ok a => P a
  | .error e => E e

theorem Safe.imp {α : Type u} {E : ε → Prop} {P Q : α → Prop} {x : Except ε α} (hx : Safe E P x)
    (h : ∀ a, P a → Q a) : Safe E Q x := by
  cases x with
  | error e => exact hx
  | ok a => exact h a hx

theorem Safe.bind {α β : Type u} {E : ε → Prop} {P : α → Prop} {Q : β → Prop} {x : Except ε α}
    {f : α → Except ε β} (hx : Safe E P x) (hf : ∀ a, P a → Safe E Q (f a)) : Safe E Q (x >>= f) := by
  cases x with
  | error e => exact hx
  | ok a => exact hf a hx

inductive Flow where
  | next
  | brk
  deriving DecidableEq

abbrev Stage (ε : Type v) (σ : Type u) := σ → Except ε (Flow × σ)

def Stage.seq (first second : Stage ε σ) : Stage ε σ := fun c =>
  match first c with
  | .error f => .error f
  | .ok (.brk, c) => .ok (.brk, c)
  | .ok (.next, c) => second c

theorem seq_next {first second : Stage ε σ} {c c' : σ} (h : first c = .ok (.next, c')) :
    first.seq second c = second c' := by
  simp only [Stage.seq, h]

theorem seq_brk {first second : Stage ε σ} {c c' : σ} (h : first c = .ok (.brk, c')) :
    first.seq second c = .ok (.brk, c') := by
  simp only [Stage.seq, h]

theorem seq_error {first second : Stage ε σ} {c : σ} {e : ε} (h : first c = .error e) :
    first.seq second c = .error e := by
  simp only [Stage.seq, h]

/-- Where the stage ends without a fault, `R` relates its ends. -/
def Stage.Relates (s : Stage ε σ) (R : σ → σ → Prop) : Prop :=
  ∀ c flow c', s c = .ok (flow, c') → R c c'

theorem Stage.Relates.seq {first second : Stage ε σ} {R : σ → σ → Prop}
    (htrans : ∀ c d e, R c d → R d e → R c e) (hfirst : first.Relates R) (hsecond : second.Relates R) :
    (first.seq second).Relates R := by
  intro c flow e hrun
  cases hstage : first c with
  | error f =>
      rw [seq_error hstage] at hrun
      cases hrun
  | ok r =>
      obtain ⟨flow', d⟩ := r
      cases flow' with
      | next =>
          rw [seq_next hstage] at hrun
          exact htrans c d e (hfirst c _ d hstage) (hsecond d flow e hrun)
      | brk =>
          rw [seq_brk hstage] at hrun
          cases hrun
          exact hfirst c _ _ hstage

/-- One statement for each way to end. -/
def Flow.Leads (P Q : Prop) : Flow → Prop
  | .next => P
  | .brk => Q

/-- Where the stage goes on, `R` relates its ends, and where it breaks out, `B` does. -/
def Stage.Leads (s : Stage ε σ) (R B : σ → σ → Prop) : Prop :=
  ∀ c flow c', s c = .ok (flow, c') → flow.Leads (R c c') (B c c')

theorem Stage.Leads.imp {s : Stage ε σ} {R R' B B' : σ → σ → Prop} (hs : s.Leads R B)
    (hnext : ∀ c d, R c d → R' c d) (hbrk : ∀ c d, B c d → B' c d) : s.Leads R' B' := by
  intro c flow d hrun
  have hleads := hs c flow d hrun
  cases flow with
  | next => exact hnext c d hleads
  | brk => exact hbrk c d hleads

theorem Stage.Leads.relates {s : Stage ε σ} {R : σ → σ → Prop} (hs : s.Leads R R) : s.Relates R := by
  intro c flow d hrun
  have hleads := hs c flow d hrun
  cases flow with
  | next => exact hleads
  | brk => exact hleads

theorem Stage.Leads.seq {first second : Stage ε σ} {R B : σ → σ → Prop}
    (htrans : ∀ c d e, R c d → R d e → R c e) (hbrk : ∀ c d e, R c d → B d e → B c e)
    (hfirst : first.Leads R B) (hsecond : second.Leads R B) : (first.seq second).Leads R B := by
  intro c flow e hrun
  cases hstage : first c with
  | error f =>
      rw [seq_error hstage] at hrun
      cases hrun
  | ok r =>
      obtain ⟨flow', d⟩ := r
      cases flow' with
      | next =>
          rw [seq_next hstage] at hrun
          have hcd : R c d := hfirst c _ d hstage
          have hde := hsecond d flow e hrun
          cases flow with
          | next => exact htrans c d e hcd hde
          | brk => exact hbrk c d e hcd hde
      | brk =>
          rw [seq_brk hstage] at hrun
          cases hrun
          exact hfirst c _ _ hstage

/-- The same error on both sides, or values that are related by `R`. -/
def Both {α β : Type*} (R : α → β → Prop) : Except ε α → Except ε β → Prop
  | .ok a, .ok b => R a b
  | .error e, .error e' => e = e'
  | .ok _, .error _ => False
  | .error _, .ok _ => False

theorem Both.bind {α β : Type*} {α' β' : Type*} {R : α → β → Prop} {S : α' → β' → Prop}
    {x : Except ε α} {y : Except ε β} {f : α → Except ε α'} {g : β → Except ε β'} (hxy : Both R x y)
    (hfg : ∀ a b, R a b → Both S (f a) (g b)) : Both S (x.bind f) (y.bind g) := by
  cases x with
  | error e =>
      cases y with
      | error e' => exact hxy
      | ok b => exact hxy.elim
  | ok a =>
      cases y with
      | error e' => exact hxy.elim
      | ok b => exact hfg a b hxy

/-- What related values have in common, the outcomes have in common. -/
theorem Both.map_eq {α β γ : Type*} {R : α → β → Prop} {x : Except ε α} {y : Except ε β} {f : α → γ}
    {g : β → γ} (hxy : Both R x y) (hfg : ∀ a b, R a b → f a = g b) : x.map f = y.map g := by
  cases x with
  | error e =>
      cases y with
      | error e' => exact congrArg Except.error hxy
      | ok b => exact hxy.elim
  | ok a =>
      cases y with
      | error e' => exact hxy.elim
      | ok b => exact congrArg Except.ok (hfg a b hxy)

/-- Two runs of the stage from related states end alike, in related states. -/
def Stage.Lockstep (s : Stage ε σ) (R : σ → σ → Prop) : Prop :=
  ∀ c d, R c d → Both (fun x y => x.1 = y.1 ∧ R x.2 y.2) (s c) (s d)

theorem Stage.Lockstep.seq {first second : Stage ε σ} {R : σ → σ → Prop} (hfirst : first.Lockstep R)
    (hsecond : second.Lockstep R) : (first.seq second).Lockstep R := by
  intro c d hcd
  have hboth := hfirst c d hcd
  cases hc : first c with
  | error e =>
      cases hd : first d with
      | error e' =>
          rw [hc, hd] at hboth
          simpa only [Stage.seq, hc, hd] using hboth
      | ok y =>
          rw [hc, hd] at hboth
          exact hboth.elim
  | ok x =>
      cases hd : first d with
      | error e' =>
          rw [hc, hd] at hboth
          exact hboth.elim
      | ok y =>
          obtain ⟨flow, c'⟩ := x
          obtain ⟨flow', d'⟩ := y
          rw [hc, hd] at hboth
          obtain ⟨hflow, hcd'⟩ := hboth
          obtain rfl : flow = flow' := hflow
          cases flow with
          | next =>
              rw [seq_next hc, seq_next hd]
              exact hsecond c' d' hcd'
          | brk =>
              rw [seq_brk hc, seq_brk hd]
              exact ⟨rfl, hcd'⟩

end Stages
