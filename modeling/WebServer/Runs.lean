import Mathlib.Data.List.Basic

/-! Finite runs of a labelled partial step function. A label carries what the step function does
not decide by itself (the scheduler's choice, the answers of the environment), so the step function
stays computable and a run is determined by its labels. The steps of a run may be asked to satisfy a
condition on the state before them and on their label; an invariant then has to be kept by those
steps only. -/

namespace Runs

variable {σ α : Type*}

/-- The runs of `step` all of whose steps satisfy `ok` in the state they start from. -/
inductive Run (step : σ → α → Option σ) (ok : σ → α → Prop) : σ → List α → σ → Prop
  | nil (s : σ) : Run step ok s [] s
  | cons {s s' t : σ} {a : α} {as : List α} (hok : ok s a) (hstep : step s a = some s')
      (hrun : Run step ok s' as t) : Run step ok s (a :: as) t

/-- Execute a list of labels; `none` if one of the steps is not available. -/
def exec (step : σ → α → Option σ) : σ → List α → Option σ
  | s, [] => some s
  | s, a :: as => (step s a).bind fun s' => exec step s' as

/-- The step function restricted to the steps that satisfy a decidable condition. -/
def checked (step : σ → α → Option σ) (ok : σ → α → Prop) [∀ s a, Decidable (ok s a)] :
    σ → α → Option σ :=
  fun s a => if ok s a then step s a else none

variable {step : σ → α → Option σ} {ok : σ → α → Prop}

theorem run_of_exec_checked [∀ s a, Decidable (ok s a)] {as : List α} :
    ∀ {s t : σ}, exec (checked step ok) s as = some t → Run step ok s as t := by
  induction as with
  | nil =>
      intro s t h
      cases h
      exact .nil s
  | cons a as ih =>
      intro s t h
      simp only [exec, checked, Option.bind_eq_some_iff] at h
      obtain ⟨s', hs', hrest⟩ := h
      by_cases hok : ok s a
      · rw [if_pos hok] at hs'
        exact .cons hok hs' (ih hrest)
      · rw [if_neg hok] at hs'
        cases hs'

namespace Run

theorem append {s t u : σ} {as bs : List α} (hfirst : Run step ok s as t)
    (hsecond : Run step ok t bs u) : Run step ok s (as ++ bs) u := by
  induction hfirst with
  | nil => exact hsecond
  | cons hok hstep _ ih => exact .cons hok hstep (ih hsecond)

/-- A run over a concatenation stops in between. -/
theorem split {u : σ} {bs : List α} :
    ∀ {as : List α} {s : σ}, Run step ok s (as ++ bs) u →
      ∃ t, Run step ok s as t ∧ Run step ok t bs u
  | [], s, h => ⟨s, .nil s, h⟩
  | _ :: _, _, .cons hok hstep hrun =>
      let ⟨t, hfirst, hsecond⟩ := split hrun
      ⟨t, .cons hok hstep hfirst, hsecond⟩

theorem mono {ok' : σ → α → Prop} (himp : ∀ s a, ok s a → ok' s a) {s t : σ} {as : List α}
    (hrun : Run step ok s as t) : Run step ok' s as t := by
  induction hrun with
  | nil s => exact .nil s
  | cons hok hstep _ ih => exact .cons (himp _ _ hok) hstep ih

/-- What is known of the labels is known of each step. -/
theorem labelled {q : α → Prop} {s t : σ} {as : List α} (hrun : Run step ok s as t)
    (has : ∀ a ∈ as, q a) : Run step (fun s a => ok s a ∧ q a) s as t := by
  induction hrun with
  | nil s => exact .nil s
  | cons hok hstep _ ih =>
      exact .cons ⟨hok, has _ List.mem_cons_self⟩ hstep (ih fun a ha => has a (List.mem_cons_of_mem _ ha))

/-- What every step keeps, the run keeps. -/
theorem invariant {I : σ → Prop}
    (hkeep : ∀ s a s', ok s a → step s a = some s' → I s → I s')
    {s t : σ} {as : List α} (hrun : Run step ok s as t) (hs : I s) : I t := by
  induction hrun with
  | nil => exact hs
  | cons hok hstep _ ih => exact ih (hkeep _ _ _ hok hstep hs)

/-- A run that leaves `P` has one of the steps that may do so. -/
theorem leaves {P : σ → Prop} {q : α → Prop}
    (hkeep : ∀ s a s', ok s a → step s a = some s' → P s → ¬ q a → P s')
    {s t : σ} {as : List α} (hrun : Run step ok s as t) (hs : P s) (ht : ¬ P t) : ∃ a ∈ as, q a := by
  by_contra hnone
  have hkept := (hrun.labelled (q := fun a => ¬ q a) fun a ha hqa => hnone ⟨a, ha, hqa⟩).invariant
    (fun s a s' hok hstep h => hkeep s a s' hok.1 hstep h hok.2) hs
  exact ht hkept

/-- An invariant of the run may be assumed of the state before each of its steps. -/
theorem strengthen {I : σ → Prop}
    (hkeep : ∀ s a s', ok s a → step s a = some s' → I s → I s')
    {s t : σ} {as : List α} (hrun : Run step ok s as t) (hs : I s) :
    Run step (fun s a => ok s a ∧ I s) s as t := by
  induction hrun with
  | nil s => exact .nil s
  | cons hok hstep _ ih => exact .cons ⟨hok, hs⟩ hstep (ih (hkeep _ _ _ hok hstep hs))

end Run

end Runs
