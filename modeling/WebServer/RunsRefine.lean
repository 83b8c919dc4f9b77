import WebServer.RunsTrace

/-! Runs of one system seen as runs of another. A view takes the states of a system to those of the other,
and each of its labels to the labels of a run; where every step of the one is such a run of the other
between the views, every run is. An invariant of the one may help with its steps. -/

namespace Runs

variable {σ τ α β : Type*} {step : σ → α → Option σ} {ok : σ → α → Prop} {step' : τ → β → Option τ}
  {ok' : τ → β → Prop} {I : σ → Prop} {view : σ → τ} {labels : σ → α → List β}

/-- Each step from a state with the invariant keeps it, and is seen as a run of the other system. -/
structure Projects (step : σ → α → Option σ) (ok : σ → α → Prop) (I : σ → Prop)
    (step' : τ → β → Option τ) (ok' : τ → β → Prop) (view : σ → τ) (labels : σ → α → List β) : Prop where
  keeps : ∀ s a t, ok s a → step s a = some t → I s → I t
  seen : ∀ s a t, ok s a → step s a = some t → I s → Run step' ok' (view s) (labels s a) (view t)

/-- The run of the other system. -/
theorem Projects.run (h : Projects step ok I step' ok' view labels) {s t : σ} {as : List α}
    (hrun : Run step ok s as t) (hs : I s) :
    Run step' ok' (view s) (emitted step labels s as) (view t) := by
  induction hrun with
  | nil s => exact .nil (view s)
  | cons hok hstep _ ih =>
      rw [emitted_cons hstep]
      exact (h.seen _ _ _ hok hstep hs).append (ih (h.keeps _ _ _ hok hstep hs))

/-- What holds of all runs of the other system holds of the views. -/
theorem Projects.transfer (h : Projects step ok I step' ok' view labels) {P : τ → Prop} {s t : σ}
    (hP : ∀ bs u, Run step' ok' (view s) bs u → P u) {as : List α} (hrun : Run step ok s as t)
    (hs : I s) : P (view t) :=
  hP _ _ (h.run hrun hs)

/-- A step that is not seen. -/
theorem Run.unseen {s t : τ} (h : s = t) : Run step' ok' s [] t := h ▸ .nil s

/-- A step seen as one step. -/
theorem Run.single {s t : τ} {b : β} (hok : ok' s b) (hstep : step' s b = some t) : Run step' ok' s [b] t :=
  .cons hok hstep (.nil t)

end Runs
