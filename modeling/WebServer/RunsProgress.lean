import WebServer.Runs

/-! Runs that come to an end. A measure that every step lowers bounds the length of a run; if besides a step
can be taken in every state but the goal, the goal is reached. An invariant of the run may help with both. -/

namespace Runs

variable {σ α : Type*} {step : σ → α → Option σ} {ok : σ → α → Prop} {I : σ → Prop} {μ : σ → Nat}

/-- The steps that start from a state with the invariant keep it and lower the measure. -/
structure Descends (step : σ → α → Option σ) (ok : σ → α → Prop) (I : σ → Prop) (μ : σ → Nat) : Prop where
  keeps : ∀ s a t, ok s a → step s a = some t → I s → I t
  lowers : ∀ s a t, ok s a → step s a = some t → I s → μ t < μ s

theorem Descends.mono {ok' : σ → α → Prop} (h : Descends step ok I μ) (hok : ∀ s a, ok' s a → ok s a) :
    Descends step ok' I μ where
  keeps := fun s a t ha => h.keeps s a t (hok s a ha)
  lowers := fun s a t ha => h.lowers s a t (hok s a ha)

theorem Descends.length_add_le (h : Descends step ok I μ) {s t : σ} {as : List α}
    (hrun : Run step ok s as t) (hs : I s) : as.length + μ t ≤ μ s := by
  induction hrun with
  | nil s => simp only [List.length_nil, Nat.zero_add, Nat.le_refl]
  | cons hok hstep _ ih =>
      have hrest := ih (h.keeps _ _ _ hok hstep hs)
      have hless := h.lowers _ _ _ hok hstep hs
      rw [List.length_cons]
      omega

/-- No run is longer than the measure of its first state. -/
theorem Descends.length_le (h : Descends step ok I μ) {s t : σ} {as : List α} (hrun : Run step ok s as t)
    (hs : I s) : as.length ≤ μ s := Nat.le_trans (Nat.le_add_right _ _) (h.length_add_le hrun hs)

/-- A run that goes on as long as it can ends in the goal. -/
theorem Descends.reaches (h : Descends step ok I μ) (goal : σ → Prop)
    (hgo : ∀ s, I s → ¬ goal s → ∃ a t, ok s a ∧ step s a = some t) (s : σ) (hs : I s) :
    ∃ as t, Run step ok s as t ∧ I t ∧ goal t := by
  induction hn : μ s using Nat.strongRecOn generalizing s with
  | _ n ih =>
      by_cases hgoal : goal s
      · exact ⟨[], s, .nil s, hs, hgoal⟩
      · obtain ⟨a, t, hok, hstep⟩ := hgo s hs hgoal
        have ht := h.keeps s a t hok hstep hs
        obtain ⟨as, u, hrun, hu⟩ := ih (μ t) (hn ▸ h.lowers s a t hok hstep hs) t ht rfl
        exact ⟨a :: as, u, .cons hok hstep hrun, hu⟩

end Runs
