import WebServer.Runs

/-! What the steps of a run emit. The steps are functions of the state, so a list of labels determines
all that a run emits from its first state on; an invariant of the state and of what was emitted so far
is kept along a run. A queue is conserved if each step puts its elements behind those held and takes
its own from their front. -/

namespace Runs

variable {σ α β : Type*}

/-- What the steps with the labels of the list emit, from the first state on. -/
def emitted (step : σ → α → Option σ) (emit : σ → α → List β) : σ → List α → List β
  | _, [] => []
  | s, a :: as =>
      match step s a with
      | some t => emit s a ++ emitted step emit t as
      | none => []

variable {step : σ → α → Option σ} {ok ok' : σ → α → Prop} {emit : σ → α → List β}

theorem emitted_cons {s t : σ} {a : α} (hstep : step s a = some t) (as : List α) :
    emitted step emit s (a :: as) = emit s a ++ emitted step emit t as := by
  simp only [emitted, hstep]

namespace Run

/-- Where every step may be taken, every list of labels has a run. -/
theorem exists_of_total (hok : ∀ s a, ok s a) (htotal : ∀ s a, ∃ t, step s a = some t) (as : List α)
    (s : σ) : ∃ t, Run step ok s as t := by
  induction as generalizing s with
  | nil => exact ⟨s, .nil s⟩
  | cons a as ih =>
      obtain ⟨u, hstep⟩ := htotal s a
      obtain ⟨t, hrun⟩ := ih u
      exact ⟨t, .cons (hok s a) hstep hrun⟩

/-- The labels determine the run. -/
theorem unique {s t u : σ} {as : List α} (hrun : Run step ok s as t) (hrun' : Run step ok' s as u) :
    t = u := by
  induction hrun with
  | nil => cases hrun'; rfl
  | cons _ hstep _ ih =>
      cases hrun' with
      | cons _ hstep' hrest =>
          obtain rfl := Option.some.inj (hstep.symm.trans hstep')
          exact ih hrest

/-- An invariant of the state together with what was emitted before it. -/
theorem emitted_invariant {I : σ → List β → Prop}
    (hkeep : ∀ s a t log, ok s a → step s a = some t → I s log → I t (log ++ emit s a))
    {s t : σ} {as : List α} (hrun : Run step ok s as t) {log : List β} (hs : I s log) :
    I t (log ++ emitted step emit s as) := by
  induction hrun generalizing log with
  | nil => simpa only [emitted, List.append_nil] using hs
  | cons hok hstep _ ih =>
      rw [emitted_cons hstep, ← List.append_assoc]
      exact ih (hkeep _ _ _ _ hok hstep hs)

/-- A state is kept until the run emits an element. -/
theorem holds_until {P : σ → Prop} {b : β}
    (hkeep : ∀ s a t, ok s a → step s a = some t → P s → P t ∨ b ∈ emit s a)
    {s t : σ} {as : List α} (hrun : Run step ok s as t) (hs : P s) :
    P t ∨ b ∈ emitted step emit s as := by
  induction hrun with
  | nil => exact Or.inl hs
  | cons hok hstep _ ih =>
      rw [emitted_cons hstep]
      rcases hkeep _ _ _ hok hstep hs with hnext | hemit
      · exact (ih hnext).imp_right (List.mem_append_right _)
      · exact Or.inr (List.mem_append_left _ hemit)

/-- **Conservation.** What was held and what was put are what was taken and what is held. -/
theorem conserved {held : σ → List β} {puts takes : σ → α → List β}
    (hlaw : ∀ s a t, ok s a → step s a = some t → held s ++ puts s a = takes s a ++ held t)
    {s t : σ} {as : List α} (hrun : Run step ok s as t) :
    held s ++ emitted step puts s as = emitted step takes s as ++ held t := by
  induction hrun with
  | nil => simp only [emitted, List.append_nil, List.nil_append]
  | cons hok hstep _ ih =>
      rw [emitted_cons hstep, emitted_cons hstep, ← List.append_assoc, hlaw _ _ _ hok hstep,
        List.append_assoc, ih, List.append_assoc]

/-- Where the states that satisfy `P` are just those reached by steps that satisfy `ok'`, a run has no
other states just if it has no other steps. -/
theorem prefixes_iff {I P : σ → Prop} (hkeep : ∀ s a t, ok s a → step s a = some t → I s → I t)
    (hstep : ∀ s a t, ok s a → step s a = some t → I s → P s → (P t ↔ ok' s a))
    {s t : σ} {as : List α} (hrun : Run step ok s as t) (hs : I s) (hP : P s) :
    (∀ bs u, bs <+: as → Run step ok s bs u → P u) ↔ Run step ok' s as t := by
  induction hrun with
  | nil s =>
      refine iff_of_true (fun bs u hbs hrun => ?_) (.nil s)
      obtain rfl := List.prefix_nil.mp hbs
      cases hrun
      exact hP
  | @cons s r t a as hok hr _ ih =>
      have hinv := hkeep s a r hok hr hs
      constructor
      · intro hall
        have hPr : P r := hall [a] r (List.prefix_append [a] as) (.cons hok hr (.nil r))
        refine .cons ((hstep s a r hok hr hs hP).mp hPr) hr ((ih hinv hPr).mp fun bs u hbs hrun => ?_)
        exact hall (a :: bs) u (List.cons_prefix_cons.mpr ⟨rfl, hbs⟩) (.cons hok hr hrun)
      · rintro (_ | ⟨hok', hr', hrest'⟩) bs u hbs hrun
        obtain rfl := Option.some.inj (hr.symm.trans hr')
        have hPr := (hstep s a _ hok hr hs hP).mpr hok'
        cases hrun with
        | nil => exact hP
        | cons _ hu hrun =>
            obtain ⟨rfl, hrest⟩ := List.cons_prefix_cons.mp hbs
            obtain rfl := Option.some.inj (hr.symm.trans hu)
            exact (ih hinv hPr).mpr hrest' _ u hrest hrun

end Run

end Runs
