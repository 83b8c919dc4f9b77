import Mathlib.Logic.Function.Basic
import WebServer.RunsRefine

/-! A routine that is run once, by the first caller that comes to it. The callers that come while it runs wait
for its end, and those that come later pass. Whatever the interleaving, the calls and the background work are
then a run of the plain system from the state in which the routine leaves what is shared. -/

namespace Once

open Runs

variable {ι σ κ β : Type*}

/-- What is shared at first, the parts of the routine, and what a call does with what is shared: it may go on
or return. Work in the background can begin when the last part of the routine has been run. -/
structure System (σ κ β : Type*) where
  init : σ
  routine : List (σ → σ)
  act : σ → κ → Option (σ × Option κ)
  background : σ → β → Option σ

/-- Nobody has come to the routine, a caller is in it with so many parts behind it, or it has returned. -/
inductive Control (ι : Type*) where
  | fresh
  | running (i : ι) (part : Nat)
  | done

inductive Call (κ : Type*) where
  | idle
  /-- At the guard. -/
  | asked (k : κ)
  /-- In the routine. -/
  | inside (k : κ)
  | behind (k : κ)

structure State (ι σ κ : Type*) where
  control : Control ι
  shared : σ
  calls : ι → Call κ

inductive Step (ι κ β : Type*) where
  | call (i : ι) (k : κ)
  | enter (i : ι)
  | part (i : ι)
  | act (i : ι)
  | background (b : β)
  deriving DecidableEq

namespace System

variable (sys : System σ κ β)

/-- What is shared behind the routine. -/
def ready : σ := sys.routine.foldl (fun s f => f s) sys.init

/-- The system without the guard. -/
def plain (s : σ) : κ ⊕ β → Option σ
  | .inl k => (sys.act s k).map Prod.fst
  | .inr b => sys.background s b

end System

namespace State

variable (sys : System σ κ β) [DecidableEq ι]

def new : State ι σ κ := ⟨.fresh, sys.init, fun _ => .idle⟩

/-- The last part of the routine has been run. -/
def isReady (s : State ι σ κ) : Bool :=
  match s.control with
  | .fresh => false
  | .running _ n => sys.routine.length ≤ n
  | .done => true

def setCall (s : State ι σ κ) (i : ι) (c : Call κ) : State ι σ κ :=
  { s with calls := Function.update s.calls i c }

/-- The next part of the routine, or its return. -/
def runPart (s : State ι σ κ) (i : ι) (k : κ) (n : Nat) : State ι σ κ :=
  match sys.routine[n]? with
  | some f => { s with shared := f s.shared, control := .running i (n + 1) }
  | none => { s with control := .done }.setCall i (.behind k)

def step (s : State ι σ κ) : Step ι κ β → Option (State ι σ κ)
  | .call i k =>
      match s.calls i with
      | .idle => some (s.setCall i (.asked k))
      | _ => none
  | .enter i =>
      match s.calls i, s.control with
      | .asked k, .fresh => some ({ s with control := .running i 0 }.setCall i (.inside k))
      | .asked k, .done => some (s.setCall i (.behind k))
      | _, _ => none
  | .part i =>
      match s.calls i, s.control with
      | .inside k, .running j n => if j = i then some (s.runPart sys i k n) else none
      | _, _ => none
  | .act i =>
      match s.calls i with
      | .behind k =>
          (sys.act s.shared k).map fun (t, next) =>
            { s with shared := t }.setCall i (next.elim .idle .behind)
      | _ => none
  | .background b =>
      if s.isReady sys then (sys.background s.shared b).map fun t => { s with shared := t } else none

/-- What is shared, as the plain system has it. -/
def view (s : State ι σ κ) : σ := if s.isReady sys then s.shared else sys.ready

/-- The steps of the plain system. -/
def labels (s : State ι σ κ) : Step ι κ β → List (κ ⊕ β)
  | .act i =>
      match s.calls i with
      | .behind k => [.inl k]
      | _ => []
  | .background b => [.inr b]
  | _ => []

/-- The part of the routine that a step runs. -/
def parts (s : State ι σ κ) : Step ι κ β → List Nat
  | .part i =>
      match s.calls i, s.control with
      | .inside _, .running _ n => if n < sys.routine.length then [n] else []
      | _, _ => []
  | _ => []

/-- How many parts of the routine have been run. -/
def partsRun (s : State ι σ κ) : Nat :=
  match s.control with
  | .fresh => 0
  | .running _ n => n
  | .done => sys.routine.length

/-- The caller in the routine is the one the control names, nobody is behind it before its end, and before that
nothing but its parts has touched what is shared. -/
structure Inv (s : State ι σ κ) : Prop where
  inside : ∀ i, (∃ k, s.calls i = .inside k) ↔ ∃ n, s.control = .running i n
  behind : ∀ i k, s.calls i = .behind k → s.control = .done
  fresh : s.control = .fresh → s.shared = sys.init
  part : ∀ i n, s.control = .running i n → n ≤ sys.routine.length ∧
    (n < sys.routine.length → s.shared = (sys.routine.take n).foldl (fun s f => f s) sys.init)

variable {sys} {s t : State ι σ κ}

omit [DecidableEq ι] in
theorem new_inv : (new sys : State ι σ κ).Inv sys where
  inside _ := iff_of_false (fun ⟨_, h⟩ => nomatch h) fun ⟨_, h⟩ => nomatch h
  behind _ _ h := nomatch h
  fresh _ := rfl
  part _ _ h := nomatch h

omit [DecidableEq ι] in
theorem isReady_fresh (h : s.control = .fresh) : s.isReady sys = false := by rw [isReady, h]

omit [DecidableEq ι] in
theorem isReady_running {i : ι} {n : Nat} (h : s.control = .running i n) :
    s.isReady sys = decide (sys.routine.length ≤ n) := by rw [isReady, h]

omit [DecidableEq ι] in
theorem isReady_done (h : s.control = .done) : s.isReady sys = true := by rw [isReady, h]

/-- What a step can do. -/
theorem step_cases {a : Step ι κ β} (hstep : s.step sys a = some t) :
    (∃ i k, a = .call i k ∧ s.calls i = .idle ∧ t = s.setCall i (.asked k)) ∨
    (∃ i k, a = .enter i ∧ s.calls i = .asked k ∧ s.control = .fresh ∧
      t = { s with control := .running i 0 }.setCall i (.inside k)) ∨
    (∃ i k, a = .enter i ∧ s.calls i = .asked k ∧ s.control = .done ∧ t = s.setCall i (.behind k)) ∨
    (∃ i k n, a = .part i ∧ s.calls i = .inside k ∧ s.control = .running i n ∧ t = s.runPart sys i k n) ∨
    (∃ i k u next, a = .act i ∧ s.calls i = .behind k ∧ sys.act s.shared k = some (u, next) ∧
      t = { s with shared := u }.setCall i (next.elim .idle .behind)) ∨
    (∃ b u, a = .background b ∧ s.isReady sys = true ∧ sys.background s.shared b = some u ∧
      t = { s with shared := u }) := by
  cases a with
  | call i k =>
      cases hcall : s.calls i <;> simp only [step, hcall, Option.some.injEq, reduceCtorEq] at hstep
      exact Or.inl ⟨i, k, rfl, hcall, hstep.symm⟩
  | enter i =>
      cases hcall : s.calls i <;> cases hcontrol : s.control <;>
        simp only [step, hcall, hcontrol, Option.some.injEq, reduceCtorEq] at hstep
      · exact Or.inr (Or.inl ⟨i, _, rfl, hcall, rfl, hstep.symm⟩)
      · exact Or.inr (Or.inr (Or.inl ⟨i, _, rfl, hcall, rfl, hstep.symm⟩))
  | part i =>
      cases hcall : s.calls i <;> cases hcontrol : s.control <;>
        simp only [step, hcall, hcontrol, Option.ite_none_right_eq_some, Option.some.injEq,
          reduceCtorEq] at hstep
      obtain ⟨rfl, rfl⟩ := hstep
      exact Or.inr (Or.inr (Or.inr (Or.inl ⟨_, _, _, rfl, hcall, rfl, rfl⟩)))
  | act i =>
      cases hcall : s.calls i <;>
        simp only [step, hcall, Option.map_eq_some_iff, Prod.exists, reduceCtorEq] at hstep
      obtain ⟨u, next, hact, rfl⟩ := hstep
      exact Or.inr (Or.inr (Or.inr (Or.inr (Or.inl ⟨i, _, u, next, rfl, hcall, hact, rfl⟩))))
  | background b =>
      simp only [step, Option.ite_none_right_eq_some, Option.map_eq_some_iff] at hstep
      obtain ⟨hready, u, hbackground, rfl⟩ := hstep
      exact Or.inr (Or.inr (Or.inr (Or.inr (Or.inr ⟨b, u, rfl, hready, hbackground, rfl⟩))))

theorem calls_setCall (s : State ι σ κ) (i j : ι) (c : Call κ) :
    (s.setCall i c).calls j = if j = i then c else s.calls j := Function.update_apply _ _ _ _

/-- The others are where they were. -/
theorem setCall_inside {i : ι} {c : Call κ} (s : State ι σ κ) {j : ι} (hne : j ≠ i) :
    (∃ k, (s.setCall i c).calls j = .inside k) ↔ ∃ k, s.calls j = .inside k := by
  rw [calls_setCall, if_neg hne]

/-- A caller that is not in the routine goes on outside it. -/
theorem Inv.outside (hs : s.Inv sys) {i : ι} {c : Call κ} {u : σ} (hold : ∀ k, s.calls i ≠ .inside k)
    (hnew : ∀ k, c ≠ .inside k) (hbehind : ∀ k, c = .behind k → s.control = .done)
    (hshared : s.isReady sys = false → u = s.shared) :
    Inv sys ({ s with shared := u }.setCall i c) where
  inside j := by
    by_cases hj : j = i
    · subst hj
      refine Iff.trans (iff_of_false (fun ⟨k, hk⟩ => ?_) fun ⟨k, hk⟩ => hold k hk) (hs.inside j)
      rw [calls_setCall, if_pos rfl] at hk
      exact hnew k hk
    · exact (setCall_inside _ hj).trans (hs.inside j)
  behind j k hk := by
    rw [calls_setCall] at hk
    split_ifs at hk
    · exact hbehind k hk
    · exact hs.behind j k hk
  fresh hfresh :=
    (hshared (isReady_fresh (s := s) hfresh)).trans (hs.fresh hfresh)
  part j n hn := by
    obtain ⟨hle, hbuilt⟩ := hs.part j n hn
    refine ⟨hle, fun hlt => ?_⟩
    have hunready : s.isReady sys = false :=
      (isReady_running (s := s) hn).trans (decide_eq_false (Nat.not_le.mpr hlt))
    exact (hshared hunready).trans (hbuilt hlt)

theorem runPart_inv (hs : s.Inv sys) {i : ι} {k : κ} {n : Nat}
    (hcontrol : s.control = .running i n) : (s.runPart sys i k n).Inv sys := by
  obtain ⟨hle, hbuilt⟩ := hs.part i n hcontrol
  have honly : ∀ j, (∃ k, s.calls j = .inside k) ↔ j = i := fun j => by
    rw [hs.inside j, hcontrol]
    exact ⟨fun ⟨_, h⟩ => (Control.running.inj h).1.symm, fun h => ⟨n, h ▸ rfl⟩⟩
  unfold runPart
  split
  · rename_i f hf
    obtain ⟨hlt, hget⟩ := List.getElem?_eq_some_iff.mp hf
    refine ⟨fun j => ?_, fun j l hl => ?_, (nomatch ·), fun j m hm => ?_⟩
    · rw [honly j]
      exact ⟨fun h => ⟨n + 1, h ▸ rfl⟩, fun ⟨_, h⟩ => (Control.running.inj h).1.symm⟩
    · have hdone := hs.behind j l hl
      rw [hcontrol] at hdone
      cases hdone
    · obtain ⟨rfl, rfl⟩ := Control.running.inj hm
      refine ⟨hlt, fun _ => ?_⟩
      rw [List.take_succ_eq_append_getElem hlt, List.foldl_append, ← hbuilt hlt, hget]
      rfl
  · refine ⟨fun j => ?_, fun _ _ _ => rfl, (nomatch ·), fun _ _ hm => nomatch hm⟩
    refine iff_of_false (fun ⟨l, hl⟩ => ?_) fun ⟨_, h⟩ => nomatch h
    rw [calls_setCall] at hl
    split_ifs at hl with hj
    exact hj ((honly j).mp ⟨l, hl⟩)

theorem step_inv {a : Step ι κ β} (hs : s.Inv sys) (hstep : s.step sys a = some t) : t.Inv sys := by
  obtain ⟨i, k, -, hcall, rfl⟩ | ⟨i, k, -, hcall, hcontrol, rfl⟩ | ⟨i, k, -, hcall, hcontrol, rfl⟩ |
    ⟨i, k, n, -, hcall, hcontrol, rfl⟩ | ⟨i, k, u, next, -, hcall, -, rfl⟩ | ⟨b, u, -, hready, -, rfl⟩ :=
    step_cases hstep
  · exact hs.outside (fun l h => by simp [hcall] at h) (fun l h => nomatch h) (fun l h => nomatch h)
      fun _ => rfl
  · refine ⟨fun j => ?_, fun j l hl => ?_, (nomatch ·), fun j m hm => ?_⟩
    · by_cases hj : j = i
      · subst hj
        rw [calls_setCall, if_pos rfl]
        exact iff_of_true ⟨k, rfl⟩ ⟨0, rfl⟩
      · rw [setCall_inside _ hj]
        refine iff_of_false (fun h => ?_) fun ⟨_, h⟩ => hj (Control.running.inj h).1.symm
        have ⟨n, hn⟩ := (hs.inside j).mp h
        rw [hcontrol] at hn
        cases hn
    · rw [calls_setCall] at hl
      split_ifs at hl
      have hdone := hs.behind j l hl
      rw [hcontrol] at hdone
      cases hdone
    · obtain ⟨-, rfl⟩ := Control.running.inj hm
      exact ⟨Nat.zero_le _, fun _ => hs.fresh hcontrol⟩
  · exact hs.outside (fun l h => by simp [hcall] at h) (fun l h => nomatch h) (fun _ _ => hcontrol)
      fun _ => rfl
  · exact runPart_inv hs hcontrol
  · have hdone := hs.behind i k hcall
    refine hs.outside (fun l h => by simp [hcall] at h) (fun l h => ?_) (fun _ _ => hdone) fun hunready => ?_
    · cases next <;> cases h
    · rw [isReady_done hdone] at hunready
      cases hunready
  · refine ⟨hs.inside, hs.behind, fun h => ?_, fun j n hn => ?_⟩
    · rw [isReady_fresh (s := s) h] at hready
      cases hready
    · obtain ⟨hle, -⟩ := hs.part j n hn
      refine ⟨hle, fun hlt => ?_⟩
      rw [isReady_running (s := s) hn, decide_eq_true_eq] at hready
      omega

/-! ### The plain system -/

omit [DecidableEq ι] in
theorem view_ready (h : s.isReady sys = true) : s.view sys = s.shared := if_pos h

omit [DecidableEq ι] in
theorem view_unready (h : s.isReady sys = false) : s.view sys = sys.ready :=
  if_neg (Bool.eq_false_iff.mp h)

/-- Before the routine has been run, and at its end, the plain system is at its start. -/
theorem runPart_view (hs : s.Inv sys) {i : ι} {k : κ} {n : Nat} (hcontrol : s.control = .running i n) :
    (s.runPart sys i k n).view sys = s.view sys := by
  obtain ⟨-, hbuilt⟩ := hs.part i n hcontrol
  have hready : s.isReady sys = decide (sys.routine.length ≤ n) := isReady_running hcontrol
  unfold runPart
  split
  · rename_i f hf
    obtain ⟨hlt, hget⟩ := List.getElem?_eq_some_iff.mp hf
    rw [view_unready (s := s) (hready.trans (decide_eq_false (Nat.not_le.mpr hlt)))]
    by_cases hlast : sys.routine.length ≤ n + 1
    · rw [view_ready ((isReady_running rfl).trans (decide_eq_true hlast))]
      have hall : sys.routine.take n ++ [f] = sys.routine := by
        rw [← hget, ← List.take_succ_eq_append_getElem hlt, List.take_of_length_le hlast]
      calc f s.shared = (sys.routine.take n ++ [f]).foldl (fun s f => f s) sys.init := by
            rw [List.foldl_append, ← hbuilt hlt]
            rfl
        _ = sys.ready := by rw [hall, System.ready]
    · exact view_unready ((isReady_running rfl).trans (decide_eq_false hlast))
  · rename_i hend
    rw [view_ready (s := s) (hready.trans (decide_eq_true (List.getElem?_eq_none_iff.mp hend)))]
    rfl

/-- Each step is one of the plain system, or is not seen there. -/
theorem step_seen (ok' : σ → κ ⊕ β → Prop) {a : Step ι κ β} (hs : s.Inv sys)
    (hok : ∀ l ∈ s.labels a, ok' (s.view sys) l) (hstep : s.step sys a = some t) :
    Run sys.plain ok' (s.view sys) (s.labels a) (t.view sys) := by
  obtain ⟨i, k, rfl, -, rfl⟩ | ⟨i, k, rfl, -, hcontrol, rfl⟩ | ⟨i, k, rfl, -, -, rfl⟩ |
    ⟨i, k, n, rfl, -, hcontrol, rfl⟩ | ⟨i, k, u, next, rfl, hcall, hact, rfl⟩ |
    ⟨b, u, rfl, hready, hbackground, rfl⟩ := step_cases hstep
  · exact .unseen rfl
  · apply Run.unseen
    rw [view_unready (s := s) (isReady_fresh hcontrol)]
    by_cases hnone : sys.routine.length ≤ 0
    · rw [view_ready ((isReady_running rfl).trans (decide_eq_true hnone))]
      have hnil := List.length_eq_zero_iff.mp (Nat.le_zero.mp hnone)
      rw [System.ready, hnil]
      exact (hs.fresh hcontrol).symm
    · exact (view_unready ((isReady_running rfl).trans (decide_eq_false hnone))).symm
  · exact .unseen rfl
  · exact .unseen (runPart_view hs hcontrol).symm
  · have hdone := hs.behind i k hcall
    have hready : s.isReady sys = true := isReady_done hdone
    have hready' : ({ s with shared := u }.setCall i (next.elim .idle .behind)).isReady sys = true :=
      isReady_done hdone
    have hlabels : s.labels (.act i : Step ι κ β) = [.inl k] := by rw [labels, hcall]
    rw [hlabels] at hok ⊢
    rw [view_ready hready] at hok ⊢
    rw [view_ready hready']
    exact .single (hok _ List.mem_cons_self) (by rw [System.plain, hact]; rfl)
  · have hready' : State.isReady sys { s with shared := u } = true := hready
    rw [labels] at hok ⊢
    rw [view_ready hready] at hok ⊢
    rw [view_ready hready']
    exact .single (hok _ List.mem_cons_self) hbackground

/-- **The guard is not seen.** The runs are seen as runs of the plain system from where the routine leaves
what is shared. -/
theorem projects {ok : State ι σ κ → Step ι κ β → Prop} {ok' : σ → κ ⊕ β → Prop}
    (hok : ∀ s a, ok s a → ∀ l ∈ s.labels a, ok' (s.view sys) l) :
    Projects (step sys) ok (Inv sys) sys.plain ok' (view sys) labels where
  keeps _ _ _ _ hstep hs := step_inv hs hstep
  seen s a _ hoka hstep hs := step_seen ok' hs (hok s a hoka) hstep

theorem step_parts {a : Step ι κ β} (hs : s.Inv sys) (hstep : s.step sys a = some t) :
    List.range (s.partsRun sys) ++ s.parts sys a = List.range (t.partsRun sys) := by
  obtain ⟨i, k, rfl, -, rfl⟩ | ⟨i, k, rfl, -, hcontrol, rfl⟩ | ⟨i, k, rfl, -, -, rfl⟩ |
    ⟨i, k, n, rfl, hcall, hcontrol, rfl⟩ | ⟨i, k, u, next, rfl, -, -, rfl⟩ | ⟨b, u, rfl, -, -, rfl⟩ :=
    step_cases hstep
  · exact List.append_nil _
  · rw [partsRun, hcontrol]
    rfl
  · exact List.append_nil _
  · obtain ⟨hle, -⟩ := hs.part i n hcontrol
    have hparts : s.parts sys (.part i : Step ι κ β) = if n < sys.routine.length then [n] else [] := by
      rw [parts, hcall, hcontrol]
    have hrun : s.partsRun sys = n := by rw [partsRun, hcontrol]
    rw [hparts, hrun]
    by_cases hlt : n < sys.routine.length
    · rw [if_pos hlt, runPart, List.getElem?_eq_getElem hlt]
      exact List.range_succ.symm
    · have hge := Nat.not_lt.mp hlt
      rw [if_neg hlt, List.append_nil, runPart, List.getElem?_eq_none hge]
      exact congrArg List.range (Nat.le_antisymm hle hge)
  · exact List.append_nil _
  · exact List.append_nil _

/-- **Once.** The parts of the routine are run one behind the other, none of them twice. -/
theorem run_parts {ok : State ι σ κ → Step ι κ β → Prop} {as : List (Step ι κ β)}
    (hrun : Run (step sys) ok (new sys) as t) :
    emitted (step sys) (parts sys) (new sys) as = List.range (t.partsRun sys) := by
  have hend : t.Inv sys ∧ [] ++ emitted (step sys) (parts sys) (new sys) as =
      List.range (t.partsRun sys) := by
    refine hrun.emitted_invariant
      (I := fun s parts => s.Inv sys ∧ parts = List.range (s.partsRun sys))
      (fun s a u log _ hstep h => ⟨step_inv h.1 hstep, ?_⟩) ⟨new_inv, rfl⟩
    rw [h.2]
    exact step_parts h.1 hstep
  exact hend.2

end State

end Once
