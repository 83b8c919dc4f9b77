import Mathlib.Algebra.BigOperators.Fin
import Mathlib.Algebra.Order.BigOperators.Group.Finset
import WebServer.Locks
import WebServer.RunsProgress
import WebServer.RunsTrace

/-! A monitor: what is shared stands under a lock, some calls wait on a condition variable until it is ready,
others change it and wake up all that wait. No wakeup is lost if a change that makes it ready is followed by
one; then the calls under way come to an end, however they are interleaved, but for those that wait for what is
not ready. -/

namespace Monitors

open Runs Locks

variable {ι σ : Type*}

/-- When a wait is over, what a change does, and whether all are woken behind it. -/
structure Monitor (σ : Type*) where
  ready : σ → Bool
  change : σ → σ
  wakes : σ → Bool

/-- What is ready stays so, and a change that makes it ready wakes up those that wait. -/
structure Monitor.Sound (m : Monitor σ) : Prop where
  stays : ∀ s, m.ready s → m.ready (m.change s)
  wakes : ∀ s, m.ready s = false → m.ready (m.change s) → m.wakes (m.change s)

/-- Where a thread is: outside, in a call that waits, or in one that changes what is shared. -/
inductive Pc where
  | out
  | waitLock
  | test
  | asleep
  | woken
  | leave
  | changeLock
  | change
  | notify
  | release
  deriving DecidableEq

/-- The thread has the lock. -/
def Pc.holds : Pc → Bool
  | test | leave | change | notify | release => true
  | out | waitLock | asleep | woken | changeLock => false

/-- The thread is in a call that waits. -/
def Pc.waits : Pc → Bool
  | waitLock | test | asleep | woken | leave => true
  | out | changeLock | change | notify | release => false

/-- The thread is in a call that changes what is shared. -/
def Pc.changes : Pc → Bool
  | changeLock | change | notify | release => true
  | out | waitLock | test | asleep | woken | leave => false

structure State (ι σ : Type*) where
  shared : σ
  owner : Option ι
  pc : ι → Pc

/-- A call begins, a call goes on, or a thread that nobody has woken wakes up. -/
inductive Step (ι : Type*) where
  | wait (i : ι)
  | change (i : ι)
  | next (i : ι)
  | wake (i : ι)
  deriving DecidableEq

def Step.goesOn : Step ι → Bool
  | next _ => true
  | wait _ | change _ | wake _ => false

namespace State

variable [DecidableEq ι] (m : Monitor σ)

def new (shared : σ) : State ι σ := ⟨shared, none, fun _ => .out⟩

def setPc (s : State ι σ) (i : ι) (pc : Pc) : State ι σ := { s with pc := Function.update s.pc i pc }

def acquire (s : State ι σ) (i : ι) : Option (State ι σ) :=
  if s.owner = none then some { s with owner := some i } else none

/-- All threads that sleep are woken. -/
def wakeAll (s : State ι σ) : State ι σ :=
  { s with pc := fun i => if s.pc i = .asleep then .woken else s.pc i }

/-- The next step of a call. -/
def goOn (s : State ι σ) (i : ι) : Option (State ι σ) :=
  match s.pc i with
  | .out => none
  | .waitLock => (s.acquire i).map (·.setPc i .test)
  | .test =>
      if m.ready s.shared then some (s.setPc i .leave) else some ({ s with owner := none }.setPc i .asleep)
  | .asleep => none
  | .woken => (s.acquire i).map (·.setPc i .test)
  | .leave => some ({ s with owner := none }.setPc i .out)
  | .changeLock => (s.acquire i).map (·.setPc i .change)
  | .change => some ({ s with shared := m.change s.shared }.setPc i .notify)
  | .notify => some ((if m.wakes s.shared then s.wakeAll else s).setPc i .release)
  | .release => some ({ s with owner := none }.setPc i .out)

def step (s : State ι σ) : Step ι → Option (State ι σ)
  | .wait i => if s.pc i = .out then some (s.setPc i .waitLock) else none
  | .change i => if s.pc i = .out then some (s.setPc i .changeLock) else none
  | .next i => s.goOn m i
  | .wake i => if s.pc i = .asleep then some (s.setPc i .woken) else none

/-- A change that is made. -/
def changes (s : State ι σ) : Step ι → List Unit
  | .next i => if s.pc i = .change then [()] else []
  | _ => []

/-- A thread that leaves its wait has found what is shared ready; one that sleeps waits for what is not, or is
about to be woken. -/
structure Inv (s : State ι σ) : Prop where
  owned : Owned s.owner fun i => (s.pc i).holds
  leave : ∀ i, s.pc i = .leave → m.ready s.shared
  asleep : ∀ i, s.pc i = .asleep → m.ready s.shared = false ∨ ∃ k, s.pc k = .notify ∧ m.wakes s.shared

variable {m} {s t : State ι σ} {i : ι}

theorem setPc_self (s : State ι σ) (i : ι) (pc : Pc) : (s.setPc i pc).pc i = pc := Function.update_self ..

theorem setPc_ne (s : State ι σ) {i k : ι} (hne : k ≠ i) (pc : Pc) : (s.setPc i pc).pc k = s.pc k :=
  Function.update_of_ne hne ..

omit [DecidableEq ι] in
theorem acquire_map_eq_some {f : State ι σ → State ι σ} (h : (s.acquire i).map f = some t) :
    s.owner = none ∧ t = f { s with owner := some i } := Locks.of_acquire h

omit [DecidableEq ι] in
theorem new_inv (shared : σ) : Inv m (new shared : State ι σ) where
  owned := .init fun _ => rfl
  leave _ h := nomatch h
  asleep _ h := nomatch h

omit [DecidableEq ι] in
/-- A thread that has the lock is the only one. -/
theorem Inv.only (hs : s.Inv m) {i k : ι} (hi : (s.pc i).holds) (hk : (s.pc k).holds) : k = i :=
  hs.owned.held.unique hk hi

/-- A thread moves on, without the change of what is shared. -/
theorem Inv.move (hs : s.Inv m) {owner : Option ι} {pc : Pc}
    (howned : Owned owner fun k => ((s.setPc i pc).pc k).holds) (hleave : pc = .leave → m.ready s.shared)
    (hasleep : pc = .asleep → m.ready s.shared = false)
    (hnotify : s.pc i = .notify → m.ready s.shared → m.wakes s.shared = false) :
    Inv m ({ s with owner := owner }.setPc i pc) where
  owned := howned
  leave k hk := by
    by_cases hki : k = i
    · subst hki
      rw [setPc_self] at hk
      exact hleave hk
    · rw [setPc_ne _ hki] at hk
      exact hs.leave k hk
  asleep k hk := by
    have hbefore : m.ready s.shared = false ∨ ∃ l, s.pc l = .notify ∧ m.wakes s.shared := by
      by_cases hki : k = i
      · subst hki
        rw [setPc_self] at hk
        exact Or.inl (hasleep hk)
      · rw [setPc_ne _ hki] at hk
        exact hs.asleep k hk
    rcases hbefore with hnot | ⟨l, hl, hwakes⟩
    · exact Or.inl hnot
    · by_cases hli : l = i
      · subst hli
        cases hready : m.ready s.shared with
        | false => exact Or.inl hready
        | true =>
            rw [hnotify hl hready] at hwakes
            cases hwakes
      · exact Or.inr ⟨l, by rw [setPc_ne _ hli]; exact hl, hwakes⟩

theorem Inv.keep (hs : s.Inv m) {pc : Pc} (hholds : pc.holds = (s.pc i).holds)
    (hleave : pc = .leave → m.ready s.shared) (hasleep : pc ≠ .asleep)
    (hnotify : s.pc i = .notify → m.ready s.shared → m.wakes s.shared = false) : Inv m (s.setPc i pc) := by
  have howned : Owned s.owner fun k => ((s.setPc i pc).pc k).holds := by
    refine hs.owned.keep (i := i) ?_ fun k hk => ?_
    · rw [setPc_self, hholds]
    · rw [setPc_ne _ hk]
  exact hs.move howned hleave (fun h => absurd h hasleep) hnotify

theorem Inv.acquire (hs : s.Inv m) (howner : s.owner = none) {pc : Pc} (hpc : pc.holds)
    (hleave : pc ≠ .leave) : Inv m ({ s with owner := some i }.setPc i pc) := by
  have hold : (s.pc i).holds = false := (howner ▸ hs.owned).held.free i
  refine hs.move ?_ (fun h => absurd h hleave) (fun h => ?_) (fun h => ?_)
  · refine (howner ▸ hs.owned).acquire ?_ fun k hk => ?_
    · rw [setPc_self, hpc]
    · rw [setPc_ne _ hk]
  · rw [h] at hpc
    cases hpc
  · rw [h] at hold
    cases hold

theorem Inv.free (hs : s.Inv m) (hold : (s.pc i).holds) {pc : Pc} (hpc : pc.holds = false)
    (hasleep : pc = .asleep → m.ready s.shared = false) (hnotify : s.pc i ≠ .notify) :
    Inv m ({ s with owner := none }.setPc i pc) := by
  refine hs.move ?_ (fun h => ?_) hasleep (fun h => absurd h hnotify)
  · refine hs.owned.release (i := i) hold ?_ fun k hk => ?_
    · rw [setPc_self, hpc]
    · rw [setPc_ne _ hk]
  · rw [h] at hpc
    cases hpc

/-- The one thread that has the lock changes what is shared. -/
theorem Inv.change (hs : s.Inv m) (hm : m.Sound) (hpc : s.pc i = .change) :
    Inv m ({ s with shared := m.change s.shared }.setPc i .notify) where
  owned := by
    refine hs.owned.keep (i := i) ?_ fun k hk => ?_
    · rw [setPc_self, hpc]
      rfl
    · rw [setPc_ne _ hk]
  leave k hk := by
    by_cases hki : k = i
    · subst hki
      rw [setPc_self] at hk
      cases hk
    · rw [setPc_ne _ hki] at hk
      exact hm.stays _ (hs.leave k hk)
  asleep k hk := by
    have hki : k ≠ i := by
      rintro rfl
      rw [setPc_self] at hk
      cases hk
    rw [setPc_ne _ hki] at hk
    have hnot : m.ready s.shared = false := by
      rcases hs.asleep k hk with hnot | ⟨l, hl, -⟩
      · exact hnot
      · have hli : l = i := hs.only (by rw [hpc]; rfl) (by rw [hl]; rfl)
        rw [hli, hpc] at hl
        cases hl
    show m.ready (m.change s.shared) = false ∨ _
    cases hready : m.ready (m.change s.shared) with
    | false => exact Or.inl rfl
    | true => exact Or.inr ⟨i, setPc_self _ _ _, hm.wakes _ hnot hready⟩

omit [DecidableEq ι] in
theorem wakeAll_holds (s : State ι σ) (k : ι) : (s.wakeAll.pc k).holds = (s.pc k).holds := by
  show (if s.pc k = .asleep then Pc.woken else s.pc k).holds = (s.pc k).holds
  split_ifs with h
  · rw [h]
    rfl
  · rfl

/-- Nobody sleeps behind a wakeup. -/
theorem Inv.wakeAll (hs : s.Inv m) (hpc : s.pc i = .notify) : Inv m (s.wakeAll.setPc i .release) where
  owned := by
    refine hs.owned.keep (i := i) ?_ fun k hk => ?_
    · rw [setPc_self, hpc]
      rfl
    · rw [setPc_ne _ hk, wakeAll_holds]
  leave k hk := by
    by_cases hki : k = i
    · subst hki
      rw [setPc_self] at hk
      cases hk
    · rw [setPc_ne _ hki] at hk
      have hcase : (if s.pc k = .asleep then Pc.woken else s.pc k) = .leave := hk
      split_ifs at hcase with hsleeps
      exact hs.leave k hcase
  asleep k hk := by
    by_cases hki : k = i
    · subst hki
      rw [setPc_self] at hk
      cases hk
    · rw [setPc_ne _ hki] at hk
      have hcase : (if s.pc k = .asleep then Pc.woken else s.pc k) = .asleep := hk
      split_ifs at hcase with hsleeps
      exact absurd hcase hsleeps

theorem goOn_inv (hs : s.Inv m) (hm : m.Sound) (hstep : s.goOn m i = some t) : t.Inv m := by
  unfold goOn at hstep
  split at hstep
  all_goals rename_i hpc
  case h_1 | h_4 => cases hstep
  case h_2 | h_5 | h_7 =>
    obtain ⟨howner, rfl⟩ := acquire_map_eq_some hstep
    exact hs.acquire howner rfl (by simp)
  case h_3 =>
    split_ifs at hstep with hready
    · cases hstep
      exact hs.keep (by rw [hpc]; rfl) (fun _ => hready) (by simp) (fun h => by simp [hpc] at h)
    · cases hstep
      exact hs.free (by rw [hpc]; rfl) rfl (fun _ => Bool.eq_false_iff.mpr hready) (by simp [hpc])
  case h_6 | h_10 =>
    cases hstep
    exact hs.free (by rw [hpc]; rfl) rfl (fun h => nomatch h) (by simp [hpc])
  case h_8 =>
    cases hstep
    exact hs.change hm hpc
  case h_9 =>
    cases hstep
    split_ifs with hwakes
    · exact hs.wakeAll hpc
    · exact hs.keep (by rw [hpc]; rfl) (by simp) (by simp) fun _ _ => Bool.eq_false_iff.mpr hwakes

theorem step_inv {a : Step ι} (hs : s.Inv m) (hm : m.Sound) (hstep : s.step m a = some t) : t.Inv m := by
  cases a with
  | next i => exact goOn_inv hs hm hstep
  | _ i =>
      simp only [step] at hstep
      split_ifs at hstep with hpc
      cases hstep
      exact hs.keep (by rw [hpc]; rfl) (by simp) (by simp) fun h => by simp [hpc] at h

theorem run_inv {ok : State ι σ → Step ι → Prop} {as : List (Step ι)} (hm : m.Sound)
    (hrun : Run (step m) ok s as t) (hs : s.Inv m) : t.Inv m :=
  hrun.invariant (fun _ _ _ _ hstep hs => step_inv hs hm hstep) hs

/-- A call that waits leaves what is shared and the other threads alone. -/
theorem goOn_waits (hpc : (s.pc i).waits) (hstep : s.goOn m i = some t) :
    t.shared = s.shared ∧ (∀ k, k ≠ i → t.pc k = s.pc k) ∧
      ((t.pc i).waits ∨ s.pc i = .leave ∧ t.pc i = .out) := by
  have hset (owner : Option ι) (pc : Pc) (k : ι) (hk : k ≠ i) :
      ({ s with owner := owner }.setPc i pc).pc k = s.pc k := setPc_ne _ hk pc
  unfold goOn at hstep
  split at hstep
  all_goals rename_i hat
  case h_2 | h_5 =>
    obtain ⟨-, rfl⟩ := acquire_map_eq_some hstep
    exact ⟨rfl, hset (some i) .test, Or.inl (by rw [setPc_self]; rfl)⟩
  case h_3 =>
    split_ifs at hstep
    · cases hstep
      exact ⟨rfl, hset s.owner .leave, Or.inl (by rw [setPc_self]; rfl)⟩
    · cases hstep
      exact ⟨rfl, hset none .asleep, Or.inl (by rw [setPc_self]; rfl)⟩
  case h_6 =>
    cases hstep
    exact ⟨rfl, hset none .out, Or.inr ⟨hat, setPc_self _ _ _⟩⟩
  case h_1 | h_4 => cases hstep
  all_goals
    rw [hat] at hpc
    cases hpc

/-- The steps of a call that changes what is shared; the others may be woken by it. -/
theorem goOn_changes (hpc : (s.pc i).changes) (hstep : s.goOn m i = some t) :
    (∀ k, k ≠ i → t.pc k = s.pc k ∨ s.pc k = .asleep ∧ t.pc k = .woken) ∧
      (s.pc i = .changeLock ∧ t.pc i = .change ∧ t.shared = s.shared ∨
        s.pc i = .change ∧ t.pc i = .notify ∧ t.shared = m.change s.shared ∨
        s.pc i = .notify ∧ t.pc i = .release ∧ t.shared = s.shared ∨
        s.pc i = .release ∧ t.pc i = .out ∧ t.shared = s.shared) := by
  unfold goOn at hstep
  split at hstep
  all_goals rename_i hat
  case h_7 =>
    obtain ⟨-, rfl⟩ := acquire_map_eq_some hstep
    exact ⟨fun k hk => Or.inl (setPc_ne _ hk _), Or.inl ⟨hat, setPc_self _ _ _, rfl⟩⟩
  case h_8 =>
    cases hstep
    exact ⟨fun k hk => Or.inl (setPc_ne _ hk _), Or.inr (Or.inl ⟨hat, setPc_self _ _ _, rfl⟩)⟩
  case h_9 =>
    cases hstep
    split_ifs
    · refine ⟨fun k hk => ?_, Or.inr (Or.inr (Or.inl ⟨hat, setPc_self _ _ _, rfl⟩))⟩
      rw [setPc_ne _ hk]
      show (if s.pc k = .asleep then Pc.woken else s.pc k) = s.pc k ∨ _
      split_ifs with hsleeps
      · exact Or.inr ⟨hsleeps, by simp only [wakeAll, if_pos hsleeps]⟩
      · exact Or.inl rfl
    · exact ⟨fun k hk => Or.inl (setPc_ne _ hk _), Or.inr (Or.inr (Or.inl ⟨hat, setPc_self _ _ _, rfl⟩))⟩
  case h_10 =>
    cases hstep
    exact ⟨fun k hk => Or.inl (setPc_ne _ hk _), Or.inr (Or.inr (Or.inr ⟨hat, setPc_self _ _ _, rfl⟩))⟩
  case h_1 | h_4 => cases hstep
  all_goals
    rw [hat] at hpc
    cases hpc

/-! ### The changes -/

theorem step_shared {a : Step ι} (hstep : s.step m a = some t) :
    t.shared = m.change^[(s.changes a).length] s.shared := by
  cases a with
  | next i =>
      cases hpc : s.pc i <;> simp only [step, goOn, hpc] at hstep
      all_goals simp only [changes, hpc, reduceCtorEq, if_true, if_false, List.length_singleton,
        List.length_nil]
      case waitLock | woken | changeLock =>
        obtain ⟨-, rfl⟩ := acquire_map_eq_some hstep
        rfl
      case test =>
        split_ifs at hstep <;> cases hstep <;> rfl
      case notify =>
        cases hstep
        split_ifs <;> rfl
      case out | asleep => cases hstep
      all_goals
        cases hstep
        rfl
  | _ i =>
      simp only [step] at hstep
      split_ifs at hstep
      cases hstep
      rfl

/-- What is shared is what the changes have made of it. -/
theorem run_shared {ok : State ι σ → Step ι → Prop} {as : List (Step ι)} (hrun : Run (step m) ok s as t) :
    t.shared = m.change^[(emitted (step m) changes s as).length] s.shared := by
  induction hrun with
  | nil s => rfl
  | cons _ hstep _ ih =>
      rw [ih, step_shared hstep, emitted_cons hstep, List.length_append, Nat.add_comm,
        Function.iterate_add_apply]

section Ends

variable [Fintype ι]

/-- How far a thread is from the end of its call. A wakeup may send all the others back to their test. -/
def rank (ι : Type*) [Fintype ι] : Pc → Nat
  | .out => 0
  | .leave | .asleep | .release => 1
  | .test => 2
  | .waitLock | .woken => 3
  | .notify => 2 * Fintype.card ι + 2
  | .change => 2 * Fintype.card ι + 3
  | .changeLock => 2 * Fintype.card ι + 4

/-- A bound on the steps of the calls under way. -/
def work (s : State ι σ) : Nat := ∑ i, rank ι (s.pc i)

theorem work_setPc {pc : Pc} (s : State ι σ) (hless : rank ι pc < rank ι (s.pc i)) :
    (s.setPc i pc).work < s.work := by
  apply Finset.sum_lt_sum
  · intro k _
    by_cases hk : k = i
    · subst hk
      rw [setPc_self]
      exact hless.le
    · rw [setPc_ne _ hk]
  · exact ⟨i, Finset.mem_univ i, by rwa [setPc_self]⟩

/-- The thread that wakes the others pays for their steps. -/
theorem work_wakeAll (hpc : s.pc i = .notify) : (s.wakeAll.setPc i .release).work < s.work := by
  have hpay : ∑ k, (rank ι ((s.wakeAll.setPc i .release).pc k) +
      if k = i then 2 * Fintype.card ι + 1 else 0) ≤ ∑ k, (rank ι (s.pc k) + 2) := by
    apply Finset.sum_le_sum
    intro k _
    by_cases hk : k = i
    · subst hk
      rw [setPc_self, if_pos rfl, hpc]
      simp only [rank]
      omega
    · rw [setPc_ne _ hk, if_neg hk]
      show rank ι (if s.pc k = .asleep then .woken else s.pc k) + 0 ≤ _
      split_ifs with hsleeps
      · rw [hsleeps]
        simp only [rank]
        omega
      · omega
  rw [Finset.sum_add_distrib, Finset.sum_add_distrib, Finset.sum_ite_eq' Finset.univ i,
    if_pos (Finset.mem_univ i), Finset.sum_const, Finset.card_univ, smul_eq_mul] at hpay
  unfold work
  omega

theorem goOn_work (hstep : s.goOn m i = some t) : t.work < s.work := by
  unfold goOn at hstep
  split at hstep
  all_goals rename_i hpc
  case h_1 | h_4 => cases hstep
  case h_2 | h_5 | h_7 =>
    obtain ⟨-, rfl⟩ := acquire_map_eq_some hstep
    exact work_setPc (i := i) { s with owner := some i } (by simp only [hpc, rank]; omega)
  case h_3 =>
    split_ifs at hstep <;> cases hstep <;> exact work_setPc (i := i) { s with owner := _ } (by simp [hpc, rank])
  case h_9 =>
    cases hstep
    split_ifs
    · exact work_wakeAll hpc
    · exact work_setPc s (by simp only [hpc, rank]; omega)
  case h_8 =>
    cases hstep
    exact work_setPc (i := i) { s with shared := _ } (by simp only [hpc, rank]; omega)
  case h_6 | h_10 =>
    cases hstep
    exact work_setPc (i := i) { s with owner := none } (by simp [hpc, rank])

omit [Fintype ι] in
/-- Where no call can go on, no call is under way, but for those that wait for what is not ready. -/
theorem Inv.settled (hs : s.Inv m) (hend : ∀ i, s.goOn m i = none) (i : ι) :
    s.pc i = .out ∨ s.pc i = .asleep ∧ m.ready s.shared = false := by
  have hfree : s.owner = none := by
    by_contra howned
    obtain ⟨k, hk⟩ := Option.ne_none_iff_exists'.mp howned
    have hholds := (hs.owned k).mp hk
    have hstuck := hend k
    cases hpc : s.pc k <;> simp [goOn, hpc, Pc.holds] at hstuck hholds
    split_ifs at hstuck
  have hrest (k : ι) : s.pc k = .out ∨ s.pc k = .asleep := by
    have hstuck := hend k
    have hholds := (hfree ▸ hs.owned).held.free k
    cases hpc : s.pc k <;> simp [goOn, hpc, State.acquire, hfree, Pc.holds] at hstuck hholds ⊢
  refine (hrest i).imp_right fun hsleeps => ⟨hsleeps, (hs.asleep i hsleeps).resolve_right ?_⟩
  rintro ⟨k, hk, -⟩
  rcases hrest k with h | h <;> simp [hk] at h

/-- **Calls end.** However the calls under way are interleaved, they take no more steps than the bound, and
where none can go on, each has returned or waits for what is not ready. -/
theorem run_settles {as : List (Step ι)} (hm : m.Sound) (hs : s.Inv m)
    (hrun : Run (step m) (fun _ a => a.goesOn) s as t) :
    as.length ≤ s.work ∧ ((∀ i, t.goOn m i = none) → ∀ i, t.pc i = .out ∨
      t.pc i = .asleep ∧ m.ready t.shared = false) := by
  have hdescends : Descends (step m) (fun (_ : State ι σ) a => a.goesOn) (Inv m) work := by
    refine ⟨fun _ _ _ _ hstep hs => step_inv hs hm hstep, fun s a u ha hstep _ => ?_⟩
    cases a with
    | next i => exact goOn_work hstep
    | _ i => cases ha
  exact ⟨hdescends.length_le hrun hs, (run_inv hm hrun hs).settled⟩

end Ends

end State

end Monitors
