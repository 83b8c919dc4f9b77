import WebServer.Monitors

/-! `CountDownLatch` with any number of threads, each of which calls `wait` and `countDown` as often as it
likes. `countDown` wakes the others up only when the count is zero, which is the one time when it comes down
to it. -/

namespace WebServer

open Runs Monitors

namespace CountDownLatch

/-- `CountDownLatch`: `wait` loops while the count is positive, `countDown` lowers it and calls `notifyAll` at
zero. -/
def latch : Monitor Int where
  ready count := decide (count ≤ 0)
  change count := count - 1
  wakes count := decide (count = 0)

theorem latch_sound : latch.Sound where
  stays count h := by
    simp only [latch, decide_eq_true_eq] at h ⊢
    omega
  wakes count hbefore hafter := by
    simp only [latch, decide_eq_false_iff_not, decide_eq_true_eq] at hbefore hafter ⊢
    omega

/-- The threads that share a latch. -/
abbrev Threads (ι : Type) := State ι Int

variable {ι : Type} [DecidableEq ι] {s t : Threads ι} {n : Int}

/-- How often the latch was counted down. -/
def countDowns (n : Int) (as : List (Step ι)) : Nat :=
  (emitted (State.step latch) State.changes (State.new n : Threads ι) as).length

theorem iterate_change (k : Nat) (n : Int) : latch.change^[k] n = n - k := by
  induction k with
  | zero => exact (Int.sub_zero n).symm
  | succ k ih =>
      rw [Function.iterate_succ_apply', ih]
      show n - (k : Int) - 1 = n - ((k + 1 : Nat) : Int)
      omega

/-- The count is what the calls of `countDown` have left of it. -/
theorem run_count {as : List (Step ι)}
    (hrun : Run (State.step latch) (fun _ _ => True) (State.new n) as s) : s.shared = n - countDowns n as := by
  rw [State.run_shared hrun, iterate_change]
  rfl

/-- **The latch.** In every run of any number of threads a thread comes out of `wait` only when the latch was
counted down as often as it was set to. From there the calls under way take a bounded number of steps, however
they are interleaved; where none can go on, all have returned, or there were too few calls of `countDown`, and
those that have not returned sleep in `wait`. -/
theorem run_latch [Fintype ι] {as bs : List (Step ι)}
    (hbefore : Run (State.step latch) (fun _ _ => True) (State.new n) as s)
    (hafter : Run (State.step latch) (fun _ a => a.goesOn) s bs t) :
    (∀ i, s.pc i = .leave → n ≤ countDowns n as) ∧ bs.length ≤ s.work ∧
      ((∀ i, t.goOn latch i = none) → ∀ i, t.pc i = .out ∨
        t.pc i = .asleep ∧ (countDowns n (as ++ bs) : Int) < n) := by
  have hs : s.Inv latch := State.run_inv latch_sound hbefore (State.new_inv n)
  obtain ⟨hlength, hsettled⟩ := State.run_settles latch_sound hs hafter
  refine ⟨fun i hi => ?_, hlength, fun hend i => (hsettled hend i).imp_right ?_⟩
  · have hready := hs.leave i hi
    rw [run_count hbefore] at hready
    simp only [latch, decide_eq_true_eq] at hready
    omega
  · rintro ⟨hsleeps, hnot⟩
    rw [run_count (hbefore.append (hafter.mono fun _ _ _ => trivial))] at hnot
    simp only [latch, decide_eq_false_iff_not] at hnot
    exact ⟨hsleeps, by omega⟩

/-- One thread sleeps in `wait`, the other one counts down twice, and is behind the second `notifyAll`. -/
def twice : List (Step Bool) :=
  [.wait true, .next true, .next true, .change false] ++ List.replicate 4 (.next false) ++
    [.change false] ++ List.replicate 3 (.next false)

theorem run_latch_two :
    ∃ s t : Threads Bool, s.pc true = .woken ∧ (∀ i, t.pc i = .out) ∧ countDowns 2 twice = 2 ∧ s.work = 4 := by
  have hexec : ∃ s : Threads Bool,
      exec (checked (State.step latch) fun _ _ => True) (State.new 2) twice = some s ∧
        s.pc true = .woken ∧ s.work = 4 ∧
        ∃ t, exec (checked (State.step latch) fun _ a => a.goesOn = true) s
            (.next false :: List.replicate 3 (.next true)) = some t ∧
          t.goOn latch true = none ∧ t.goOn latch false = none :=
    ⟨_, rfl, rfl, by decide, _, rfl, rfl, rfl⟩
  obtain ⟨s, hs, hwoken, hwork, t, ht, htrue, hfalse⟩ := hexec
  obtain ⟨-, -, hend⟩ := run_latch (run_of_exec_checked hs) (run_of_exec_checked ht)
  refine ⟨s, t, hwoken, fun i => ?_, by decide, hwork⟩
  refine (hend (fun i => by cases i <;> assumption) i).resolve_right ?_
  rintro ⟨-, hfew⟩
  exact absurd hfew (by decide)

end CountDownLatch

end WebServer
