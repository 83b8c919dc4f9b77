import WebServer.LogStop
import WebServer.RunsTrace

/-! When a line is on disk. Each round of the writer ends with a flush. A round that is under way when a line
is appended may have fetched the buffers before, but the next one fetches what was appended by then: at the end
of the second round the line has been flushed. -/

namespace WebServer

open Runs Fifo

namespace AsyncLogging

/-- The end of a round, with its flush. -/
def roundsEnded (s : AsyncLogging) : LogStep → List Unit
  | .writer => if s.pc = .clear then [()] else []
  | _ => []

/-- The writer is between two rounds, or before the locked section of one, or has left its loop. -/
def Idle (s : AsyncLogging) : Prop :=
  s.pc = .test ∨ s.pc = .lock ∨ s.pc = .wait ∨ s.pc = .exit ∨ s.pc = .done

/-- What is known of the lines when so many rounds have ended since they were appended. -/
structure Durable (lines : Bytes) (s : AsyncLogging) (rounds : Nat) : Prop where
  content : lines <+: s.view.content
  settled : 1 ≤ rounds → s.Idle ∨ lines <+: s.settled
  file : 2 ≤ rounds → lines <+: s.output.file

variable {s t : AsyncLogging} {lines : Bytes}

theorem file_append (f : LogFile) (data : Bytes) : f.file <+: (f.append data).file := by
  unfold LogFile.append
  dsimp only
  split_ifs
  · exact List.prefix_append _ _
  · exact List.prefix_rfl

theorem writerStep_file (hs : s.Inv) (hstep : s.writerStep = some t) : s.output.file <+: t.output.file := by
  have hround := hs.round
  unfold writerStep at hstep
  cases hpc : s.pc <;> simp only [hpc, Round, Option.some.injEq] at hstep hround
  case begin =>
      rw [hround]
      exact List.nil_prefix
  case test =>
      rw [testRunning_eq hs hround] at hstep
      subst hstep
      split_ifs <;> exact List.prefix_rfl
  case lock =>
      subst hstep
      unfold lockRound
      split_ifs <;> exact List.prefix_rfl
  case wait => exact hstep ▸ List.prefix_rfl
  case trim =>
      rw [trimPending, if_neg hround.2] at hstep
      exact hstep ▸ List.prefix_rfl
  case write i =>
      subst hstep
      unfold writeNext
      split
      · exact List.prefix_rfl
      · exact List.prefix_rfl
      · exact file_append _ _
  case resize => exact hstep ▸ List.prefix_rfl
  case refill1 =>
      obtain ⟨-, houtput, -⟩ := refillFirst_spec hs hround
      exact hstep ▸ houtput ▸ List.prefix_rfl
  case refill2 =>
      obtain ⟨-, houtput, -⟩ := refillSecond_spec hs hround.1
      exact hstep ▸ houtput ▸ List.prefix_rfl
  case clear => exact hstep ▸ List.prefix_append _ _
  case exit => exact hstep ▸ List.prefix_append _ _
  case done => cases hstep

/-- Between two rounds the writer goes to the locked section or out of its loop, and the section settles all
that was appended. -/
theorem writerStep_idle (hs : s.Inv) (hidle : s.Idle) (hstep : s.writerStep = some t) :
    t.Idle ∨ t.settled = s.view.content := by
  have hround := hs.round
  unfold writerStep at hstep
  rcases hidle with hpc | hpc | hpc | hpc | hpc
  all_goals simp only [hpc, Round, Option.some.injEq] at hstep hround
  · rw [testRunning_eq hs hround] at hstep
    subst hstep
    left
    unfold Idle
    split_ifs <;> simp
  · subst hstep
    unfold lockRound
    split_ifs
    · exact Or.inl (Or.inr (Or.inr (Or.inl rfl)))
    · exact Or.inr (swapBuffers_settled hs (Or.inl hpc) hround)
  · exact Or.inr (hstep ▸ swapBuffers_settled hs (Or.inr hpc) hround)
  · left
    subst hstep
    simp [Idle]
  · cases hstep

/-- The flush that ends a round puts all that is settled on disk. -/
theorem clearRound_file (hpc : s.pc = .clear) : s.clearRound.output.file = s.settled := by
  simp only [settled, unwritten, hpc, List.append_nil]
  rfl

theorem append_idle (line : LogLine) (hidle : s.Idle) : (s.append line).Idle := by
  unfold Idle at hidle ⊢
  rwa [(append_same s line).pc]

theorem writerStep_content (hs : s.Inv) (hfew : s.pc = .trim → s.buffersToWrite.length ≤ 25)
    (hstep : s.writerStep = some t) : t.view.content = s.view.content := by
  obtain ⟨n, hview⟩ := writerStep_view hs hfew hstep
  rw [hview, Transfer.content_take]

theorem writerStep_durable {rounds : Nat} (hs : s.Inv) (hfew : s.pc = .trim → s.buffersToWrite.length ≤ 25)
    (hstep : s.writerStep = some t) (h : Durable lines s rounds) :
    Durable lines t (rounds + (roundsEnded s .writer).length) := by
  have hcontent : lines <+: t.view.content := by
    rw [writerStep_content hs hfew hstep]
    exact h.content
  have hfile := writerStep_file hs hstep
  by_cases hclear : s.pc = .clear
  · have hnext : t = s.clearRound := by
      simp only [writerStep, hclear, Option.some.injEq] at hstep
      exact hstep.symm
    have hone : (roundsEnded s .writer).length = 1 := by
      simp only [roundsEnded, if_pos hclear, List.length_singleton]
    rw [hone]
    refine ⟨hcontent, fun _ => Or.inl (Or.inl (hnext ▸ rfl)), fun hrounds => ?_⟩
    -- the round that ends began after the lines were appended
    have hsettled : lines <+: s.settled := by
      refine (h.settled (by omega)).resolve_left fun hidle => ?_
      simp [Idle, hclear] at hidle
    rw [hnext, clearRound_file hclear]
    exact hsettled
  · have hnone : (roundsEnded s .writer).length = 0 := by
      simp only [roundsEnded, if_neg hclear, List.length_nil]
    rw [hnone, Nat.add_zero]
    refine ⟨hcontent, fun hrounds => ?_, fun hrounds => (h.file hrounds).trans hfile⟩
    by_cases hidle : s.Idle
    · rcases writerStep_idle hs hidle hstep with hstill | hsettled
      · exact Or.inl hstill
      · exact Or.inr (hsettled ▸ h.content)
    · have hbusy : s.pc ≠ .lock ∧ s.pc ≠ .wait :=
        ⟨fun hpc => hidle (Or.inr (Or.inl hpc)), fun hpc => hidle (Or.inr (Or.inr (Or.inl hpc)))⟩
      rw [writerStep_settled hs hfew hbusy.1 hbusy.2 hstep]
      exact Or.inr ((h.settled hrounds).resolve_left hidle)

theorem step_durable {rounds : Nat} {a : LogStep} (hok : Untrimmed s a) (hs : s.Inv)
    (hstep : s.step a = some t) (h : Durable lines s rounds) :
    Durable lines t (rounds + (roundsEnded s a).length) := by
  obtain ⟨-, ⟨line, rfl, rfl⟩ | ⟨rfl, hwriter⟩ | ⟨rfl, -, rfl⟩ | ⟨rfl, -, -, rfl⟩⟩ := step_cases hstep
  · refine ⟨?_, fun hrounds => ?_, fun hrounds => ?_⟩
    · rw [append_view hs hok, Transfer.content_put]
      exact h.content.trans (List.prefix_append _ _)
    · rw [append_settled hs line]
      exact (h.settled hrounds).imp_left (append_idle line)
    · rw [(append_same s line).output]
      exact h.file hrounds
  · exact writerStep_durable hs hok hwriter h
  · exact ⟨h.content, h.settled, h.file⟩
  · exact ⟨h.content, h.settled, h.file⟩

/-- **Two rounds make a line durable**, where the writes to the file succeed. Whatever is appended in between,
when two rounds have ended since, all that was appended before is on disk, in order and behind nothing else. -/
theorem run_durable {as bs : List LogStep} (hbefore : Run step Untrimmed started as s)
    (hafter : Run step Untrimmed s bs t) (hrounds : 2 ≤ (emitted step roundsEnded s bs).length) :
    as.flatMap LogStep.appended <+: t.output.file := by
  have hs := run_inv hbefore
  have hstart : Durable (as.flatMap LogStep.appended) s ([] : List Unit).length := by
    refine ⟨?_, fun h => absurd h (by decide), fun h => absurd h (by decide)⟩
    exact run_content hbefore ▸ List.prefix_rfl
  have hend : Durable (as.flatMap LogStep.appended) t ([] ++ emitted step roundsEnded s bs).length :=
    (run_with_inv hafter hs).emitted_invariant
      (I := fun s rounds => Durable (as.flatMap LogStep.appended) s rounds.length)
      (fun s a t rounds hok hstep h => List.length_append ▸ step_durable hok.1 hok.2 hstep h) hstart
  exact hend.file hrounds

/-- A line that is appended in the middle of a round waits for the next one. -/
theorem run_durable_second :
    ∃ s t : AsyncLogging, s.pc = .write 0 ∧ s.waiting = [120] ∧ [120] <+: t.output.file := by
  have hexec : ∃ s, exec (checked step Untrimmed) started (List.replicate 5 .writer ++ [.append oneByte]) =
      some s ∧ s.pc = .write 0 ∧ s.waiting = [120] ∧ ∃ t,
        exec (checked step Untrimmed) s (List.replicate 17 .writer) = some t ∧
          (emitted step roundsEnded s (List.replicate 17 .writer)).length = 2 :=
    ⟨_, rfl, rfl, rfl, _, rfl, rfl⟩
  obtain ⟨s, hs, hpc, hwaiting, t, ht, hrounds⟩ := hexec
  exact ⟨s, t, hpc, hwaiting,
    run_durable (run_of_exec_checked hs) (run_of_exec_checked ht) (Nat.le_of_eq hrounds.symm)⟩

end AsyncLogging

end WebServer
