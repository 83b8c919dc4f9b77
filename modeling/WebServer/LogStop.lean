import WebServer.LogOrder

/-! `AsyncLogging::stop`. After its store to `m_running` the writer runs at most one more locked section,
and only if it is already at the lock or in the wait; what the producers handed over is written in
that section or not at all. -/

namespace WebServer

open Runs Fifo

namespace AsyncLogging

/-- The bytes that are written, or will be without another locked section. -/
def settled (s : AsyncLogging) : Bytes := s.output.written ++ s.unwritten

/-- The call of `stop` in this state loses nothing. -/
def StopKeeps (s : AsyncLogging) : Prop := (s.pc = .lock ∨ s.pc = .wait) ∨ s.waiting = []

variable {s s' : AsyncLogging}

theorem content_eq_settled (s : AsyncLogging) : s.view.content = s.settled ++ s.waiting := by
  rw [Transfer.content, view, settled, List.append_assoc]

/-- What `append` leaves alone: all that is the writer's. -/
structure SameWriter (s s' : AsyncLogging) : Prop where
  output : s'.output = s.output
  pc : s'.pc = s.pc
  running : s'.running = s.running
  stopPc : s'.stopPc = s.stopPc

theorem appendCurrent_same (s : AsyncLogging) (line : LogLine) : SameWriter s (s.appendCurrent line) := by
  unfold appendCurrent
  split <;> exact ⟨rfl, rfl, rfl, rfl⟩

theorem replaceCurrent_same (s : AsyncLogging) : SameWriter s s.replaceCurrent := by
  cases hnext : s.nextBuffer <;> simp only [replaceCurrent, hnext] <;> exact ⟨rfl, rfl, rfl, rfl⟩

theorem append_same (s : AsyncLogging) (line : LogLine) : SameWriter s (s.append line) := by
  unfold append
  split
  · exact ⟨rfl, rfl, rfl, rfl⟩
  · split_ifs
    · exact appendCurrent_same s line
    · obtain ⟨houtput, hpc, hrunning, hstopPc⟩ := appendCurrent_same s.replaceCurrent line
      obtain ⟨houtput', hpc', hrunning', hstopPc'⟩ := replaceCurrent_same s
      exact ⟨houtput.trans houtput', hpc.trans hpc', hrunning.trans hrunning', hstopPc.trans hstopPc'⟩

theorem appendCurrent_unwritten (hs : s.Inv) (line : LogLine) :
    (s.appendCurrent line).unwritten = s.unwritten := by
  cases hcurrent : s.currentBuffer with
  | none => exact absurd hcurrent hs.current
  | some id =>
      obtain ⟨-, -, -, -, hpending⟩ := hs.ne_current hcurrent
      simp only [appendCurrent, hcurrent]
      exact unwritten_setBuffer hpending

theorem append_settled (hs : s.Inv) (line : LogLine) : (s.append line).settled = s.settled := by
  have hunwritten : (s.append line).unwritten = s.unwritten := by
    rcases append_cases hs line with happend | happend
    · rw [happend, appendCurrent_unwritten hs]
    · rw [happend, appendCurrent_unwritten (replaceCurrent_inv hs), replaceCurrent_unwritten hs]
  rw [settled, settled, (append_same s line).output, hunwritten]

/-- Outside the locked section the writer leaves alone what the producers hand over, and after `stop`
it does not come to the lock again. -/
theorem writerStep_outside (hs : s.Inv) (hlock : s.pc ≠ .lock) (hwait : s.pc ≠ .wait)
    (hstep : s.writerStep = some s') :
    s'.waiting = s.waiting ∧ s'.running = s.running ∧
      (s.running = false → s'.pc ≠ .lock ∧ s'.pc ≠ .wait) := by
  have hround := hs.round
  unfold writerStep at hstep
  cases hpc : s.pc <;> simp only [hpc, Round, Option.some.injEq] at hstep hround hlock hwait
  case begin => exact hstep ▸ ⟨makeLocals_waiting hs, rfl, fun _ => by simp [makeLocals]⟩
  case test =>
      rw [testRunning_eq hs hround] at hstep
      subst hstep
      refine ⟨?_, ?_, fun hstopped => ?_⟩
      · split_ifs <;> rfl
      · split_ifs <;> rfl
      · simp [hstopped]
  case trim =>
      rw [trimPending, if_neg hround.2] at hstep
      exact hstep ▸ ⟨rfl, rfl, fun _ => by simp⟩
  case write i =>
      subst hstep
      unfold writeNext
      split
      · exact ⟨rfl, rfl, fun _ => by simp⟩
      · rename_i hnull
        exact absurd (List.mem_of_getElem? hnull) hs.pending
      · exact ⟨rfl, rfl, fun _ => by simp⟩
  case resize => exact hstep ▸ ⟨rfl, rfl, fun _ => by simp [resizeWritten]⟩
  case refill1 =>
      obtain ⟨hwaiting, -, hrunning, -, hpc'⟩ := refillFirst_spec hs hround
      exact hstep ▸ ⟨hwaiting, hrunning, fun _ => by simp [hpc']⟩
  case refill2 =>
      obtain ⟨hwaiting, -, hrunning, -, hpc'⟩ := refillSecond_spec hs hround.1
      exact hstep ▸ ⟨hwaiting, hrunning, fun _ => by simp [hpc']⟩
  case clear => exact hstep ▸ ⟨rfl, rfl, fun _ => by simp [clearRound]⟩
  case exit => exact hstep ▸ ⟨rfl, rfl, fun _ => by simp⟩
  case lock => exact absurd rfl hlock
  case wait => exact absurd rfl hwait
  case done => cases hstep

/-- So it changes nothing in what is written in the end. -/
theorem writerStep_settled (hs : s.Inv) (hfew : s.pc = .trim → s.buffersToWrite.length ≤ 25)
    (hlock : s.pc ≠ .lock) (hwait : s.pc ≠ .wait) (hstep : s.writerStep = some s') :
    s'.settled = s.settled := by
  obtain ⟨n, hview⟩ := writerStep_view hs hfew hstep
  have hcontent := congrArg Transfer.content hview
  rw [Transfer.content_take, content_eq_settled, content_eq_settled,
    (writerStep_outside hs hlock hwait hstep).1] at hcontent
  exact List.append_cancel_right hcontent

/-- The locked section leaves nothing behind. -/
theorem swapBuffers_settled (hs : s.Inv) (hpc : s.pc = .lock ∨ s.pc = .wait)
    (hround : s.missing = 0 ∧ s.buffersToWrite = []) : s.swapBuffers.settled = s.view.content := by
  rw [← swapBuffers_view hs hpc hround, content_eq_settled, swapBuffers_waiting hs hround,
    List.append_nil]

/-- The writer does not come to the lock again, and `settled` is what it writes. -/
def Winding (settled : Bytes) (s : AsyncLogging) : Prop :=
  s.running = false ∧ s.pc ≠ .lock ∧ s.pc ≠ .wait ∧ s.settled = settled

/-- The lines are among the bytes that are written, or the writer is about to swap the buffers. -/
def Due (lines : Bytes) (s : AsyncLogging) : Prop :=
  (s.running = false ∧ (s.pc = .lock ∨ s.pc = .wait) ∧ lines <+: s.view.content) ∨
    ∃ settled, lines <+: settled ∧ s.Winding settled

theorem step_winding {settled : Bytes} {a : LogStep} (hok : Untrimmed s a) (hs : s.Inv)
    (hstep : s.step a = some s') (hwinding : s.Winding settled) : s'.Winding settled := by
  obtain ⟨hrunning, hlock, hwait, hsettled⟩ := hwinding
  obtain ⟨-, ⟨line, rfl, rfl⟩ | ⟨rfl, hwriter⟩ | ⟨rfl, -, rfl⟩ | ⟨rfl, -, -, rfl⟩⟩ := step_cases hstep
  · obtain ⟨-, hpc, hrunning', -⟩ := append_same s line
    exact ⟨hrunning'.trans hrunning, hpc ▸ hlock, hpc ▸ hwait, (append_settled hs line).trans hsettled⟩
  · obtain ⟨-, hrunning', hpc⟩ := writerStep_outside hs hlock hwait hwriter
    obtain ⟨hlock', hwait'⟩ := hpc hrunning
    exact ⟨hrunning'.trans hrunning, hlock', hwait',
      (writerStep_settled hs hok hlock hwait hwriter).trans hsettled⟩
  · exact ⟨rfl, hlock, hwait, hsettled⟩
  · exact ⟨hrunning, hlock, hwait, hsettled⟩

/-- The last locked section brings the lines to the writer. -/
theorem lockRound_due {lines : Bytes} (hs : s.Inv) (hrunning : s.running = false)
    (hpc : s.pc = .lock ∨ s.pc = .wait) (hround : s.missing = 0 ∧ s.buffersToWrite = [])
    (hlines : lines <+: s.view.content) : s.swapBuffers.Due lines :=
  Or.inr ⟨s.view.content, hlines, hrunning, by simp [swapBuffers], by simp [swapBuffers],
    swapBuffers_settled hs hpc hround⟩

theorem step_due {lines : Bytes} {a : LogStep} (hok : Untrimmed s a) (hs : s.Inv)
    (hstep : s.step a = some s') (hdue : s.Due lines) : s'.Due lines := by
  rcases hdue with ⟨hrunning, hpc, hlines⟩ | ⟨settled, hlines, hwinding⟩
  · obtain ⟨-, ⟨line, rfl, rfl⟩ | ⟨rfl, hwriter⟩ | ⟨rfl, -, rfl⟩ | ⟨rfl, -, -, rfl⟩⟩ := step_cases hstep
    · obtain ⟨-, hpc', hrunning', -⟩ := append_same s line
      refine Or.inl ⟨hrunning'.trans hrunning, hpc' ▸ hpc, ?_⟩
      rw [append_view hs hok, Transfer.content_put]
      exact hlines.trans (List.prefix_append _ _)
    · have hround := hs.round
      rcases hpc with hpc | hpc
      · rw [hpc] at hround
        simp only [writerStep, hpc, Option.some.injEq] at hwriter
        subst hwriter
        unfold lockRound
        split_ifs
        · refine Or.inl ⟨hrunning, Or.inr rfl, ?_⟩
          simpa only [view, unwritten, hpc, waiting] using hlines
        · exact lockRound_due hs hrunning (Or.inl hpc) hround hlines
      · rw [hpc] at hround
        simp only [writerStep, hpc, Option.some.injEq] at hwriter
        subst hwriter
        exact lockRound_due hs hrunning (Or.inr hpc) hround hlines
    · exact Or.inl ⟨rfl, hpc, hlines⟩
    · exact Or.inl ⟨hrunning, hpc, hlines⟩
  · exact Or.inr ⟨settled, hlines, step_winding hok hs hstep hwinding⟩

/-- When the writer has ended everything written is in the file, and `stop` returns after that. -/
def Ended (s : AsyncLogging) : Prop :=
  (s.pc = .done → s.output.stream = []) ∧ (s.stopPc = .returned → s.pc = .done)

theorem writerStep_done (hs : s.Inv) (hstep : s.writerStep = some s') :
    s.pc ≠ .done ∧ s'.stopPc = s.stopPc ∧ (s'.pc = .done → s'.output.stream = []) := by
  have hround := hs.round
  unfold writerStep at hstep
  cases hpc : s.pc <;> simp only [hpc, Round, Option.some.injEq] at hstep hround
  case begin => exact hstep ▸ ⟨by simp, rfl, fun h => by simp [makeLocals] at h⟩
  case test =>
      rw [testRunning_eq hs hround] at hstep
      subst hstep
      split_ifs <;> exact ⟨by simp, rfl, fun h => by simp at h⟩
  case lock =>
      subst hstep
      unfold lockRound
      split_ifs <;> exact ⟨by simp, rfl, fun h => by simp [swapBuffers] at h⟩
  case wait => exact hstep ▸ ⟨by simp, rfl, fun h => by simp [swapBuffers] at h⟩
  case trim =>
      rw [trimPending, if_neg hround.2] at hstep
      exact hstep ▸ ⟨by simp, rfl, fun h => by simp at h⟩
  case write i =>
      subst hstep
      unfold writeNext
      split
      · exact ⟨by simp, rfl, fun h => by simp at h⟩
      · rename_i hnull
        exact absurd (List.mem_of_getElem? hnull) hs.pending
      · exact ⟨by simp, rfl, fun h => by simp at h⟩
  case resize => exact hstep ▸ ⟨by simp, rfl, fun h => by simp [resizeWritten] at h⟩
  case refill1 =>
      obtain ⟨-, -, -, hstopPc, hpc'⟩ := refillFirst_spec hs hround
      exact hstep ▸ ⟨by simp, hstopPc, fun h => by simp [hpc'] at h⟩
  case refill2 =>
      obtain ⟨-, -, -, hstopPc, hpc'⟩ := refillSecond_spec hs hround.1
      exact hstep ▸ ⟨by simp, hstopPc, fun h => by simp [hpc'] at h⟩
  case clear => exact hstep ▸ ⟨by simp, rfl, fun h => by simp [clearRound] at h⟩
  case exit => exact hstep ▸ ⟨by simp, rfl, fun _ => rfl⟩
  case done => cases hstep

theorem step_ended {a : LogStep} (hs : s.Inv) (hstep : s.step a = some s') (hended : s.Ended) :
    s'.Ended := by
  obtain ⟨-, ⟨line, rfl, rfl⟩ | ⟨rfl, hwriter⟩ | ⟨rfl, -, rfl⟩ | ⟨rfl, -, hdone, rfl⟩⟩ := step_cases hstep
  · obtain ⟨houtput, hpc, -, hstopPc⟩ := append_same s line
    rw [Ended, houtput, hpc, hstopPc]
    exact hended
  · obtain ⟨hnot, hstopPc, hflushed⟩ := writerStep_done hs hwriter
    exact ⟨hflushed, fun h => absurd (hended.2 (hstopPc ▸ h)) hnot⟩
  · exact ⟨hended.1, fun h => nomatch h⟩
  · exact ⟨hended.1, fun _ => hdone⟩

/-- When `stop` has returned the file holds what was settled, and nothing else. -/
theorem file_of_returned {s t : AsyncLogging} {bs : List LogStep}
    (hrun : Run step (fun s a => Untrimmed s a ∧ s.Inv) s bs t) (hended : s.Ended)
    (hreturned : t.stopPc = .returned) : t.pc = .done ∧ t.settled = t.output.file := by
  have hends : t.Ended := hrun.invariant (I := Ended)
    (fun _ _ _ hok hstep h => step_ended hok.2 hstep h) hended
  have hdone := hends.2 hreturned
  refine ⟨hdone, ?_⟩
  simp only [settled, LogFile.written, hends.1 hdone, unwritten, hdone, List.append_nil]

/-- **When `stop` loses nothing.** The lines appended before it was called are in the file when it
returns, if and only if the writer was at the lock or in the wait, or had nothing to fetch. -/
theorem stop_keeps_iff {s s' t : AsyncLogging} {as bs : List LogStep}
    (hbefore : Run step Untrimmed started as s) (hstop : s.step .stop = some s')
    (hafter : Run step Untrimmed s' bs t) (hreturned : t.stopPc = .returned) :
    as.flatMap LogStep.appended <+: t.output.file ↔ s.StopKeeps := by
  have hs := run_inv hbefore
  have hs' := step_inv hs hstop
  have hrun := run_with_inv hafter hs'
  have hlines : as.flatMap LogStep.appended = s.settled ++ s.waiting := by
    rw [← run_content hbefore, content_eq_settled]
  have hended : s'.Ended := by
    refine step_ended hs hstop ((run_with_inv hbefore started_inv).invariant (I := Ended) ?_ ?_)
    · exact fun _ _ _ hok hstep h => step_ended hok.2 hstep h
    · exact ⟨by simp [started], by simp [started]⟩
  obtain ⟨hdone, hfile⟩ := file_of_returned hrun hended hreturned
  simp only [step, hs.noViolation, if_true, Option.ite_none_right_eq_some, Option.some.injEq] at hstop
  obtain ⟨-, rfl⟩ := hstop
  rw [← hfile, hlines]
  by_cases hpc : s.pc = .lock ∨ s.pc = .wait
  · refine iff_of_true ?_ (Or.inl hpc)
    have hdue := hrun.invariant (I := Due (s.settled ++ s.waiting))
      (fun _ _ _ hok hstep h => step_due hok.1 hok.2 hstep h)
      (Or.inl ⟨rfl, hpc, by rw [← content_eq_settled]; exact List.prefix_rfl⟩)
    rcases hdue with ⟨-, hlock | hwait, -⟩ | ⟨settled, hprefix, -, -, -, hsettled⟩
    · rw [hdone] at hlock
      cases hlock
    · rw [hdone] at hwait
      cases hwait
    · rwa [hsettled]
  · obtain ⟨hlock, hwait⟩ := not_or.mp hpc
    obtain ⟨-, -, -, hsettled⟩ := hrun.invariant (I := Winding s.settled)
      (fun _ _ _ hok hstep h => step_winding hok.1 hok.2 hstep h) ⟨rfl, hlock, hwait, rfl⟩
    rw [hsettled, StopKeeps, or_iff_right hpc]
    constructor
    · intro hprefix
      have hlength := hprefix.length_le
      rw [List.length_append] at hlength
      exact List.length_eq_zero_iff.mp (by omega)
    · intro hnil
      exact ⟨[], by simp only [hnil, List.append_nil]⟩

/-- A line appended during the wait, and `stop` called there. -/
theorem stop_keeps_wait :
    ∃ s t : AsyncLogging, s.pc = .wait ∧ s.waiting = [120] ∧ t.stopPc = .returned ∧
      ([.writer, .writer, .writer, .append oneByte].flatMap LogStep.appended <+: t.output.file ↔
        s.StopKeeps) := by
  have hbefore : ∃ s, exec (checked step Untrimmed) started
      [.writer, .writer, .writer, .append oneByte] = some s ∧ s.pc = .wait ∧ s.waiting = [120] ∧
        ∃ s', s.step .stop = some s' ∧ ∃ t, exec (checked step Untrimmed) s'
          (List.replicate 10 .writer ++ [.stopReturns]) = some t ∧ t.stopPc = .returned :=
    ⟨_, rfl, rfl, rfl, _, rfl, _, rfl, rfl⟩
  obtain ⟨s, hs, hpc, hwaiting, s', hstop, t, ht, hreturned⟩ := hbefore
  exact ⟨s, t, hpc, hwaiting, hreturned,
    stop_keeps_iff (run_of_exec_checked hs) hstop (run_of_exec_checked ht) hreturned⟩

/-- A line appended before the writer's first test, and `stop` called there. -/
theorem stop_before_round_loses :
    ∃ s s' t : AsyncLogging, Run step Untrimmed started [.append oneByte] s ∧ s.step .stop = some s' ∧
      Run step Untrimmed s' [.writer, .writer, .writer, .stopReturns] t ∧ t.stopPc = .returned ∧
        ¬ [.append oneByte].flatMap LogStep.appended <+: t.output.file := by
  have hexec : ∃ s, exec (checked step Untrimmed) started [.append oneByte] = some s ∧
      ∃ s', s.step .stop = some s' ∧ ∃ t, exec (checked step Untrimmed) s'
        [.writer, .writer, .writer, .stopReturns] = some t ∧ t.stopPc = .returned ∧
          t.output.file = [] := ⟨_, rfl, _, rfl, _, rfl, rfl, rfl⟩
  obtain ⟨s, hs, s', hstop, t, ht, hreturned, hfile⟩ := hexec
  exact ⟨s, s', t, run_of_exec_checked hs, hstop, run_of_exec_checked ht, hreturned,
    by rw [hfile]; decide⟩

end AsyncLogging

end WebServer
