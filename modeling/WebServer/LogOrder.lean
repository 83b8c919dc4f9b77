import WebServer.LogRoles

/-! The order of the log. What is written, what the writer has still to write, what is queued and what
the current buffer holds are, one behind the other, the lines appended so far: `AsyncLogging` refines a
first-in first-out transfer of bytes. -/

namespace WebServer

open Runs Fifo

namespace AsyncLogging

def bytesOf (heap : Nat → Buffer) : BufferPtr → Bytes
  | none => []
  | some id => (heap id).data

def bytesIn (heap : Nat → Buffer) (ps : BufferVector) : Bytes := ps.flatMap (bytesOf heap)

/-- The part of `buffersToWrite` not yet written. -/
def unwritten (s : AsyncLogging) : Bytes :=
  match s.pc with
  | .trim => bytesIn s.heap s.buffersToWrite
  | .write i => bytesIn s.heap (s.buffersToWrite.drop i)
  | _ => []

/-- What the producers have handed over since the last round. -/
def waiting (s : AsyncLogging) : Bytes := bytesIn s.heap s.buffers ++ bytesOf s.heap s.currentBuffer

def view (s : AsyncLogging) : Transfer Byte := ⟨s.output.written, s.unwritten ++ s.waiting⟩

variable {heap : Nat → Buffer} {id : Nat} {b : Buffer}

theorem bytesOf_some : bytesOf heap (some id) = (heap id).data := rfl

theorem bytesOf_update {p : BufferPtr} (hp : p ≠ some id) :
    bytesOf (Function.update heap id b) p = bytesOf heap p := by
  cases p with
  | none => rfl
  | some id' =>
      rw [bytesOf_some, bytesOf_some, Function.update_of_ne]
      rintro rfl
      exact hp rfl

theorem bytesIn_update {ps : BufferVector} (hps : some id ∉ ps) :
    bytesIn (Function.update heap id b) ps = bytesIn heap ps :=
  List.flatMap_congr fun _ hp => bytesOf_update fun heq => hps (heq ▸ hp)

theorem bytesIn_append (ps qs : BufferVector) :
    bytesIn heap (ps ++ qs) = bytesIn heap ps ++ bytesIn heap qs := List.flatMap_append

theorem bytesIn_singleton (p : BufferPtr) : bytesIn heap [p] = bytesOf heap p := by
  rw [bytesIn, List.flatMap_cons, List.flatMap_nil, List.append_nil]

variable {s : AsyncLogging}

theorem bytesOf_empty {p : BufferPtr} (h : s.Empty p) : bytesOf s.heap p = [] := by
  cases p with
  | none => rfl
  | some id => exact h id rfl

/-- A buffer not made yet has no role. -/
theorem Inv.not_made (hs : s.Inv) (hid : s.made ≤ id) :
    s.currentBuffer ≠ some id ∧ some id ∉ s.buffers ∧ some id ∉ s.buffersToWrite := by
  have hcount := hs.distinct id
  rw [if_neg (Nat.not_lt.mpr hid), Nat.le_zero, List.count_eq_zero] at hcount
  simp only [roles, List.mem_cons, List.mem_append, not_or] at hcount
  obtain ⟨hcurrent, -, -, -, hbuffers, hpending⟩ := hcount
  exact ⟨Ne.symm hcurrent, hbuffers, hpending⟩

theorem unwritten_setBuffer (hid : some id ∉ s.buffersToWrite) :
    (s.setBuffer id b).unwritten = s.unwritten := by
  unfold unwritten
  simp only [setBuffer]
  split
  · exact bytesIn_update hid
  · exact bytesIn_update fun h => hid (List.mem_of_mem_drop h)
  · rfl

/-- With room in the current buffer, the line goes to its end. -/
theorem appendCurrent_view (hs : s.Inv) {line : LogLine} (hcurrent : s.currentBuffer = some id)
    (hroom : line.data.length < (s.heap id).avail) :
    (s.appendCurrent line).view = s.view.put line.data := by
  obtain ⟨-, -, -, hbuffers, hpending⟩ := hs.ne_current hcurrent
  have happend : s.appendCurrent line = s.setBuffer id ((s.heap id).append line) := by
    rw [appendCurrent, hcurrent]
  have hwaiting : (s.setBuffer id ((s.heap id).append line)).waiting = s.waiting ++ line.data := by
    simp only [waiting, setBuffer, bytesIn_update hbuffers, hcurrent, bytesOf_some, Function.update_self,
      FixedBuffer.append_data hroom, List.append_assoc]
  rw [happend, view, view, Transfer.put, unwritten_setBuffer hpending, hwaiting, List.append_assoc]
  rfl

theorem replaceCurrent_unwritten (hs : s.Inv) : s.replaceCurrent.unwritten = s.unwritten := by
  cases hnext : s.nextBuffer with
  | some id => simp only [replaceCurrent, hnext, unwritten]
  | none =>
      obtain ⟨-, -, hpending⟩ := hs.not_made (Nat.le_refl s.made)
      simp only [replaceCurrent, hnext]
      exact unwritten_setBuffer (s := { s with
        buffers := s.buffers ++ [s.currentBuffer], currentBuffer := none }) hpending

/-- Queueing the current buffer moves nothing. -/
theorem replaceCurrent_waiting (hs : s.Inv) : s.replaceCurrent.waiting = s.waiting := by
  cases hnext : s.nextBuffer with
  | some id =>
      have hnone := bytesOf_empty hs.emptyNext
      rw [hnext] at hnone
      simp only [replaceCurrent, hnext, waiting, bytesIn_append, bytesIn_singleton, hnone, List.append_nil]
  | none =>
      obtain ⟨hcurrent, hbuffers, -⟩ := hs.not_made (Nat.le_refl s.made)
      simp only [waiting, replaceCurrent, hnext, setBuffer, bytesIn_append, bytesIn_singleton,
        bytesIn_update hbuffers, bytesOf_update hcurrent, bytesOf_some, Function.update_self,
        FixedBuffer.new, List.append_nil]

theorem replaceCurrent_view (hs : s.Inv) : s.replaceCurrent.view = s.view := by
  rw [view, view, replaceCurrent_unwritten hs, replaceCurrent_waiting hs]
  cases hnext : s.nextBuffer <;> simp only [replaceCurrent, hnext, setBuffer]

/-- The buffer that takes the place of the current one is empty. -/
theorem replaceCurrent_empty (hs : s.Inv) : ∃ id, s.replaceCurrent.currentBuffer = some id ∧
    (s.replaceCurrent.heap id).data = [] := by
  cases hnext : s.nextBuffer with
  | some id =>
      refine ⟨id, by simp only [replaceCurrent, hnext], ?_⟩
      simp only [replaceCurrent, hnext]
      exact hs.emptyNext id hnext
  | none =>
      refine ⟨s.made, by simp only [replaceCurrent, hnext], ?_⟩
      simp only [replaceCurrent, hnext, setBuffer, Function.update_self, FixedBuffer.new]

theorem append_view (hs : s.Inv) {line : LogLine} (hline : line.data.length < kLargeBuffer) :
    (s.append line).view = s.view.put line.data := by
  cases hcurrent : s.currentBuffer with
  | none => exact absurd hcurrent hs.current
  | some id =>
      simp only [append, hcurrent]
      split_ifs with hroom
      · exact appendCurrent_view hs hcurrent hroom
      · obtain ⟨id', hcurrent', hempty⟩ := replaceCurrent_empty hs
        rw [appendCurrent_view (replaceCurrent_inv hs) hcurrent'
          (by rwa [FixedBuffer.avail_of_empty hempty]), replaceCurrent_view hs]

theorem makeLocals_waiting (hs : s.Inv) : s.makeLocals.waiting = s.waiting := by
  obtain ⟨hcurrent, hbuffers, -⟩ := hs.not_made (Nat.le_refl s.made)
  obtain ⟨hcurrent', hbuffers', -⟩ := hs.not_made (Nat.le_succ s.made)
  simp only [makeLocals, waiting, setBuffer, bytesIn_update hbuffers', bytesIn_update hbuffers,
    bytesOf_update hcurrent', bytesOf_update hcurrent]

theorem makeLocals_view (hs : s.Inv) (hpc : s.pc = .begin) (hround : s.output = .new) :
    s.makeLocals.view = s.view := by
  rw [view, view, makeLocals_waiting hs]
  simp only [makeLocals, hround, unwritten, hpc, setBuffer]

theorem testRunning_view (hs : s.Inv) (hpc : s.pc = .test)
    (hround : s.missing = 0 ∧ s.buffersToWrite = []) : s.testRunning.view = s.view := by
  rw [testRunning_eq hs hround]
  split_ifs <;> simp only [view, unwritten, hpc, waiting]

theorem swapBuffers_waiting (hs : s.Inv) (hround : s.missing = 0 ∧ s.buffersToWrite = []) :
    s.swapBuffers.waiting = [] := by
  simp only [waiting, swapBuffers, hround.2, bytesOf_empty hs.empty1]
  rfl

theorem swapBuffers_view (hs : s.Inv) (hpc : s.pc = .lock ∨ s.pc = .wait)
    (hround : s.missing = 0 ∧ s.buffersToWrite = []) : s.swapBuffers.view = s.view := by
  have hbefore : s.unwritten = [] := by
    rcases hpc with hpc | hpc <;> simp only [unwritten, hpc]
  have hafter : s.swapBuffers.unwritten = s.waiting := by
    simp only [unwritten, swapBuffers, bytesIn_append, bytesIn_singleton, waiting]
  rw [view, hafter, swapBuffers_waiting hs hround, view, hbefore, List.append_nil, List.nil_append]
  rfl

theorem trimPending_view (hpc : s.pc = .trim) (hsome : s.buffersToWrite ≠ [])
    (hfew : s.buffersToWrite.length ≤ 25) : s.trimPending.view = s.view := by
  simp only [trimPending, if_neg hsome, if_neg (Nat.not_lt.mpr hfew), view, unwritten, hpc, waiting,
    List.drop_zero]

/-- A turn of the loop takes one buffer off what is unwritten. -/
theorem writeNext_view {i : Nat} (hs : s.Inv) (hpc : s.pc = .write i) :
    ∃ n, (s.writeNext i).view = s.view.take n := by
  have hunwritten : s.unwritten = bytesIn s.heap (s.buffersToWrite.drop i) := by
    simp only [unwritten, hpc]
  cases hat : s.buffersToWrite[i]? with
  | none =>
      refine ⟨0, ?_⟩
      have hend : s.buffersToWrite.drop i = [] :=
        List.drop_eq_nil_of_le (List.getElem?_eq_none_iff.mp hat)
      rw [Transfer.take_zero, view, view, hunwritten, hend]
      simp only [writeNext, hat, unwritten, waiting]
      rfl
  | some p =>
      cases p with
      | none => exact absurd (List.mem_of_getElem? hat) hs.pending
      | some id =>
          refine ⟨(s.heap id).data.length, ?_⟩
          have hdrop : s.buffersToWrite.drop i = some id :: s.buffersToWrite.drop (i + 1) := by
            obtain ⟨hlt, heq⟩ := List.getElem?_eq_some_iff.mp hat
            rw [List.drop_eq_getElem_cons hlt, heq]
          have hsplit : s.unwritten = (s.heap id).data ++
              bytesIn s.heap (s.buffersToWrite.drop (i + 1)) := by
            rw [hunwritten, hdrop, bytesIn, List.flatMap_cons]
            rfl
          rw [view, view, hsplit, Transfer.take, List.append_assoc, List.take_left', List.drop_left']
          · simp only [writeNext, hat, LogFile.written_append, unwritten, waiting]
          · rfl
          · rfl

theorem resizeWritten_view (hpc : s.pc = .resize) : s.resizeWritten.view = s.view := by
  simp only [resizeWritten, view, unwritten, hpc, waiting]

/-- A buffer that was written is not queued. -/
theorem Inv.written_apart (hs : s.Inv) (hp : some id ∈ s.buffersToWrite) :
    s.currentBuffer ≠ some id ∧ some id ∉ s.buffers := by
  have hcount := hs.distinct id
  have hpos := List.count_pos_iff.mpr hp
  simp only [roles, List.count_cons, List.count_append] at hcount
  constructor
  · intro h
    simp only [h, beq_self_eq_true, if_true] at hcount
    split_ifs at hcount <;> omega
  · intro h
    have hpos' := List.count_pos_iff.mpr h
    split_ifs at hcount <;> omega

theorem waiting_refill (hs : s.Inv) {kept : BufferVector} (hkept : s.buffersToWrite = kept ++ [some id]) :
    (s.setBuffer id .new).waiting = s.waiting := by
  have hlast : some id ∈ s.buffersToWrite := by simp [hkept]
  obtain ⟨hcurrent, hbuffers⟩ := hs.written_apart hlast
  simp only [waiting, setBuffer, bytesIn_update hbuffers, bytesOf_update hcurrent]

theorem refillFirst_spec (hs : s.Inv) (hround : s.missing ≤ s.buffersToWrite.length) :
    s.refillFirst.waiting = s.waiting ∧ s.refillFirst.output = s.output ∧
      s.refillFirst.running = s.running ∧ s.refillFirst.stopPc = s.stopPc ∧ s.refillFirst.pc = .refill2 := by
  obtain ⟨-, id, kept, hkept, hrefill⟩ | ⟨-, hrefill⟩ := refillFirst_cases hs hround
  all_goals rw [hrefill]
  · exact ⟨waiting_refill hs hkept, rfl, rfl, rfl, rfl⟩
  · exact ⟨rfl, rfl, rfl, rfl, rfl⟩

theorem refillSecond_spec (hs : s.Inv) (hround : s.missing ≤ s.buffersToWrite.length) :
    s.refillSecond.waiting = s.waiting ∧ s.refillSecond.output = s.output ∧
      s.refillSecond.running = s.running ∧ s.refillSecond.stopPc = s.stopPc ∧ s.refillSecond.pc = .clear := by
  obtain ⟨-, id, kept, hkept, hrefill⟩ | ⟨-, hrefill⟩ := refillSecond_cases hs hround
  all_goals rw [hrefill]
  · exact ⟨waiting_refill hs hkept, rfl, rfl, rfl, rfl⟩
  · exact ⟨rfl, rfl, rfl, rfl, rfl⟩

theorem refillFirst_view (hs : s.Inv) (hpc : s.pc = .refill1)
    (hround : s.missing ≤ s.buffersToWrite.length) : s.refillFirst.view = s.view := by
  obtain ⟨hwaiting, houtput, -, -, hpc'⟩ := refillFirst_spec hs hround
  simp only [view, unwritten, hpc, hpc', hwaiting, houtput]

theorem refillSecond_view (hs : s.Inv) (hpc : s.pc = .refill2)
    (hround : s.missing ≤ s.buffersToWrite.length) : s.refillSecond.view = s.view := by
  obtain ⟨hwaiting, houtput, -, -, hpc'⟩ := refillSecond_spec hs hround
  simp only [view, unwritten, hpc, hpc', hwaiting, houtput]

theorem clearRound_view (hpc : s.pc = .clear) : s.clearRound.view = s.view := by
  simp only [view, clearRound, LogFile.written_flush, unwritten, hpc, waiting]

/-- The writer moves bytes from what is held to what is written, in their order, and does nothing
else to them. -/
theorem writerStep_view {s' : AsyncLogging} (hs : s.Inv)
    (hfew : s.pc = .trim → s.buffersToWrite.length ≤ 25) (hstep : s.writerStep = some s') :
    ∃ n, s'.view = s.view.take n := by
  have hsame : s'.view = s.view → ∃ n, s'.view = s.view.take n := fun h =>
    ⟨0, by rw [h, Transfer.take_zero]⟩
  have hround := hs.round
  unfold writerStep at hstep
  cases hpc : s.pc <;> simp only [hpc, Round, Option.some.injEq] at hstep hround
  case begin => exact hsame (hstep ▸ makeLocals_view hs hpc hround)
  case test => exact hsame (hstep ▸ testRunning_view hs hpc hround)
  case lock =>
      refine hsame (hstep ▸ ?_)
      unfold lockRound
      split_ifs
      · simp only [view, unwritten, hpc, waiting]
      · exact swapBuffers_view hs (Or.inl hpc) hround
  case wait => exact hsame (hstep ▸ swapBuffers_view hs (Or.inr hpc) hround)
  case trim => exact hsame (hstep ▸ trimPending_view hpc hround.2 (hfew hpc))
  case write i => exact hstep ▸ writeNext_view hs hpc
  case resize => exact hsame (hstep ▸ resizeWritten_view hpc)
  case refill1 => exact hsame (hstep ▸ refillFirst_view hs hpc hround)
  case refill2 => exact hsame (hstep ▸ refillSecond_view hs hpc hround.1)
  case clear => exact hsame (hstep ▸ clearRound_view hpc)
  case exit =>
      refine hsame (hstep ▸ ?_)
      simp only [view, LogFile.written_flush, unwritten, hpc, waiting]
  case done => cases hstep

/-- **The logger is a transfer**: an append puts a line at the end, a step of the writer takes some
bytes off the front. -/
theorem step_refines : Refines step (fun s a => Untrimmed s a ∧ s.Inv) view LogStep.appended := by
  rintro s a s' ⟨hok, hs⟩ hstep
  have hsame : s'.view = s.view → LogStep.appended a = [] →
      ∃ n, s'.view = (s.view.put a.appended).take n := fun h hnil =>
    ⟨0, by rw [h, hnil, Transfer.put_nil, Transfer.take_zero]⟩
  obtain ⟨-, ⟨line, rfl, rfl⟩ | ⟨rfl, hwriter⟩ | ⟨rfl, -, rfl⟩ | ⟨rfl, -, -, rfl⟩⟩ := step_cases hstep
  · exact ⟨0, by rw [append_view hs hok, Transfer.take_zero]; rfl⟩
  · obtain ⟨n, hn⟩ := writerStep_view hs hok hwriter
    exact ⟨n, by rw [hn, show LogStep.writer.appended = [] from rfl, Transfer.put_nil]⟩
  · exact hsame rfl rfl
  · exact hsame rfl rfl

/-- The invariant of the roles may be assumed at each step of a run. -/
theorem run_with_inv {s t : AsyncLogging} {as : List LogStep} (hrun : Run step Untrimmed s as t)
    (hs : s.Inv) : Run step (fun s a => Untrimmed s a ∧ s.Inv) s as t :=
  hrun.strengthen (fun _ _ _ _ hstep hs => step_inv hs hstep) hs

/-- What is written and what is held are the lines appended so far. -/
theorem run_content {t : AsyncLogging} {as : List LogStep} (hrun : Run step Untrimmed started as t) :
    t.view.content = as.flatMap LogStep.appended :=
  step_refines.content_eq (run_with_inv hrun started_inv)

/-- **Every line once and in order**: written, then to be written, then queued, then current. -/
theorem run_written {t : AsyncLogging} {as : List LogStep} (hrun : Run step Untrimmed started as t) :
    t.output.written ++ t.unwritten ++ bytesIn t.heap t.buffers ++ bytesOf t.heap t.currentBuffer =
      as.flatMap LogStep.appended := by
  have hcontent := run_content hrun
  rwa [Transfer.content, view, waiting, ← List.append_assoc, ← List.append_assoc] at hcontent

/-- One line written and one in the current buffer. -/
theorem run_written_round :
    ∃ t : AsyncLogging, t.output.written = [120] ∧ t.waiting = [120] ∧
      t.output.written ++ t.unwritten ++ bytesIn t.heap t.buffers ++ bytesOf t.heap t.currentBuffer =
        [120, 120] := by
  have hexec : ∃ t, exec (checked step Untrimmed) started
      ([.append oneByte] ++ List.replicate 4 .writer ++ [.append oneByte] ++ List.replicate 2 .writer) =
        some t ∧ t.output.written = [120] ∧ t.waiting = [120] := ⟨_, rfl, rfl, rfl⟩
  obtain ⟨t, ht, hwritten, hwaiting⟩ := hexec
  exact ⟨t, hwritten, hwaiting, run_written (run_of_exec_checked ht)⟩

end AsyncLogging

end WebServer
