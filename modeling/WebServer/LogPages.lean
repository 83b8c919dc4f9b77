import WebServer.LogOrder
import WebServer.Paging

/-! No record is torn. The buffers that the writer has still to write, those that are queued and the current
one are the pages of a queue: a line goes into one of them as a whole or is refused for its length, and when
too many are pending whole buffers are dropped. So whatever is lost, the file holds whole lines, in the order
in which they were appended. -/

namespace WebServer

open Runs Paging

namespace AsyncLogging

/-- The buffers to write that the writer has not come to. -/
def unwrittenBuffers (s : AsyncLogging) : BufferVector :=
  match s.pc with
  | .trim => s.buffersToWrite
  | .write i => s.buffersToWrite.drop i
  | _ => []

/-- The buffers that may hold lines not yet written. -/
def held (s : AsyncLogging) : BufferVector := s.unwrittenBuffers ++ s.buffers ++ [s.currentBuffer]

def pagesOf (heap : Nat → Buffer) (ps : BufferVector) : List Bytes := ps.map (bytesOf heap)

def queue (s : AsyncLogging) : Queue Byte := ⟨s.output.written, pagesOf s.heap s.held⟩

variable {s t : AsyncLogging} {heap : Nat → Buffer} {id : Nat} {b : Buffer}

theorem pagesOf_append (ps qs : BufferVector) : pagesOf heap (ps ++ qs) = pagesOf heap ps ++ pagesOf heap qs :=
  List.map_append

theorem pagesOf_update {ps : BufferVector} (hps : some id ∉ ps) :
    pagesOf (Function.update heap id b) ps = pagesOf heap ps :=
  List.map_congr_left fun _ hp => bytesOf_update fun heq => hps (heq ▸ hp)

theorem unwrittenBuffers_subset (s : AsyncLogging) : s.unwrittenBuffers ⊆ s.buffersToWrite := by
  unfold unwrittenBuffers
  split
  · exact fun _ h => h
  · exact fun _ h => List.mem_of_mem_drop h
  · exact List.nil_subset _

theorem not_mem_held (hcurrent : s.currentBuffer ≠ some id) (hbuffers : some id ∉ s.buffers)
    (hpending : some id ∉ s.buffersToWrite) : some id ∉ s.held := by
  have hunwritten : some id ∉ s.unwrittenBuffers := fun h => hpending (s.unwrittenBuffers_subset h)
  simp only [held, List.mem_append, List.mem_singleton, not_or]
  exact ⟨⟨hunwritten, hbuffers⟩, Ne.symm hcurrent⟩

theorem appendCurrent_moves (hs : s.Inv) (line : LogLine) :
    Move s.queue [line.data] (s.appendCurrent line).queue := by
  cases hcurrent : s.currentBuffer with
  | none => exact absurd hcurrent hs.current
  | some id =>
      obtain ⟨-, -, -, hbuffers, hpending⟩ := hs.ne_current hcurrent
      have hfront : some id ∉ s.unwrittenBuffers ++ s.buffers := by
        rw [List.mem_append, not_or]
        exact ⟨fun h => hpending (s.unwrittenBuffers_subset h), hbuffers⟩
      have hqueue : s.queue = ⟨s.output.written,
          pagesOf s.heap (s.unwrittenBuffers ++ s.buffers) ++ [(s.heap id).data]⟩ := by
        rw [queue, held, pagesOf_append, hcurrent]
        rfl
      have happend : (s.appendCurrent line).queue = ⟨s.output.written,
          pagesOf s.heap (s.unwrittenBuffers ++ s.buffers) ++ [((s.heap id).append line).data]⟩ := by
        rw [appendCurrent, hcurrent]
        show Queue.mk s.output.written (pagesOf (Function.update s.heap id _)
          (s.unwrittenBuffers ++ s.buffers ++ [s.currentBuffer])) = _
        rw [pagesOf_append, pagesOf_update hfront, hcurrent, pagesOf, pagesOf, List.map_singleton,
          bytesOf_some, Function.update_self]
      rw [hqueue, happend]
      by_cases hroom : line.data.length < (s.heap id).avail
      · rw [FixedBuffer.append_data hroom]
        exact .put _ _ _ _
      · rw [FixedBuffer.append, dif_neg hroom]
        exact .refuse _ _

/-- The current buffer joins the queue, and an empty one is held behind it. -/
theorem replaceCurrent_moves (hs : s.Inv) : Move s.queue [] s.replaceCurrent.queue := by
  have hpages : pagesOf s.replaceCurrent.heap s.replaceCurrent.held = pagesOf s.heap s.held ++ [[]] := by
    cases hnext : s.nextBuffer with
    | some id =>
        have hnone := bytesOf_empty hs.emptyNext
        rw [hnext] at hnone
        have hheld : s.replaceCurrent.held = s.held ++ [some id] := by
          simp only [replaceCurrent, hnext, held, unwrittenBuffers, List.append_assoc]
        have hheap : s.replaceCurrent.heap = s.heap := by
          simp only [replaceCurrent, hnext]
        rw [hheld, hheap, pagesOf_append, pagesOf, pagesOf, List.map_singleton, hnone]
    | none =>
        obtain ⟨hcurrent, hbuffers, hpending⟩ := hs.not_made (Nat.le_refl s.made)
        have hheld : s.replaceCurrent.held = s.held ++ [some s.made] := by
          simp only [replaceCurrent, hnext, held, unwrittenBuffers, setBuffer, List.append_assoc]
        have hheap : s.replaceCurrent.heap = Function.update s.heap s.made .new := by
          simp only [replaceCurrent, hnext, setBuffer]
        rw [hheld, hheap, pagesOf_append, pagesOf_update (not_mem_held hcurrent hbuffers hpending), pagesOf,
          pagesOf, List.map_singleton, bytesOf_some, Function.update_self, FixedBuffer.new]
  have hwritten : s.replaceCurrent.output = s.output := by
    cases hnext : s.nextBuffer <;> simp only [replaceCurrent, hnext, setBuffer]
  rw [queue, queue, hpages, hwritten]
  exact .add _ _

theorem append_moves (hs : s.Inv) (line : LogLine) : Moves s.queue [line.data] (s.append line).queue := by
  rcases append_cases hs line with happend | happend
  · rw [happend]
    exact (appendCurrent_moves hs line).moves
  · rw [happend]
    exact .step (replaceCurrent_moves hs) (appendCurrent_moves (replaceCurrent_inv hs) line).moves

theorem makeLocals_queue (hs : s.Inv) (hpc : s.pc = .begin) (hround : s.output = .new) :
    s.makeLocals.queue = s.queue := by
  obtain ⟨hcurrent, hbuffers, hpending⟩ := hs.not_made (Nat.le_refl s.made)
  obtain ⟨hcurrent', hbuffers', hpending'⟩ := hs.not_made (Nat.le_succ s.made)
  have hheld : s.makeLocals.held = s.held := by
    simp only [makeLocals, held, unwrittenBuffers, hpc, setBuffer]
  have houtput : s.makeLocals.output = s.output := hround.symm
  rw [queue, queue, hheld, houtput]
  show Queue.mk _ (pagesOf (Function.update (Function.update s.heap s.made .new) (s.made + 1) .new) s.held) = _
  rw [pagesOf_update (not_mem_held hcurrent' hbuffers' hpending'),
    pagesOf_update (not_mem_held hcurrent hbuffers hpending)]

theorem testRunning_queue (hs : s.Inv) (hpc : s.pc = .test)
    (hround : s.missing = 0 ∧ s.buffersToWrite = []) : s.testRunning.queue = s.queue := by
  rw [testRunning_eq hs hround]
  split_ifs <;> simp only [queue, held, unwrittenBuffers, hpc]

/-- The spare that becomes the current buffer is an empty page behind those that are fetched. -/
theorem swapBuffers_moves (hs : s.Inv) (hpc : s.pc = .lock ∨ s.pc = .wait)
    (hround : s.missing = 0 ∧ s.buffersToWrite = []) : Move s.queue [] s.swapBuffers.queue := by
  have hbefore : s.held = s.buffers ++ [s.currentBuffer] := by
    rcases hpc with hpc | hpc <;> simp only [held, unwrittenBuffers, hpc, List.nil_append]
  have hafter : s.swapBuffers.held = s.held ++ [s.newBuffer1] := by
    rw [hbefore]
    simp only [held, unwrittenBuffers, swapBuffers, hround.2, List.append_nil]
  have hspare := bytesOf_empty hs.empty1
  rw [queue, queue, hafter, pagesOf_append]
  show Move _ [] ⟨s.output.written, pagesOf s.heap s.held ++ [bytesOf s.heap s.newBuffer1]⟩
  rw [hspare]
  exact .add _ _

theorem trimPending_moves (hpc : s.pc = .trim) (hsome : s.buffersToWrite ≠ []) :
    Move s.queue [] s.trimPending.queue := by
  have hkept : s.trimPending.held.Sublist s.held := by
    simp only [trimPending, if_neg hsome, held, unwrittenBuffers, hpc, List.drop_zero]
    split_ifs
    · exact ((List.take_sublist 2 s.buffersToWrite).append (.refl _)).append (.refl _)
    · exact .refl _
  have hoff : s.trimPending.output = s.output ∧ s.trimPending.heap = s.heap := by
    rw [trimPending, if_neg hsome]
    exact ⟨rfl, rfl⟩
  rw [queue, queue, hoff.1, hoff.2]
  exact .drop _ (hkept.map _)

/-- A turn of the loop takes one page, the last one none. -/
theorem writeNext_moves {i : Nat} (hs : s.Inv) (hpc : s.pc = .write i) :
    Moves s.queue [] (s.writeNext i).queue := by
  have hheld : s.held = s.buffersToWrite.drop i ++ s.buffers ++ [s.currentBuffer] := by
    simp only [held, unwrittenBuffers, hpc]
  cases hat : s.buffersToWrite[i]? with
  | none =>
      have hend : s.buffersToWrite.drop i = [] := List.drop_eq_nil_of_le (List.getElem?_eq_none_iff.mp hat)
      have hsame : (s.writeNext i).queue = s.queue := by
        rw [queue, queue, hheld, hend]
        simp only [writeNext, hat, held, unwrittenBuffers]
      rw [hsame]
      exact .refl _
  | some p =>
      cases p with
      | none => exact absurd (List.mem_of_getElem? hat) hs.pending
      | some id =>
          have hdrop : s.buffersToWrite.drop i = some id :: s.buffersToWrite.drop (i + 1) := by
            obtain ⟨hlt, heq⟩ := List.getElem?_eq_some_iff.mp hat
            rw [List.drop_eq_getElem_cons hlt, heq]
          have hnext : (s.writeNext i).queue = ⟨s.output.written ++ (s.heap id).data, pagesOf s.heap
              (s.buffersToWrite.drop (i + 1) ++ s.buffers ++ [s.currentBuffer])⟩ := by
            simp only [queue, writeNext, hat, LogFile.written_append, held, unwrittenBuffers]
          rw [hnext, queue, hheld, hdrop]
          exact (Move.take _ _ _).moves

theorem resizeWritten_queue (hpc : s.pc = .resize) : s.resizeWritten.queue = s.queue := by
  simp only [queue, resizeWritten, held, unwrittenBuffers, hpc]

/-- A buffer that is reset for the next round is not held. -/
theorem queue_refill (hs : s.Inv) {kept : BufferVector} (hkept : s.buffersToWrite = kept ++ [some id])
    (hnone : s.unwrittenBuffers = []) :
    pagesOf (Function.update s.heap id .new) (s.buffers ++ [s.currentBuffer]) = pagesOf s.heap s.held := by
  have hlast : some id ∈ s.buffersToWrite := by simp [hkept]
  obtain ⟨hcurrent, hbuffers⟩ := hs.written_apart hlast
  have hheld : some id ∉ s.buffers ++ [s.currentBuffer] := by
    rw [List.mem_append, List.mem_singleton, not_or]
    exact ⟨hbuffers, Ne.symm hcurrent⟩
  rw [pagesOf_update hheld, held, hnone, List.nil_append]

theorem refillFirst_queue (hs : s.Inv) (hpc : s.pc = .refill1)
    (hround : s.missing ≤ s.buffersToWrite.length) : s.refillFirst.queue = s.queue := by
  have hnone : s.unwrittenBuffers = [] := by simp only [unwrittenBuffers, hpc]
  obtain ⟨-, id, kept, hkept, hrefill⟩ | ⟨-, hrefill⟩ := refillFirst_cases hs hround
  · rw [hrefill, queue, queue, ← queue_refill hs hkept hnone]
    rfl
  · rw [hrefill]
    simp only [queue, held, unwrittenBuffers, hpc]

theorem refillSecond_queue (hs : s.Inv) (hpc : s.pc = .refill2)
    (hround : s.missing ≤ s.buffersToWrite.length) : s.refillSecond.queue = s.queue := by
  have hnone : s.unwrittenBuffers = [] := by simp only [unwrittenBuffers, hpc]
  obtain ⟨-, id, kept, hkept, hrefill⟩ | ⟨-, hrefill⟩ := refillSecond_cases hs hround
  · rw [hrefill, queue, queue, ← queue_refill hs hkept hnone]
    rfl
  · rw [hrefill]
    simp only [queue, held, unwrittenBuffers, hpc]

theorem clearRound_queue (hpc : s.pc = .clear) : s.clearRound.queue = s.queue := by
  simp only [queue, clearRound, LogFile.written_flush, held, unwrittenBuffers, hpc]

/-- The writer moves pages, however many are pending. -/
theorem writerStep_moves (hs : s.Inv) (hstep : s.writerStep = some t) : Moves s.queue [] t.queue := by
  have hsame : t.queue = s.queue → Moves s.queue [] t.queue := fun h => h ▸ .refl _
  have hround := hs.round
  unfold writerStep at hstep
  cases hpc : s.pc <;> simp only [hpc, Round, Option.some.injEq] at hstep hround
  case begin => exact hsame (hstep ▸ makeLocals_queue hs hpc hround)
  case test => exact hsame (hstep ▸ testRunning_queue hs hpc hround)
  case lock =>
      unfold lockRound at hstep
      split_ifs at hstep
      · refine hsame (hstep ▸ ?_)
        simp only [queue, held, unwrittenBuffers, hpc]
      · exact hstep ▸ (swapBuffers_moves hs (Or.inl hpc) hround).moves
  case wait => exact hstep ▸ (swapBuffers_moves hs (Or.inr hpc) hround).moves
  case trim => exact hstep ▸ (trimPending_moves hpc hround.2).moves
  case write i => exact hstep ▸ writeNext_moves hs hpc
  case resize => exact hsame (hstep ▸ resizeWritten_queue hpc)
  case refill1 => exact hsame (hstep ▸ refillFirst_queue hs hpc hround)
  case refill2 => exact hsame (hstep ▸ refillSecond_queue hs hpc hround.1)
  case clear => exact hsame (hstep ▸ clearRound_queue hpc)
  case exit =>
      refine hsame (hstep ▸ ?_)
      simp only [queue, LogFile.written_flush, held, unwrittenBuffers, hpc]
  case done => cases hstep

/-- The line of a step, if it appends one. -/
def lineOf : LogStep → List Bytes
  | .append line => [line.data]
  | _ => []

theorem step_moves {a : LogStep} (hs : s.Inv) (hstep : s.step a = some t) :
    Moves s.queue (lineOf a) t.queue := by
  obtain ⟨-, ⟨line, rfl, rfl⟩ | ⟨rfl, hwriter⟩ | ⟨rfl, -, rfl⟩ | ⟨rfl, -, -, rfl⟩⟩ := step_cases hstep
  · exact append_moves hs line
  · exact writerStep_moves hs hwriter
  · exact .refl _
  · exact .refl _

theorem run_moves {ok : AsyncLogging → LogStep → Prop} {as : List LogStep} (hrun : Run step ok s as t)
    (hs : s.Inv) : Moves s.queue (as.flatMap lineOf) t.queue := by
  induction hrun with
  | nil s => exact .refl _
  | cons _ hstep _ ih =>
      rw [List.flatMap_cons]
      exact (step_moves hs hstep).trans (ih (step_inv hs hstep))

/-- **No record is torn**, where the writes to the file succeed. Whatever the lengths of the lines and however
many buffers are dropped, the file holds whole lines, each at most once and in the order in which they were
appended. -/
theorem run_lines {as : List LogStep} (hrun : Run step (fun _ _ => True) started as t) :
    ∃ lines : List Bytes, lines.Sublist (as.flatMap lineOf) ∧ t.output.written = lines.flatten := by
  have hwhole : Whole ([] ++ as.flatMap lineOf) t.queue := (run_moves hrun started_inv).whole whole_new
  exact hwhole.taken_eq

/-- One of two lines is written. -/
theorem run_lines_round :
    ∃ (t : AsyncLogging) (lines : List Bytes), t.output.written = [120] ∧ lines.Sublist [[120], [120]] ∧
      t.output.written = lines.flatten := by
  have hexec : ∃ t, exec (checked step Untrimmed) started
      ([.append oneByte] ++ List.replicate 6 .writer ++ [.append oneByte]) = some t ∧
        t.output.written = [120] := ⟨_, rfl, rfl⟩
  obtain ⟨t, ht, hwritten⟩ := hexec
  obtain ⟨lines, hsub, hlines⟩ := run_lines ((run_of_exec_checked ht).mono fun _ _ _ => trivial)
  exact ⟨t, lines, hwritten, hsub, hlines⟩

end AsyncLogging

end WebServer
