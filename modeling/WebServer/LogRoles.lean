import WebServer.LogAsync

/-! The six roles of a buffer of `AsyncLogging`: current, next, queued, to be written, and the two
spares of the writer. No buffer has two of them, and there are always enough buffers for the roles that
must not be empty. -/

namespace WebServer

open Runs

namespace AsyncLogging

/-- The pointers that hold a buffer in some role. -/
def roles (s : AsyncLogging) : List BufferPtr :=
  s.currentBuffer :: s.nextBuffer :: s.newBuffer1 :: s.newBuffer2 :: (s.buffers ++ s.buffersToWrite)

/-- The spares the writer lacks. -/
def missing (s : AsyncLogging) : Nat := s.newBuffer1.isNone.toNat + s.newBuffer2.isNone.toNat

/-- A pointer to no buffer or to an empty one. -/
def Empty (s : AsyncLogging) (p : BufferPtr) : Prop := ∀ id, p = some id → (s.heap id).data = []

/-- What the writer relies on at each point of a round. -/
def Round (s : AsyncLogging) : WriterPc → Prop
  | .begin => s.output = .new
  | .test | .lock | .wait => s.missing = 0 ∧ s.buffersToWrite = []
  | .trim => s.missing ≤ s.buffersToWrite.length ∧ s.buffersToWrite ≠ []
  | .write _ | .resize | .refill1 => s.missing ≤ s.buffersToWrite.length
  | .refill2 => s.missing ≤ s.buffersToWrite.length ∧ s.newBuffer1 ≠ none
  | .clear | .exit | .done => s.missing = 0

structure Inv (s : AsyncLogging) : Prop where
  noViolation : s.violation = none
  current : s.currentBuffer ≠ none
  next : s.nextBuffer = none → s.buffers ≠ []
  queued : none ∉ s.buffers
  pending : none ∉ s.buffersToWrite
  emptyNext : s.Empty s.nextBuffer
  empty1 : s.Empty s.newBuffer1
  empty2 : s.Empty s.newBuffer2
  distinct : ∀ id, s.roles.count (some id) ≤ if id < s.made then 1 else 0
  round : s.Round s.pc

theorem started_inv : started.Inv where
  noViolation := rfl
  current := by simp [started]
  next := by simp [started]
  queued := by simp [started]
  pending := by simp [started]
  emptyNext := fun _ _ => rfl
  empty1 := fun _ _ => rfl
  empty2 := fun _ _ => rfl
  distinct := by
    intro id
    simp only [roles, started, List.count_cons, List.count_nil, List.append_nil]
    by_cases h0 : id = 0
    · subst h0; simp
    · by_cases h1 : id = 1
      · subst h1; simp
      · simp [Ne.symm h0, Ne.symm h1]
  round := rfl

variable {s : AsyncLogging}

theorem heap_setBuffer (s : AsyncLogging) (id : Nat) (b : Buffer) (id' : Nat) :
    (s.setBuffer id b).heap id' = if id' = id then b else s.heap id' :=
  Function.update_apply _ _ _ _

/-- A pointer other than that of the buffer that is set keeps its contents. -/
theorem Empty.setBuffer {p : BufferPtr} {id : Nat} {b : Buffer} (h : s.Empty p)
    (hid : p ≠ some id ∨ b.data = []) : (s.setBuffer id b).Empty p := by
  intro id' hp
  rw [heap_setBuffer]
  split_ifs with heq
  · rcases hid with hid | hid
    · exact absurd (heq ▸ hp) hid
    · exact hid
  · exact h id' hp

theorem Inv.ne_current (hs : s.Inv) {id : Nat} (hcurrent : s.currentBuffer = some id) :
    s.nextBuffer ≠ some id ∧ s.newBuffer1 ≠ some id ∧ s.newBuffer2 ≠ some id ∧
      some id ∉ s.buffers ∧ some id ∉ s.buffersToWrite := by
  have hcount := hs.distinct id
  simp only [roles, hcurrent, List.count_cons, List.count_append, beq_self_eq_true, if_true,
    beq_iff_eq] at hcount
  refine ⟨?_, ?_, ?_, ?_, ?_⟩
  · intro h
    simp only [h, if_true] at hcount
    split_ifs at hcount <;> omega
  · intro h
    simp only [h, if_true] at hcount
    split_ifs at hcount <;> omega
  · intro h
    simp only [h, if_true] at hcount
    split_ifs at hcount <;> omega
  · intro h
    have := List.count_pos_iff.mpr h
    split_ifs at hcount <;> omega
  · intro h
    have := List.count_pos_iff.mpr h
    split_ifs at hcount <;> omega

theorem appendCurrent_inv (hs : s.Inv) (line : LogLine) : (s.appendCurrent line).Inv := by
  cases hcurrent : s.currentBuffer with
  | none => exact absurd hcurrent hs.current
  | some id =>
      obtain ⟨hnext, h1, h2, -, -⟩ := hs.ne_current hcurrent
      rw [appendCurrent, hcurrent]
      exact {
        noViolation := hs.noViolation
        current := hs.current
        next := hs.next
        queued := hs.queued
        pending := hs.pending
        emptyNext := hs.emptyNext.setBuffer (Or.inl hnext)
        empty1 := hs.empty1.setBuffer (Or.inl h1)
        empty2 := hs.empty2.setBuffer (Or.inl h2)
        distinct := hs.distinct
        round := hs.round }

theorem replaceCurrent_inv (hs : s.Inv) : s.replaceCurrent.Inv := by
  have hqueue : none ∉ s.buffers ++ [s.currentBuffer] := by
    simp [hs.queued, Ne.symm hs.current]
  cases hnext : s.nextBuffer with
  | some id =>
      simp only [replaceCurrent, hnext]
      exact {
        noViolation := hs.noViolation
        current := by simp
        next := by simp
        queued := hqueue
        pending := hs.pending
        emptyNext := fun _ h => nomatch h
        empty1 := hs.empty1
        empty2 := hs.empty2
        distinct := by
          intro id'
          have hcount := hs.distinct id'
          simp only [roles, hnext, List.count_cons, List.count_append, List.count_nil] at hcount ⊢
          simp at hcount ⊢
          omega
        round := hs.round }
  | none =>
      simp only [replaceCurrent, hnext]
      exact {
        noViolation := hs.noViolation
        current := by simp
        next := by simp [setBuffer]
        queued := hqueue
        pending := hs.pending
        emptyNext := by simp [Empty, setBuffer]
        empty1 := hs.empty1.setBuffer (Or.inr rfl)
        empty2 := hs.empty2.setBuffer (Or.inr rfl)
        distinct := by
          intro id'
          have hcount := hs.distinct id'
          simp only [roles, hnext, List.count_cons, List.count_append, List.count_nil, setBuffer]
            at hcount ⊢
          grind
        round := hs.round }

theorem append_cases (hs : s.Inv) (line : LogLine) :
    s.append line = s.appendCurrent line ∨ s.append line = s.replaceCurrent.appendCurrent line := by
  cases hcurrent : s.currentBuffer with
  | none => exact absurd hcurrent hs.current
  | some id =>
      simp only [append, hcurrent]
      split_ifs
      · exact Or.inl rfl
      · exact Or.inr rfl

theorem append_inv (hs : s.Inv) (line : LogLine) : (s.append line).Inv := by
  rcases append_cases hs line with happend | happend
  · exact happend ▸ appendCurrent_inv hs line
  · exact happend ▸ appendCurrent_inv (replaceCurrent_inv hs) line

theorem makeLocals_inv (hs : s.Inv) : s.makeLocals.Inv where
  noViolation := hs.noViolation
  current := hs.current
  next := hs.next
  queued := hs.queued
  pending := by simp [makeLocals]
  emptyNext := (hs.emptyNext.setBuffer (Or.inr rfl)).setBuffer (Or.inr rfl)
  empty1 := by
    intro id h
    cases h
    simp [makeLocals, heap_setBuffer, FixedBuffer.new]
  empty2 := by
    intro id h
    cases h
    simp [makeLocals, heap_setBuffer, FixedBuffer.new]
  distinct := by
    intro id'
    have hcount := hs.distinct id'
    simp only [roles, makeLocals, List.count_cons, List.count_append, List.count_nil, setBuffer]
      at hcount ⊢
    grind
  round := by simp [Round, makeLocals, missing]

theorem missing_eq_zero : s.missing = 0 ↔ s.newBuffer1 ≠ none ∧ s.newBuffer2 ≠ none := by
  rw [missing, Nat.add_eq_zero_iff, Bool.toNat_eq_zero, Bool.toNat_eq_zero]
  simp [Option.isSome_iff_ne_none]

theorem isSpare_of_empty {p : BufferPtr} (hp : p ≠ none) (hempty : s.Empty p) : s.isSpare p = true := by
  cases p with
  | none => exact absurd rfl hp
  | some id => simp [isSpare, FixedBuffer.getLength, hempty id rfl]

/-- The assertions at the head of a round hold. -/
theorem testRunning_eq (hs : s.Inv) (hround : s.missing = 0 ∧ s.buffersToWrite = []) :
    s.testRunning = if s.running then { s with pc := .lock } else { s with pc := .exit } := by
  obtain ⟨h1, h2⟩ := missing_eq_zero.mp hround.1
  have hspares := And.intro (isSpare_of_empty h1 hs.empty1)
    (And.intro (isSpare_of_empty h2 hs.empty2) hround.2)
  simp only [testRunning, if_pos hspares]

theorem testRunning_inv (hs : s.Inv) (hround : s.missing = 0 ∧ s.buffersToWrite = []) :
    s.testRunning.Inv := by
  rw [testRunning_eq hs hround]
  obtain ⟨hviolation, hcurrent, hnext, hqueued, hpending, hemptyNext, hempty1, hempty2, hdistinct, -⟩ := hs
  split_ifs
  · exact ⟨hviolation, hcurrent, hnext, hqueued, hpending, hemptyNext, hempty1, hempty2, hdistinct, hround⟩
  · exact ⟨hviolation, hcurrent, hnext, hqueued, hpending, hemptyNext, hempty1, hempty2, hdistinct,
      hround.1⟩

theorem swapBuffers_inv (hs : s.Inv) (hround : s.missing = 0 ∧ s.buffersToWrite = []) :
    s.swapBuffers.Inv := by
  obtain ⟨h1, h2⟩ := missing_eq_zero.mp hround.1
  have hpending : none ∉ s.buffers ++ [s.currentBuffer] := by
    simp [hs.queued, Ne.symm hs.current]
  by_cases hnext : s.nextBuffer = none
  · have hqueue : 0 < s.buffers.length := List.length_pos_iff.mpr (hs.next hnext)
    simp only [swapBuffers, if_pos hnext]
    exact {
      noViolation := hs.noViolation
      current := h1
      next := fun h => absurd h h2
      queued := by simp [hround.2]
      pending := hpending
      emptyNext := hs.empty2
      empty1 := fun _ h => nomatch h
      empty2 := fun _ h => nomatch h
      distinct := by
        intro id
        have hcount := hs.distinct id
        simp only [roles, hnext, List.count_cons, List.count_append, List.count_nil] at hcount ⊢
        grind
      round := by
        refine ⟨?_, by simp⟩
        simp only [missing, Option.isNone_none, Bool.toNat_true, List.length_append,
          List.length_singleton]
        omega }
  · simp only [swapBuffers, if_neg hnext]
    exact {
      noViolation := hs.noViolation
      current := h1
      next := fun h => absurd h hnext
      queued := by simp [hround.2]
      pending := hpending
      emptyNext := hs.emptyNext
      empty1 := fun _ h => nomatch h
      empty2 := hs.empty2
      distinct := by
        intro id
        have hcount := hs.distinct id
        simp only [roles, List.count_cons, List.count_append, List.count_nil] at hcount ⊢
        grind
      round := by
        refine ⟨?_, by simp⟩
        have hspare : s.newBuffer2.isNone.toNat = 0 := by simp [Option.isSome_iff_ne_none, h2]
        simp only [missing, Option.isNone_none, Bool.toNat_true, hspare, List.length_append,
          List.length_singleton]
        omega }

theorem lockRound_inv (hs : s.Inv) (hround : s.missing = 0 ∧ s.buffersToWrite = []) :
    s.lockRound.Inv := by
  unfold lockRound
  split_ifs
  · exact { hs with round := hround }
  · exact swapBuffers_inv hs hround

/-- Two buffers are enough for the spares the writer lacks. -/
theorem missing_le_take (h : s.missing ≤ s.buffersToWrite.length) :
    s.missing ≤ (s.buffersToWrite.take 2).length := by
  have htwo : s.missing ≤ 2 := Nat.add_le_add (Bool.toNat_le _) (Bool.toNat_le _)
  rw [List.length_take]
  omega

/-- The writer's vector loses buffers. -/
theorem Inv.shrink (hs : s.Inv) {kept : BufferVector} (hkept : kept.Sublist s.buffersToWrite)
    {pc : WriterPc} (hround : { s with buffersToWrite := kept, pc := pc }.Round pc) :
    { s with buffersToWrite := kept, pc := pc }.Inv :=
  { hs with
    pending := fun h => hs.pending (hkept.subset h)
    distinct := by
      intro id
      have hcount := hs.distinct id
      have hle := hkept.count_le (some id)
      simp only [roles, List.count_cons, List.count_append] at hcount ⊢
      omega
    round := hround }

theorem trimPending_inv (hs : s.Inv) (hround : s.missing ≤ s.buffersToWrite.length)
    (hsome : s.buffersToWrite ≠ []) : s.trimPending.Inv := by
  rw [trimPending, if_neg hsome]
  split_ifs
  · exact hs.shrink (List.take_sublist 2 _) (missing_le_take hround)
  · exact hs.shrink (List.Sublist.refl _) hround

theorem writeNext_inv (hs : s.Inv) (hround : s.missing ≤ s.buffersToWrite.length) (i : Nat) :
    (s.writeNext i).Inv := by
  unfold writeNext
  split
  · exact { hs with round := hround }
  · rename_i hnull
    exact absurd (List.mem_of_getElem? hnull) hs.pending
  · exact { hs with round := hround }

theorem resizeWritten_inv (hs : s.Inv) (hround : s.missing ≤ s.buffersToWrite.length) :
    s.resizeWritten.Inv := by
  unfold resizeWritten
  split_ifs
  · exact hs.shrink (List.take_sublist 2 _) (missing_le_take hround)
  · exact hs.shrink (List.Sublist.refl _) hround

/-- The last buffer written is there to be refilled with. -/
theorem refill_eq (hs : s.Inv) (hround : s.missing ≤ s.buffersToWrite.length) (hmissing : 0 < s.missing)
    (set : AsyncLogging → BufferPtr → AsyncLogging) :
    ∃ id kept, s.buffersToWrite = kept ++ [some id] ∧
      s.refill set = set { s.setBuffer id .new with buffersToWrite := kept } (some id) := by
  have hsome : s.buffersToWrite ≠ [] := List.length_pos_iff.mp (hmissing.trans_le hround)
  obtain ⟨kept, p, hkept⟩ := List.eq_nil_or_concat s.buffersToWrite |>.resolve_left hsome
  cases p with
  | none => exact absurd (by simp [hkept]) hs.pending
  | some id =>
      refine ⟨id, kept, by simpa using hkept, ?_⟩
      simp [refill, hkept, FixedBuffer.reset]

theorem refillFirst_cases (hs : s.Inv) (hround : s.missing ≤ s.buffersToWrite.length) :
    (s.newBuffer1 = none ∧ ∃ id kept, s.buffersToWrite = kept ++ [some id] ∧ s.refillFirst =
      { s.setBuffer id .new with buffersToWrite := kept, newBuffer1 := some id, pc := .refill2 }) ∨
    (s.newBuffer1 ≠ none ∧ s.refillFirst = { s with pc := .refill2 }) := by
  unfold refillFirst
  split_ifs with hnull
  · have hmissing : 0 < s.missing := Nat.pos_of_ne_zero fun h => (missing_eq_zero.mp h).1 hnull
    exact Or.inl ⟨hnull, refill_eq hs hround hmissing _⟩
  · exact Or.inr ⟨hnull, rfl⟩

theorem refillSecond_cases (hs : s.Inv) (hround : s.missing ≤ s.buffersToWrite.length) :
    (s.newBuffer2 = none ∧ ∃ id kept, s.buffersToWrite = kept ++ [some id] ∧ s.refillSecond =
      { s.setBuffer id .new with buffersToWrite := kept, newBuffer2 := some id, pc := .clear }) ∨
    (s.newBuffer2 ≠ none ∧ s.refillSecond = { s with pc := .clear }) := by
  unfold refillSecond
  split_ifs with hnull
  · have hmissing : 0 < s.missing := Nat.pos_of_ne_zero fun h => (missing_eq_zero.mp h).2 hnull
    exact Or.inl ⟨hnull, refill_eq hs hround hmissing _⟩
  · exact Or.inr ⟨hnull, rfl⟩

theorem refillFirst_inv (hs : s.Inv) (hround : s.missing ≤ s.buffersToWrite.length) :
    s.refillFirst.Inv := by
  obtain ⟨hnull, id, kept, hkept, hrefill⟩ | ⟨hnull, hrefill⟩ := refillFirst_cases hs hround
  all_goals rw [hrefill]
  · exact {
      noViolation := hs.noViolation
      current := hs.current
      next := hs.next
      queued := hs.queued
      pending := fun h => hs.pending (by rw [hkept]; exact List.mem_append_left _ h)
      emptyNext := hs.emptyNext.setBuffer (Or.inr rfl)
      empty1 := by
        intro id' h
        cases h
        simp [heap_setBuffer, FixedBuffer.new]
      empty2 := hs.empty2.setBuffer (Or.inr rfl)
      distinct := by
        intro id'
        have hcount := hs.distinct id'
        simp only [roles, hnull, hkept, List.count_cons, List.count_append, List.count_nil, setBuffer]
          at hcount ⊢
        grind
      round := by
        refine ⟨?_, by simp⟩
        simp only [missing, hnull, Option.isNone_none, Bool.toNat_true, hkept, List.length_append,
          List.length_singleton] at hround
        simp only [missing, Option.isNone_some, Bool.toNat_false, setBuffer]
        omega }
  · exact { hs with round := ⟨hround, hnull⟩ }

theorem refillSecond_inv (hs : s.Inv) (hround : s.missing ≤ s.buffersToWrite.length)
    (hfirst : s.newBuffer1 ≠ none) : s.refillSecond.Inv := by
  obtain ⟨hnull, id, kept, hkept, hrefill⟩ | ⟨hnull, hrefill⟩ := refillSecond_cases hs hround
  all_goals rw [hrefill]
  · exact {
      noViolation := hs.noViolation
      current := hs.current
      next := hs.next
      queued := hs.queued
      pending := fun h => hs.pending (by rw [hkept]; exact List.mem_append_left _ h)
      emptyNext := hs.emptyNext.setBuffer (Or.inr rfl)
      empty1 := hs.empty1.setBuffer (Or.inr rfl)
      empty2 := by
        intro id' h
        cases h
        simp [heap_setBuffer, FixedBuffer.new]
      distinct := by
        intro id'
        have hcount := hs.distinct id'
        simp only [roles, hnull, hkept, List.count_cons, List.count_append, List.count_nil, setBuffer]
          at hcount ⊢
        grind
      round := missing_eq_zero.mpr ⟨hfirst, by simp⟩ }
  · exact { hs with round := missing_eq_zero.mpr ⟨hfirst, hnull⟩ }

theorem clearRound_inv (hs : s.Inv) (hround : s.missing = 0) : s.clearRound.Inv := by
  have hcleared : Inv { s with buffersToWrite := [], pc := .test } :=
    hs.shrink (List.nil_sublist _) ⟨hround, rfl⟩
  exact { hcleared with }

theorem writerStep_inv {s' : AsyncLogging} (hs : s.Inv) (hstep : s.writerStep = some s') : s'.Inv := by
  have hround := hs.round
  unfold writerStep at hstep
  cases hpc : s.pc <;> simp only [hpc, Round, Option.some.injEq] at hstep hround
  case begin => exact hstep ▸ makeLocals_inv hs
  case test => exact hstep ▸ testRunning_inv hs hround
  case lock => exact hstep ▸ lockRound_inv hs hround
  case wait => exact hstep ▸ swapBuffers_inv hs hround
  case trim => exact hstep ▸ trimPending_inv hs hround.1 hround.2
  case write i => exact hstep ▸ writeNext_inv hs hround i
  case resize => exact hstep ▸ resizeWritten_inv hs hround
  case refill1 => exact hstep ▸ refillFirst_inv hs hround
  case refill2 => exact hstep ▸ refillSecond_inv hs hround.1 hround.2
  case clear => exact hstep ▸ clearRound_inv hs hround
  case exit => exact hstep ▸ { hs with round := hround }
  case done => cases hstep

theorem step_inv {s' : AsyncLogging} {a : LogStep} (hs : s.Inv) (hstep : s.step a = some s') :
    s'.Inv := by
  obtain ⟨-, ⟨line, rfl, rfl⟩ | ⟨rfl, hwriter⟩ | ⟨rfl, -, rfl⟩ | ⟨rfl, -, -, rfl⟩⟩ := step_cases hstep
  · exact append_inv hs line
  · exact writerStep_inv hs hwriter
  · exact { hs with }
  · exact { hs with }

theorem run_inv {ok : AsyncLogging → LogStep → Prop} {t : AsyncLogging} {as : List LogStep}
    (hrun : Run step ok started as t) : t.Inv :=
  hrun.invariant (fun _ _ _ _ hstep hs => step_inv hs hstep) started_inv

/-- What holds of the buffers in every state between two steps. -/
structure DoubleBuffered (s : AsyncLogging) : Prop where
  noViolation : s.violation = none
  current : s.currentBuffer ≠ none
  next : s.nextBuffer = none → s.buffers ≠ []
  spares : s.pc = .test → s.isSpare s.newBuffer1 ∧ s.isSpare s.newBuffer2
  refills : s.pc ≠ .begin → s.missing ≤ s.buffersToWrite.length
  distinct : ∀ id, s.roles.count (some id) ≤ 1

theorem Inv.doubleBuffered (hs : s.Inv) : s.DoubleBuffered where
  noViolation := hs.noViolation
  current := hs.current
  next := hs.next
  spares := by
    intro hpc
    have hround := hs.round
    rw [hpc] at hround
    obtain ⟨h1, h2⟩ := missing_eq_zero.mp hround.1
    exact ⟨isSpare_of_empty h1 hs.empty1, isSpare_of_empty h2 hs.empty2⟩
  refills := by
    intro hpc
    have hround := hs.round
    cases hat : s.pc <;> simp only [hat, Round] at hround <;> first | contradiction | omega
  distinct := fun id => (hs.distinct id).trans (by split_ifs <;> omega)

/-- **The double-buffer invariant**, with lines of any length and rounds that drop buffers. -/
theorem run_doubleBuffered {t : AsyncLogging} {as : List LogStep}
    (hrun : Run step (fun _ _ => True) started as t) : t.DoubleBuffered :=
  (run_inv hrun).doubleBuffered

/-- A line of one byte. -/
def oneByte : LogLine := ⟨[120], by decide⟩

/-- A whole round, with a line appended during the wait. -/
theorem run_doubleBuffered_round :
    ∃ t : AsyncLogging, t.DoubleBuffered ∧ t.pc = .test ∧ t.output.file = [120, 120] := by
  have hexec : ∃ t, exec (checked step fun _ _ => True) started
      ([.append oneByte] ++ List.replicate 3 .writer ++ [.append oneByte] ++ List.replicate 8 .writer) =
        some t ∧ t.pc = .test ∧ t.output.file = [120, 120] := ⟨_, rfl, rfl, rfl⟩
  obtain ⟨t, ht, hpc, hfile⟩ := hexec
  exact ⟨t, run_doubleBuffered (run_of_exec_checked ht), hpc, hfile⟩

end AsyncLogging

end WebServer
