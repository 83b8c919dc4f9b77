import WebServer.RunsFifo
import WebServer.LogBuffer

/-! `AsyncLogging`: the threads that append and the thread that writes, as one machine. Buffers are
named by numbers, in the order in which they are made, and a `BufferPtr` may be null. `append` and the
two locked sections of a round, before and after the wait, are single steps; between them the writer
works on its own locals. A timed wait may end at any time, so `notify` is not modelled. A failed
assertion and a null pointer that is followed stop the machine. -/

namespace WebServer

open Runs

abbrev Buffer := FixedBuffer kLargeBuffer

abbrev BufferPtr := Option Nat

abbrev BufferVector := List BufferPtr

inductive Violation where
  | assertion
  | nullBuffer
  deriving DecidableEq

/-- Where the writer is in `threadFunc`. -/
inductive WriterPc where
  /-- Before its locals are made. -/
  | begin
  /-- At the test of `m_running`. -/
  | test
  /-- At the lock of the round. -/
  | lock
  /-- In `waitForSeconds`. -/
  | wait
  /-- Behind the locked section. -/
  | trim
  /-- In the loop that writes, at this index. -/
  | write (i : Nat)
  | resize
  | refill1
  | refill2
  | clear
  /-- Behind the loop. -/
  | exit
  | done
  deriving DecidableEq

inductive StopPc where
  | notCalled
  /-- In `m_thread.join()`. -/
  | called
  | returned
  deriving DecidableEq

/-- `AsyncLogging` and the locals of `threadFunc`. -/
structure AsyncLogging where
  /-- The buffers made so far are those below `made`. -/
  heap : Nat → Buffer
  made : Nat
  running : Bool
  currentBuffer : BufferPtr
  nextBuffer : BufferPtr
  buffers : BufferVector
  newBuffer1 : BufferPtr
  newBuffer2 : BufferPtr
  buffersToWrite : BufferVector
  output : LogFile
  pc : WriterPc
  stopPc : StopPc
  violation : Option Violation

namespace AsyncLogging

/-- After `start` has returned. -/
def started : AsyncLogging where
  heap := fun _ => .new
  made := 2
  running := true
  currentBuffer := some 0
  nextBuffer := some 1
  buffers := []
  newBuffer1 := none
  newBuffer2 := none
  buffersToWrite := []
  output := .new
  pc := .begin
  stopPc := .notCalled
  violation := none

def fail (s : AsyncLogging) (v : Violation) : AsyncLogging := { s with violation := some v }

def setBuffer (s : AsyncLogging) (id : Nat) (b : Buffer) : AsyncLogging :=
  { s with heap := Function.update s.heap id b }

/-- `m_currentBuffer->append(logline, len)`. -/
def appendCurrent (s : AsyncLogging) (line : LogLine) : AsyncLogging :=
  match s.currentBuffer with
  | none => s.fail .nullBuffer
  | some id => s.setBuffer id ((s.heap id).append line)

/-- The current buffer is full: it is queued, and the next one or a new one takes its place. -/
def replaceCurrent (s : AsyncLogging) : AsyncLogging :=
  let s := { s with buffers := s.buffers ++ [s.currentBuffer], currentBuffer := none }
  match s.nextBuffer with
  | some id => { s with currentBuffer := some id, nextBuffer := none }
  | none => { s.setBuffer s.made .new with currentBuffer := some s.made, made := s.made + 1 }

/-- `AsyncLogging::append`. -/
def append (s : AsyncLogging) (line : LogLine) : AsyncLogging :=
  match s.currentBuffer with
  | none => s.fail .nullBuffer
  | some id =>
      if line.data.length < (s.heap id).avail then s.appendCurrent line
      else s.replaceCurrent.appendCurrent line

/-- `newBuffer && newBuffer->getLength() == 0`. -/
def isSpare (s : AsyncLogging) : BufferPtr → Bool
  | none => false
  | some id => (s.heap id).getLength == 0

/-- The locals before the loop. -/
def makeLocals (s : AsyncLogging) : AsyncLogging :=
  { (s.setBuffer s.made .new).setBuffer (s.made + 1) .new with
    made := s.made + 2
    newBuffer1 := some s.made
    newBuffer2 := some (s.made + 1)
    buffersToWrite := []
    output := .new
    pc := .test }

/-- The test of the loop, and the assertions at the head of its body. -/
def testRunning (s : AsyncLogging) : AsyncLogging :=
  if s.running then
    if s.isSpare s.newBuffer1 ∧ s.isSpare s.newBuffer2 ∧ s.buffersToWrite = [] then { s with pc := .lock }
    else s.fail .assertion
  else { s with pc := .exit }

/-- The locked section behind the wait. -/
def swapBuffers (s : AsyncLogging) : AsyncLogging :=
  let queue := s.buffers ++ [s.currentBuffer]
  { s with
    currentBuffer := s.newBuffer1
    newBuffer1 := none
    buffers := s.buffersToWrite
    buffersToWrite := queue
    nextBuffer := if s.nextBuffer = none then s.newBuffer2 else s.nextBuffer
    newBuffer2 := if s.nextBuffer = none then none else s.newBuffer2
    pc := .trim }

/-- The locked section up to the wait. -/
def lockRound (s : AsyncLogging) : AsyncLogging :=
  if s.buffers = [] then { s with pc := .wait } else s.swapBuffers

/-- The assertion, and the cut to two buffers when more than 25 are pending. -/
def trimPending (s : AsyncLogging) : AsyncLogging :=
  if s.buffersToWrite = [] then s.fail .assertion
  else
    { s with
      buffersToWrite := if 25 < s.buffersToWrite.length then s.buffersToWrite.take 2 else s.buffersToWrite
      pc := .write 0 }

/-- One turn of the loop that writes. -/
def writeNext (s : AsyncLogging) (i : Nat) : AsyncLogging :=
  match s.buffersToWrite[i]? with
  | none => { s with pc := .resize }
  | some none => s.fail .nullBuffer
  | some (some id) => { s with output := s.output.append (s.heap id).data, pc := .write (i + 1) }

def resizeWritten (s : AsyncLogging) : AsyncLogging :=
  { s with
    buffersToWrite := if 2 < s.buffersToWrite.length then s.buffersToWrite.take 2 else s.buffersToWrite
    pc := .refill1 }

/-- The last buffer written, reset, and the vector without it. -/
def refill (s : AsyncLogging) (set : AsyncLogging → BufferPtr → AsyncLogging) : AsyncLogging :=
  match s.buffersToWrite.getLast? with
  | none => s.fail .assertion
  | some none => s.fail .nullBuffer
  | some (some id) =>
      set { s.setBuffer id (s.heap id).reset with buffersToWrite := s.buffersToWrite.dropLast } (some id)

def refillFirst (s : AsyncLogging) : AsyncLogging :=
  if s.newBuffer1 = none then s.refill fun s p => { s with newBuffer1 := p, pc := .refill2 }
  else { s with pc := .refill2 }

def refillSecond (s : AsyncLogging) : AsyncLogging :=
  if s.newBuffer2 = none then s.refill fun s p => { s with newBuffer2 := p, pc := .clear }
  else { s with pc := .clear }

/-- `buffersToWrite.clear()` and the flush at the end of a round. -/
def clearRound (s : AsyncLogging) : AsyncLogging :=
  { s with buffersToWrite := [], output := s.output.flush, pc := .test }

/-- The next step of the writer; `none` once it has ended. -/
def writerStep (s : AsyncLogging) : Option AsyncLogging :=
  match s.pc with
  | .begin => some s.makeLocals
  | .test => some s.testRunning
  | .lock => some s.lockRound
  | .wait => some s.swapBuffers
  | .trim => some s.trimPending
  | .write i => some (s.writeNext i)
  | .resize => some s.resizeWritten
  | .refill1 => some s.refillFirst
  | .refill2 => some s.refillSecond
  | .clear => some s.clearRound
  | .exit => some { s with output := s.output.flush, pc := .done }
  | .done => none

end AsyncLogging

inductive LogStep where
  | append (line : LogLine)
  | writer
  /-- The call of `stop`, with its store to `m_running`. -/
  | stop
  /-- The return of `stop`, when the thread has been joined. -/
  | stopReturns
  deriving DecidableEq

namespace AsyncLogging

def step (s : AsyncLogging) (a : LogStep) : Option AsyncLogging :=
  if s.violation = none then
    match a with
    | .append line => some (s.append line)
    | .writer => s.writerStep
    | .stop =>
        if s.stopPc = .notCalled then some { s with running := false, stopPc := .called } else none
    | .stopReturns =>
        if s.stopPc = .called ∧ s.pc = .done then some { s with stopPc := .returned } else none
  else none

/-- What a step can do. -/
theorem step_cases {s t : AsyncLogging} {a : LogStep} (hstep : s.step a = some t) :
    s.violation = none ∧ ((∃ line, a = .append line ∧ t = s.append line) ∨
      (a = .writer ∧ s.writerStep = some t) ∨
      (a = .stop ∧ s.stopPc = .notCalled ∧ t = { s with running := false, stopPc := .called }) ∨
      (a = .stopReturns ∧ s.stopPc = .called ∧ s.pc = .done ∧ t = { s with stopPc := .returned })) := by
  unfold step at hstep
  obtain ⟨hviolation, hstep⟩ := Option.ite_none_right_eq_some.mp hstep
  refine ⟨hviolation, ?_⟩
  cases a with
  | append line => exact Or.inl ⟨line, rfl, (Option.some.inj hstep).symm⟩
  | writer => exact Or.inr (Or.inl ⟨rfl, hstep⟩)
  | stop =>
      simp only [Option.ite_none_right_eq_some, Option.some.injEq] at hstep
      obtain ⟨hcalled, rfl⟩ := hstep
      exact Or.inr (Or.inr (Or.inl ⟨rfl, hcalled, rfl⟩))
  | stopReturns =>
      simp only [Option.ite_none_right_eq_some, Option.some.injEq] at hstep
      obtain ⟨⟨hcalled, hdone⟩, rfl⟩ := hstep
      exact Or.inr (Or.inr (Or.inr ⟨rfl, hcalled, hdone, rfl⟩))

end AsyncLogging

/-- The bytes a step appends to the log. -/
def LogStep.appended : LogStep → Bytes
  | .append line => line.data
  | _ => []

/-- Lines are shorter than a buffer, and no round has more than 25 buffers to write. -/
def Untrimmed (s : AsyncLogging) : LogStep → Prop
  | .append line => line.data.length < kLargeBuffer
  | .writer => s.pc = .trim → s.buffersToWrite.length ≤ 25
  | _ => True

instance (s : AsyncLogging) : ∀ a, Decidable (Untrimmed s a)
  | .append line => inferInstanceAs (Decidable (line.data.length < kLargeBuffer))
  | .writer => inferInstanceAs (Decidable (s.pc = .trim → s.buffersToWrite.length ≤ 25))
  | .stop => inferInstanceAs (Decidable True)
  | .stopReturns => inferInstanceAs (Decidable True)

end WebServer
