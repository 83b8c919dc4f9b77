import WebServer.UtilBytes

/-! The fixed buffers of the logging library, the lines appended to them, and the log file. A buffer is
the bytes before its cursor; what a buffer holds behind the cursor is never read. Writes to the file
succeed. -/

namespace WebServer

def kLargeBuffer : Nat := 4096000

/-- A line with the length it is passed with, which is an `int`. -/
structure LogLine where
  data : Bytes
  fits : data.length ≤ 2147483647
  deriving DecidableEq

structure FixedBuffer (size : Nat) where
  data : Bytes
  fits : data.length ≤ size
  deriving DecidableEq

namespace FixedBuffer

variable {size : Nat}

/-- A new buffer. -/
def new : FixedBuffer size := ⟨[], Nat.zero_le _⟩

def avail (b : FixedBuffer size) : Nat := size - b.data.length

def getLength (b : FixedBuffer size) : Nat := b.data.length

/-- `FixedBuffer::append`: a line that leaves no room behind it is dropped. -/
def append (b : FixedBuffer size) (line : LogLine) : FixedBuffer size :=
  if h : line.data.length < b.avail then
    ⟨b.data ++ line.data, by
      unfold avail at h
      rw [List.length_append]
      omega⟩
  else b

def reset (_ : FixedBuffer size) : FixedBuffer size := new

theorem append_data {b : FixedBuffer size} {line : LogLine} (h : line.data.length < b.avail) :
    (b.append line).data = b.data ++ line.data := by
  rw [append, dif_pos h]

theorem avail_of_empty {b : FixedBuffer size} (h : b.data = []) : b.avail = size := by
  rw [avail, h, List.length_nil, Nat.sub_zero]

end FixedBuffer

/-- `LogFile`, its stream split into the bytes still in the buffer of the stream and those before. -/
structure LogFile where
  count : Nat
  stream : Bytes
  file : Bytes
  deriving DecidableEq

namespace LogFile

def flushEveryN : Nat := 1024

def new : LogFile := ⟨0, [], []⟩

def flush (f : LogFile) : LogFile := { f with stream := [], file := f.file ++ f.stream }

/-- `LogFile::append`, whose write succeeds. -/
def append (f : LogFile) (data : Bytes) : LogFile :=
  let f := { f with stream := f.stream ++ data, count := f.count + 1 }
  if flushEveryN ≤ f.count then { f with count := 0 }.flush else f

/-- All bytes written so far. -/
def written (f : LogFile) : Bytes := f.file ++ f.stream

@[simp] theorem written_flush (f : LogFile) : f.flush.written = f.written := by
  simp [written, flush]

@[simp] theorem written_append (f : LogFile) (data : Bytes) :
    (f.append data).written = f.written ++ data := by
  unfold append
  simp only []
  split_ifs <;> simp [written, flush]

end LogFile

end WebServer
