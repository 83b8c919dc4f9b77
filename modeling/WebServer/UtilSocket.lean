import WebServer.UtilBytes

/-! `readn` and `writen` over a connected socket. The kernel's answers to the `read` and `write`
calls are two scripts, consumed call by call. A read script that has run out answers `EAGAIN`, a write
script that has run out accepts everything. -/

namespace WebServer

def MAX_BUFF : Nat := 4096

/-- What one successful `read` into the local buffer of `readn` returns. -/
structure Chunk where
  data : Bytes
  nonempty : data ≠ []
  fits : data.length ≤ MAX_BUFF
  deriving DecidableEq

inductive ReadOutcome where
  | data (chunk : Chunk)
  | eof
  | eintr
  | eagain
  | error
  deriving DecidableEq

inductive WriteOutcome where
  /-- The kernel takes this many bytes, or all that are offered if they are fewer. -/
  | accept (count : Nat)
  | eintr
  | eagain
  | error
  deriving DecidableEq

/-- One end of a connection: the scripts of the calls to come, and the bytes the kernel took. -/
structure Socket where
  reads : List ReadOutcome
  writes : List WriteOutcome
  sent : Bytes
  deriving DecidableEq

structure ReadResult where
  value : Int
  inBuffer : Bytes
  zero : Bool
  reads : List ReadOutcome
  deriving DecidableEq

/-- The loop of `readn(int, std::string&, bool&)`. -/
def readnLoop : List ReadOutcome → Bytes → Nat → ReadResult
  | [], inBuffer, readSum => ⟨readSum, inBuffer, false, []⟩
  | .data chunk :: reads, inBuffer, readSum =>
      readnLoop reads (inBuffer ++ chunk.data) (readSum + chunk.data.length)
  | .eof :: reads, inBuffer, readSum => ⟨readSum, inBuffer, true, reads⟩
  | .eintr :: reads, inBuffer, readSum => readnLoop reads inBuffer readSum
  | .eagain :: reads, inBuffer, readSum => ⟨readSum, inBuffer, false, reads⟩
  | .error :: reads, inBuffer, _ => ⟨-1, inBuffer, false, reads⟩

def readn (reads : List ReadOutcome) (inBuffer : Bytes) : ReadResult := readnLoop reads inBuffer 0

/-- How the loop of a `writen` ended, and what it left. -/
structure WriteLoop where
  failed : Bool
  accepted : Bytes
  left : Bytes
  writes : List WriteOutcome
  deriving DecidableEq

/-- The loop both `writen` share. They differ at a `write` that returns zero: the one over a string
leaves the loop, the one over a buffer calls `write` again. -/
def writenLoop (zeroBreaks : Bool) : List WriteOutcome → Bytes → Bytes → WriteLoop
  | writes, accepted, [] => ⟨false, accepted, [], writes⟩
  | [], accepted, left => ⟨false, accepted ++ left, [], []⟩
  | .accept count :: writes, accepted, left =>
      if count = 0 ∧ zeroBreaks then ⟨false, accepted, left, writes⟩
      else writenLoop zeroBreaks writes (accepted ++ left.take count) (left.drop count)
  | .eintr :: writes, accepted, left => writenLoop zeroBreaks writes accepted left
  | .eagain :: writes, accepted, left => ⟨false, accepted, left, writes⟩
  | .error :: writes, accepted, left => ⟨true, accepted, left, writes⟩

structure WriteResult where
  value : Int
  sbuff : Bytes
  sock : Socket
  deriving DecidableEq

/-- `writen(int, std::string&)`: on failure the string is left as it was. The number of bytes taken is
compared with the length of the string as an `int`. -/
def writenString (sock : Socket) (sbuff : Bytes) : WriteResult :=
  let loop := writenLoop true sock.writes [] sbuff
  let sock := { sock with writes := loop.writes, sent := sock.sent ++ loop.accepted }
  if loop.failed then ⟨-1, sbuff, sock⟩
  else
    ⟨loop.accepted.length,
      if (loop.accepted.length : Int) = toInt sbuff.length then [] else sbuff.drop loop.accepted.length,
      sock⟩

/-- `writen(int, void*, size_t)`; no caller of the connection code looks at what it returns. -/
def writenBuff (sock : Socket) (buff : Bytes) : Socket :=
  let loop := writenLoop false sock.writes [] buff
  { sock with writes := loop.writes, sent := sock.sent ++ loop.accepted }

namespace ReadOutcome

/-- The loops call `read` again. -/
def goesOn : ReadOutcome → Bool
  | data _ | eintr => true
  | eof | eagain | error => false

def bytes : ReadOutcome → Bytes
  | data chunk => chunk.data
  | eof | eintr | eagain | error => []

end ReadOutcome

/-- A loop that appends each chunk and passes over each `EINTR` comes to the end of the script with all
bytes in front of it. -/
theorem readLoop_between {ρ : Type} (loop : List ReadOutcome → Bytes → Nat → ρ)
    (hdata : ∀ chunk reads inBuffer readSum, loop (.data chunk :: reads) inBuffer readSum =
      loop reads (inBuffer ++ chunk.data) (readSum + chunk.data.length))
    (heintr : ∀ reads inBuffer readSum, loop (.eintr :: reads) inBuffer readSum =
      loop reads inBuffer readSum)
    (rest : List ReadOutcome) : ∀ (between : List ReadOutcome), (∀ r ∈ between, r.goesOn) →
      ∀ (inBuffer : Bytes) (readSum : Nat), loop (between ++ rest) inBuffer readSum =
        loop rest (inBuffer ++ between.flatMap ReadOutcome.bytes)
          (readSum + (between.flatMap ReadOutcome.bytes).length) := by
  intro between
  induction between with
  | nil =>
      intro _ inBuffer readSum
      simp
  | cons r between ih =>
      intro hgoesOn inBuffer readSum
      obtain ⟨hr, hbetween⟩ := List.forall_mem_cons.mp hgoesOn
      cases r with
      | data chunk =>
          rw [List.cons_append, hdata, ih hbetween, List.flatMap_cons, ReadOutcome.bytes,
            List.length_append, List.append_assoc, Nat.add_assoc]
      | eintr =>
          rw [List.cons_append, heintr, ih hbetween, List.flatMap_cons, ReadOutcome.bytes, List.nil_append]
      | eof | eagain | error => cases hr

theorem readn_between {between : List ReadOutcome} (hgoesOn : ∀ r ∈ between, r.goesOn)
    (rest : List ReadOutcome) (inBuffer : Bytes) :
    readn (between ++ rest) inBuffer = readnLoop rest (inBuffer ++ between.flatMap ReadOutcome.bytes)
      (between.flatMap ReadOutcome.bytes).length := by
  rw [readn, readLoop_between readnLoop (fun _ _ _ _ => by rw [readnLoop]) (fun _ _ _ => by rw [readnLoop])
    rest between hgoesOn, Nat.zero_add]

/-- The chunks in which `readn` reads a string that is there in full. -/
def pieces : Nat → Bytes → List Chunk
  | fuel + 1, b :: s =>
      ⟨(b :: s).take MAX_BUFF, by simp [MAX_BUFF], List.length_take_le _ _⟩
        :: pieces fuel ((b :: s).drop MAX_BUFF)
  | _, _ => []

/-- The read script that delivers `s` and then answers `EAGAIN`. -/
def deliver (s : Bytes) : List ReadOutcome := (pieces s.length s).map .data ++ [.eagain]

theorem pieces_flatten : ∀ (fuel : Nat) (s : Bytes), s.length ≤ fuel →
    (pieces fuel s).flatMap Chunk.data = s
  | 0, s, h => by
      rw [List.length_eq_zero_iff.mp (Nat.le_zero.mp h)]
      rfl
  | fuel + 1, [], _ => rfl
  | fuel + 1, b :: s, h => by
      have hrest : ((b :: s).drop MAX_BUFF).length ≤ fuel := by
        simp only [List.length_drop, List.length_cons, MAX_BUFF] at h ⊢
        omega
      rw [pieces, List.flatMap_cons, pieces_flatten fuel _ hrest, List.take_append_drop]

theorem readn_deliver (s inBuffer : Bytes) :
    readn (deliver s) inBuffer = ⟨s.length, inBuffer ++ s, false, []⟩ := by
  have hgoesOn : ∀ r ∈ (pieces s.length s).map ReadOutcome.data, r.goesOn := by
    intro r hr
    obtain ⟨chunk, -, rfl⟩ := List.mem_map.mp hr
    rfl
  have hbytes : ((pieces s.length s).map ReadOutcome.data).flatMap ReadOutcome.bytes = s := by
    rw [List.flatMap_map]
    exact pieces_flatten s.length s le_rfl
  rw [deliver, readn_between hgoesOn, hbytes, readnLoop]

/-- The bytes taken and the bytes left are the bytes offered. -/
theorem writenLoop_split (zeroBreaks : Bool) : ∀ (writes : List WriteOutcome) (accepted left : Bytes),
    (writenLoop zeroBreaks writes accepted left).accepted ++
      (writenLoop zeroBreaks writes accepted left).left = accepted ++ left := by
  intro writes
  induction writes with
  | nil =>
      intro accepted left
      cases left <;> simp [writenLoop]
  | cons w writes ih =>
      intro accepted left
      cases left with
      | nil => simp [writenLoop]
      | cons b left =>
          cases w with
          | accept count =>
              rw [writenLoop]
              · split
                · rfl
                · rw [ih, List.append_assoc, List.take_append_drop]
              · simp
          | eintr =>
              rw [writenLoop, ih]
              simp
          | eagain => simp [writenLoop]
          | error => simp [writenLoop]

@[simp] theorem writenLoop_nil (zeroBreaks : Bool) (writes : List WriteOutcome) (accepted : Bytes) :
    writenLoop zeroBreaks writes accepted [] = ⟨false, accepted, [], writes⟩ := by
  cases writes <;> rfl

@[simp] theorem writenLoop_exhausted (zeroBreaks : Bool) (accepted left : Bytes) :
    writenLoop zeroBreaks [] accepted left = ⟨false, accepted ++ left, [], []⟩ := by
  cases left <;> simp [writenLoop]

theorem writenString_nil (sock : Socket) : writenString sock [] = ⟨0, [], sock⟩ := by
  simp [writenString]

end WebServer
