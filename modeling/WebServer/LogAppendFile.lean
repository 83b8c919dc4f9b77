import WebServer.LogBuffer
import WebServer.UtilSearch

/-! `AppendFile`: a line is handed to a stdio stream, and what the stream does not accept at once is handed
to it again. What `fwrite_unlocked` makes of each call is a script. The two counters of the loop are
`size_t`. -/

namespace WebServer

/-- What `fwrite_unlocked` makes of `asked` bytes: how many it accepts, and whether the error flag is set
behind the call. It accepts fewer only with the flag set. -/
structure FwriteResult (asked : Nat) where
  count : Nat
  error : Bool
  count_le : count ≤ asked
  short : count < asked → error = true

/-- The results of the calls, in order; each depends on how many bytes are asked for. -/
abbrev FwriteScript := Nat → (asked : Nat) → FwriteResult asked

/-- The stream of an `AppendFile`: the bytes it accepted, its error flag, and the calls made so far. -/
structure AppendFile where
  accepted : Bytes
  error : Bool
  calls : Nat
  deriving DecidableEq

/-- The arguments of `append`: what lies at `logline`, and how much of it is the line. -/
structure FileLine where
  logline : Bytes
  len : Nat
  inside : len ≤ logline.length
  fits : len < sizeModulus

def FileLine.text (line : FileLine) : Bytes := line.logline.take line.len

/-- How `append` ended. It failed if it left the loop by its `break`. -/
structure Appended where
  file : AppendFile
  failed : Bool
  deriving DecidableEq

namespace AppendFile

/-- `AppendFile::write`. The flag is never cleared. -/
def write (io : FwriteScript) (f : AppendFile) (logline : Bytes) (len : Nat) : Nat × AppendFile :=
  let r := io f.calls len
  (r.count,
    { accepted := f.accepted ++ logline.take r.count, error := f.error || r.error, calls := f.calls + 1 })

/-- The loop of `append`, for at most so many rounds. -/
def appendLoop (io : FwriteScript) (line : FileLine) : Nat → AppendFile → Nat → Nat → Option Appended
  | 0, f, _, remain => if 0 < remain then none else some ⟨f, false⟩
  | rounds + 1, f, n, remain =>
      if 0 < remain then
        let (alr_n, f) := f.write io (line.logline.drop n) remain
        if alr_n = 0 ∧ f.error = true then some ⟨f, true⟩
        else
          let n := addSize n alr_n
          appendLoop io line rounds f n (subSize line.len n)
      else some ⟨f, false⟩

/-- `AppendFile::append`. -/
def append (io : FwriteScript) (f : AppendFile) (line : FileLine) (rounds : Nat) : Option Appended :=
  let (n, f) := f.write io line.logline line.len
  appendLoop io line rounds f n (subSize line.len n)

/-- How much of `len` bytes is accepted by so many calls from `call` on, each of which offers what is left. -/
def acceptedBy (io : FwriteScript) (call len : Nat) : Nat → Nat
  | 0 => 0
  | k + 1 => acceptedBy io call len k + (io (call + k) (len - acceptedBy io call len k)).count

variable {io : FwriteScript} {line : FileLine} {start f : AppendFile} {k n remain : Nat}

/-- After `k` calls the two counters make up the line, and the part before `n` is what they have accepted. -/
structure Written (io : FwriteScript) (line : FileLine) (start f : AppendFile) (k n remain : Nat) : Prop where
  split : n + remain = line.len
  calls : f.calls = start.calls + k
  count : n = acceptedBy io start.calls line.len k
  accepted : f.accepted = start.accepted ++ line.logline.take n

theorem Written.init (io : FwriteScript) (line : FileLine) (f : AppendFile) : Written io line f f 0 0 line.len :=
  ⟨Nat.zero_add _, rfl, rfl, (List.append_nil _).symm⟩

theorem write_le {logline : Bytes} {len count : Nat} {g : AppendFile}
    (hwrite : f.write io logline len = (count, g)) : count ≤ len := by
  cases hwrite
  exact (io f.calls len).count_le

/-- stdio's promise, as the loop sees it. -/
theorem write_short {logline : Bytes} {len count : Nat} {g : AppendFile}
    (hwrite : f.write io logline len = (count, g)) (hshort : count < len) : g.error = true := by
  cases hwrite
  have hset : (io f.calls len).error = true := (io f.calls len).short hshort
  exact Bool.or_eq_true_iff.mpr (Or.inr hset)

/-- The counters do not wrap. -/
theorem Written.counters (h : Written io line start f k n remain) {count : Nat} (hcount : count ≤ remain) :
    addSize n count = n + count ∧ subSize line.len (addSize n count) = remain - count := by
  have hsplit := h.split
  have hfits := line.fits
  have hadd : addSize n count = n + count := addSize_of_lt (by omega)
  refine ⟨hadd, ?_⟩
  rw [hadd, subSize_of_le hfits (by omega)]
  omega

/-- A call takes a part of the line from the one counter to the other. -/
theorem Written.write (h : Written io line start f k n remain) {count : Nat} {g : AppendFile}
    (hwrite : f.write io (line.logline.drop n) remain = (count, g)) :
    Written io line start g (k + 1) (addSize n count) (subSize line.len (addSize n count)) := by
  cases hwrite
  have hcount := (io f.calls remain).count_le
  have hsplit := h.split
  obtain ⟨hadd, hsub⟩ := h.counters hcount
  have hremain : line.len - n = remain := by omega
  rw [hsub, hadd]
  refine ⟨by omega, congrArg (· + 1) h.calls, ?_, ?_⟩
  · rw [acceptedBy, ← h.count, ← h.calls, hremain]
  · calc f.accepted ++ (line.logline.drop n).take (io f.calls remain).count
        = start.accepted ++ (line.logline.take n ++ (line.logline.drop n).take (io f.calls remain).count) := by
          rw [h.accepted, List.append_assoc]
      _ = start.accepted ++ line.logline.take (n + (io f.calls remain).count) := by rw [← List.take_add]

/-- The branch for errors: a call that was not the first has accepted nothing of what was left, with the flag
set. -/
structure Stopped (io : FwriteScript) (start : AppendFile) (r : Appended) (k left : Nat) : Prop where
  again : 1 < k
  left_pos : 0 < left
  count : (io (start.calls + (k - 1)) left).count = 0
  flag : (io (start.calls + (k - 1)) left).error = true
  error : r.file.error = true

/-- What `append` may come to: `k` calls have accepted a beginning of the line, all of it unless the last of them
has stopped it. -/
structure Ended (io : FwriteScript) (line : FileLine) (start : AppendFile) (r : Appended) (k n : Nat) : Prop where
  accepted : r.file.accepted = start.accepted ++ line.logline.take n
  calls : r.file.calls = start.calls + k
  count : n = acceptedBy io start.calls line.len k
  le : n ≤ line.len
  whole : r.failed = false → n = line.len
  stopped : r.failed = true → Stopped io start r k (line.len - n)

theorem Written.done (h : Written io line start f k n 0) : Ended io line start ⟨f, false⟩ k n where
  accepted := h.accepted
  calls := h.calls
  count := h.count
  le := h.split.le
  whole _ := h.split
  stopped hfailed := Bool.noConfusion hfailed

theorem appendLoop_done (io : FwriteScript) (line : FileLine) (rounds : Nat) (f : AppendFile) (n : Nat) :
    appendLoop io line rounds f n 0 = some ⟨f, false⟩ := by
  cases rounds <;> exact if_neg (Nat.lt_irrefl 0)

theorem appendLoop_round (hremain : 0 < remain) {count : Nat} {g : AppendFile}
    (hwrite : f.write io (line.logline.drop n) remain = (count, g)) (rounds : Nat) :
    appendLoop io line (rounds + 1) f n remain =
      if count = 0 ∧ g.error = true then some ⟨g, true⟩
      else appendLoop io line rounds g (addSize n count) (subSize line.len (addSize n count)) := by
  rw [appendLoop, if_pos hremain, hwrite]

/-- A call of the loop that accepts nothing stops `append`. -/
theorem Written.breaks (h : Written io line start f k n remain) (hk : 0 < k) (hremain : 0 < remain)
    {g : AppendFile} (hwrite : f.write io (line.logline.drop n) remain = (0, g)) :
    Ended io line start ⟨g, true⟩ (k + 1) n := by
  have hnext := h.write hwrite
  have hsplit := h.split
  have hleft : line.len - n = remain := by omega
  rw [(h.counters (Nat.zero_le remain)).1, Nat.add_zero] at hnext
  have hcount : (io f.calls remain).count = 0 := congrArg Prod.fst hwrite
  have hlast : start.calls + (k + 1 - 1) = f.calls := h.calls.symm
  refine ⟨hnext.accepted, hnext.calls, hnext.count, by omega, fun hwhole => Bool.noConfusion hwhole, fun _ => ?_⟩
  rw [hleft]
  refine ⟨Nat.succ_lt_succ hk, hremain, hlast ▸ hcount, hlast ▸ (io f.calls remain).short (by omega), ?_⟩
  exact write_short hwrite hremain

/-- The loop ends, since a call that accepts nothing sets the flag, and each other one leaves less. -/
theorem appendLoop_ends (io : FwriteScript) {bound : Nat} : ∀ {f : AppendFile} {k n remain : Nat},
    Written io line start f k n remain → 0 < k → remain ≤ bound →
      ∃ r k' m, (∀ rounds, bound ≤ rounds → appendLoop io line rounds f n remain = some r) ∧
        Ended io line start r k' m := by
  induction bound with
  | zero =>
      intro f k n remain h hk hbound
      obtain rfl : remain = 0 := Nat.le_zero.mp hbound
      exact ⟨_, k, n, fun rounds _ => appendLoop_done io line rounds f n, h.done⟩
  | succ bound ih =>
      intro f k n remain h hk hbound
      by_cases hremain : remain = 0
      · subst hremain
        exact ⟨_, k, n, fun rounds _ => appendLoop_done io line rounds f n, h.done⟩
      obtain ⟨count, g, hwrite⟩ : ∃ count g, f.write io (line.logline.drop n) remain = (count, g) :=
        ⟨_, _, rfl⟩
      have hround := appendLoop_round (by omega) hwrite
      by_cases hbreak : count = 0 ∧ g.error = true
      · obtain ⟨rfl, -⟩ := id hbreak
        refine ⟨⟨g, true⟩, k + 1, n, ?_, h.breaks hk (by omega) hwrite⟩
        intro rounds hrounds
        obtain ⟨rounds, rfl⟩ : ∃ k, rounds = k + 1 := ⟨rounds - 1, by omega⟩
        rw [hround, if_pos hbreak]
      · have hless : subSize line.len (addSize n count) ≤ bound := by
          rw [(h.counters (write_le hwrite)).2]
          by_contra hmore
          have hnone : count = 0 := by omega
          exact hbreak ⟨hnone, write_short hwrite (by omega)⟩
        obtain ⟨r, k', m, hloop, hended⟩ := ih (h.write hwrite) (Nat.succ_pos k) hless
        refine ⟨r, k', m, ?_, hended⟩
        intro rounds hrounds
        obtain ⟨rounds, rfl⟩ : ∃ k, rounds = k + 1 := ⟨rounds - 1, by omega⟩
        rw [hround, if_neg hbreak]
        exact hloop rounds (by omega)

/-- The first call is a step from the empty part of the line, and the loop goes on behind it. -/
theorem append_ends (io : FwriteScript) (f : AppendFile) (line : FileLine) :
    ∃ r k m, (∀ rounds, line.len ≤ rounds → f.append io line rounds = some r) ∧
      Ended io line f r k m := by
  obtain ⟨count, g, hwrite⟩ : ∃ count g, f.write io line.logline line.len = (count, g) := ⟨_, _, rfl⟩
  have hstart := Written.init io line f
  have hnext := hstart.write hwrite
  obtain ⟨hadd, hsub⟩ := hstart.counters (write_le hwrite)
  rw [hsub, hadd, Nat.zero_add count] at hnext
  rw [hadd, Nat.zero_add] at hsub
  obtain ⟨r, k, m, hloop, hended⟩ := appendLoop_ends io hnext Nat.one_pos (Nat.sub_le line.len count)
  refine ⟨r, k, m, ?_, hended⟩
  intro rounds hrounds
  rw [append, hwrite]
  show appendLoop io line rounds g count (subSize line.len count) = some r
  rw [hsub]
  exact hloop rounds hrounds

theorem Ended.prefix {r : Appended} {m : Nat} (h : Ended io line start r k m) :
    line.logline.take m <+: line.text := List.take_prefix_take_left h.le

theorem Ended.text {r : Appended} {m : Nat} (h : Ended io line start r k m) (hwhole : r.failed = false) :
    line.logline.take m = line.text := by
  rw [h.whole hwhole, FileLine.text]

/-- **Each byte is written once.** Whatever the results of the calls, `append` ends, and the stream has
accepted a beginning of the line, in order, as many bytes as the calls have accepted of what was left each time;
that is the whole line unless `append` failed, and then a call has accepted nothing with the flag set. -/
theorem append_writes_once (io : FwriteScript) (f : AppendFile) (line : FileLine) :
    ∃ r taken calls, (∀ rounds, line.len ≤ rounds → f.append io line rounds = some r) ∧
      r.file.accepted = f.accepted ++ taken ∧ taken <+: line.text ∧ r.file.calls = f.calls + calls ∧
      taken.length = acceptedBy io f.calls line.len calls ∧ (r.failed = false → taken = line.text) ∧
      (r.failed = true → Stopped io f r calls (line.len - taken.length)) := by
  obtain ⟨r, k, m, happend, hended⟩ := append_ends io f line
  have hlength : (line.logline.take m).length = m :=
    List.length_take_of_le (hended.le.trans line.inside)
  refine ⟨r, line.logline.take m, k, happend, hended.accepted, hended.prefix, hended.calls,
    hlength.trans hended.count, hended.text, fun hfailed => ?_⟩
  rw [hlength]
  exact hended.stopped hfailed

/-- A stream that accepts two bytes, and nothing more. -/
def twoBytes : FwriteScript := fun call asked =>
  if call = 0 then ⟨min 2 asked, true, Nat.min_le_right 2 asked, fun _ => rfl⟩
  else ⟨0, true, Nat.zero_le asked, fun _ => rfl⟩

/-- Of a line of three bytes the last is lost, by the second call. -/
theorem append_writes_once_stopped :
    ∃ r, append twoBytes ⟨[], false, 0⟩ ⟨[97, 98, 10], 3, le_rfl, by decide⟩ 3 = some r ∧
      r.file.accepted = [97, 98] ∧ Stopped twoBytes ⟨[], false, 0⟩ r 2 1 := by
  obtain ⟨r, taken, calls, happend, haccepted, -, hcalls, -, -, hstopped⟩ :=
    append_writes_once twoBytes ⟨[], false, 0⟩ ⟨[97, 98, 10], 3, le_rfl, by decide⟩
  have hrun := happend 3 le_rfl
  have hend : append twoBytes ⟨[], false, 0⟩ ⟨[97, 98, 10], 3, le_rfl, by decide⟩ 3 =
      some ⟨⟨[97, 98], true, 2⟩, true⟩ := rfl
  obtain rfl := Option.some.inj (hrun.symm.trans hend)
  obtain rfl : taken = [97, 98] := haccepted.symm
  obtain rfl : calls = 2 := (hcalls.trans (Nat.zero_add calls)).symm
  exact ⟨_, hrun, rfl, hstopped rfl⟩

/-- The lines, appended one behind the other. It failed if one of them did. -/
def appendLines (io : FwriteScript) : AppendFile → List FileLine → Option Appended
  | f, [] => some ⟨f, false⟩
  | f, line :: lines => do
      let r ← f.append io line line.len
      let rest ← appendLines io r.file lines
      return ⟨rest.file, r.failed || rest.failed⟩

/-- A log holds a beginning of each of its lines, and each line as a whole unless one failed. -/
theorem appendLines_ends (io : FwriteScript) (lines : List FileLine) : ∀ f : AppendFile,
    ∃ r takens, appendLines io f lines = some r ∧
      List.Forall₂ (fun taken line => taken <+: FileLine.text line) takens lines ∧
      r.file.accepted = f.accepted ++ takens.flatten ∧
      (r.failed = false → takens = lines.map FileLine.text) := by
  induction lines with
  | nil =>
      intro f
      exact ⟨_, [], rfl, .nil, (List.append_nil _).symm, fun _ => rfl⟩
  | cons line lines ih =>
      intro f
      obtain ⟨r, k, m, happend, hended⟩ := append_ends io f line
      obtain ⟨rest, takens, hrest, hprefixes, haccepted, hwhole⟩ := ih r.file
      refine ⟨⟨rest.file, r.failed || rest.failed⟩, line.logline.take m :: takens, ?_,
        .cons hended.prefix hprefixes, ?_, ?_⟩
      · rw [appendLines, happend line.len le_rfl, Option.bind_eq_bind, Option.bind_some, hrest]
        rfl
      · rw [haccepted, hended.accepted, List.flatten_cons, List.append_assoc]
      · intro hfailed
        obtain ⟨hline, hlines⟩ := Bool.or_eq_false_iff.mp hfailed
        rw [hended.text hline, hwhole hlines, List.map_cons]

theorem foldl_append_written (lines : List FileLine) : ∀ lf : LogFile,
    (lines.foldl (fun lf line => lf.append line.text) lf).written =
      lf.written ++ (lines.map FileLine.text).flatten := by
  induction lines with
  | nil =>
      intro lf
      exact (List.append_nil _).symm
  | cons line lines ih =>
      intro lf
      rw [List.foldl_cons, ih, LogFile.written_append, List.map_cons, List.flatten_cons, List.append_assoc]

/-- The log file whose writes succeed has what the stream accepted, as long as none failed. -/
theorem appendLines_logFile {lines : List FileLine} {lf : LogFile} {r : Appended}
    (hstart : f.accepted = lf.written) (hrun : appendLines io f lines = some r) (hwhole : r.failed = false) :
    r.file.accepted = (lines.foldl (fun lf line => lf.append line.text) lf).written := by
  obtain ⟨r', takens, hrun', -, haccepted, htexts⟩ := appendLines_ends io lines f
  cases hrun.symm.trans hrun'
  rw [haccepted, htexts hwhole, hstart, foldl_append_written]

end AppendFile

end WebServer
