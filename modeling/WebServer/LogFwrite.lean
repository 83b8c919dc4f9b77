import WebServer.LogAppendFile
import WebServer.LogPages
import WebServer.LogStop
import WebServer.RunsTrace

/-! The log on its stream. Each buffer of a round goes through `AppendFile::append`, whose calls of
`fwrite_unlocked` may fall short and fail. A failure loses the rest of its buffer, and the writer goes on with the
next one: a record is cut where a failure came, and nowhere else. -/

namespace WebServer

open Runs Paging

/-- The arguments of `output.append` for a buffer. -/
def Buffer.fileLine (b : Buffer) : FileLine where
  logline := b.data
  len := b.getLength
  inside := le_rfl
  fits := by
    have hfits := b.fits
    unfold kLargeBuffer at hfits
    unfold FixedBuffer.getLength sizeModulus
    omega

theorem Buffer.fileLine_text (b : Buffer) : b.fileLine.text = b.data := List.take_length

/-- What became of a buffer with its lines: the stream has accepted a beginning of it, and all of it unless the
call of `append` failed. -/
structure FilePiece where
  row : List Bytes
  taken : Bytes
  failed : Bool
  begins : taken <+: row.flatten
  whole : failed = false → taken = row.flatten

namespace AppendFile

def new : AppendFile := ⟨[], false, 0⟩

/-- The buffers, one behind the other, whatever became of those before. -/
def appendEach (io : FwriteScript) : AppendFile → List FileLine → Option (AppendFile × List Bool)
  | f, [] => some (f, [])
  | f, line :: lines => do
      let r ← f.append io line line.len
      let (g, failed) ← appendEach io r.file lines
      return (g, r.failed :: failed)

theorem appendEach_ends (io : FwriteScript) {lines : List FileLine} : ∀ {rows : List (List Bytes)} {f : AppendFile},
    lines.map FileLine.text = rows.map List.flatten →
      ∃ (g : AppendFile) (pieces : List FilePiece), appendEach io f lines = some (g, pieces.map FilePiece.failed) ∧
        pieces.map FilePiece.row = rows ∧ g.accepted = f.accepted ++ (pieces.map FilePiece.taken).flatten := by
  induction lines with
  | nil =>
      intro rows f htexts
      obtain rfl := List.map_eq_nil_iff.mp htexts.symm
      exact ⟨f, [], rfl, rfl, (List.append_nil _).symm⟩
  | cons line lines ih =>
      intro rows f htexts
      obtain ⟨row, rows, rfl, hrow, hrows⟩ := List.map_eq_cons_iff.mp htexts.symm
      obtain ⟨r, k, m, happend, hended⟩ := append_ends io f line
      obtain ⟨g, pieces, heach, rfl, haccepted⟩ := ih (f := r.file) hrows.symm
      refine ⟨g, ⟨row, line.logline.take m, r.failed, hrow ▸ hended.prefix, fun h => hrow ▸ hended.text h⟩ :: pieces,
        ?_, rfl, ?_⟩
      · rw [appendEach, happend line.len le_rfl, Option.bind_eq_bind, Option.bind_some, heach]
        rfl
      · rw [haccepted, hended.accepted, List.map_cons, List.flatten_cons, List.append_assoc]

end AppendFile

namespace AsyncLogging

/-- The buffer that a step of the writer hands to the file. -/
def handed (s : AsyncLogging) : LogStep → List FileLine
  | .writer =>
      match s.pc with
      | .write i =>
          match s.buffersToWrite[i]? with
          | some (some id) => [(s.heap id).fileLine]
          | _ => []
      | _ => []
  | _ => []

variable {s t : AsyncLogging}

theorem length_handed (s : AsyncLogging) (a : LogStep) : (s.handed a).length ≤ 1 := by
  unfold handed
  split
  · split
    · split <;> simp
    · simp
  · simp

theorem handed_other (hpc : ∀ i, s.pc ≠ .write i) : s.handed .writer = [] := by
  unfold handed
  dsimp only
  split
  · rename_i i hwrite
    exact absurd hwrite (hpc i)
  · rfl

/-- A step of the writer writes what it hands to the file. -/
theorem writerStep_written (hs : s.Inv) (hstep : s.writerStep = some t) :
    t.output.written = s.output.written ++ ((s.handed .writer).map FileLine.text).flatten := by
  have hround := hs.round
  have hsame (hpc : ∀ i, s.pc ≠ .write i) (houtput : t.output.written = s.output.written) :
      t.output.written = s.output.written ++ ((s.handed .writer).map FileLine.text).flatten := by
    rw [handed_other hpc, houtput]
    exact (List.append_nil _).symm
  unfold writerStep at hstep
  cases hpc : s.pc <;> simp only [hpc, Round, Option.some.injEq] at hstep hround hsame
  case write i =>
      subst hstep
      cases hat : s.buffersToWrite[i]? with
      | none => simp only [writeNext, handed, hpc, hat, List.map_nil, List.flatten_nil, List.append_nil]
      | some p =>
          cases p with
          | none => exact absurd (List.mem_of_getElem? hat) hs.pending
          | some id =>
              simp only [writeNext, handed, hpc, hat, LogFile.written_append, List.map_singleton,
                List.flatten_singleton, Buffer.fileLine_text]
  case begin =>
      refine hsame (fun _ h => by cases h) ?_
      rw [← hstep, hround]
      rfl
  case test =>
      refine hsame (fun _ h => by cases h) ?_
      rw [testRunning_eq hs hround] at hstep
      rw [← hstep]
      split_ifs <;> rfl
  case lock =>
      refine hsame (fun _ h => by cases h) ?_
      rw [← hstep, lockRound]
      split_ifs <;> rfl
  case wait => exact hsame (fun _ h => by cases h) (hstep ▸ rfl)
  case trim =>
      rw [trimPending, if_neg hround.2] at hstep
      exact hsame (fun _ h => by cases h) (hstep ▸ rfl)
  case resize => exact hsame (fun _ h => by cases h) (hstep ▸ rfl)
  case refill1 =>
      obtain ⟨-, houtput, -⟩ := refillFirst_spec hs hround
      exact hsame (fun _ h => by cases h) (by rw [← hstep, houtput])
  case refill2 =>
      obtain ⟨-, houtput, -⟩ := refillSecond_spec hs hround.1
      exact hsame (fun _ h => by cases h) (by rw [← hstep, houtput])
  case clear => exact hsame (fun _ h => by cases h) (hstep ▸ LogFile.written_flush _)
  case exit => exact hsame (fun _ h => by cases h) (hstep ▸ LogFile.written_flush _)
  case done => cases hstep

theorem step_written {a : LogStep} (hs : s.Inv) (hstep : s.step a = some t) :
    t.output.written = s.output.written ++ ((s.handed a).map FileLine.text).flatten := by
  obtain ⟨-, ⟨line, rfl, rfl⟩ | ⟨rfl, hwriter⟩ | ⟨rfl, -, rfl⟩ | ⟨rfl, -, -, rfl⟩⟩ := step_cases hstep
  · rw [(append_same s line).output]
    exact (List.append_nil _).symm
  · exact writerStep_written hs hwriter
  · exact (List.append_nil _).symm
  · exact (List.append_nil _).symm

/-- The buffers handed to the file are filled with whole lines. -/
theorem run_filled {ok : AsyncLogging → LogStep → Prop} {as : List LogStep} (hrun : Run step ok s as t)
    (hs : s.Inv) : ∀ {items pages : List Bytes}, Filled items pages s.queue →
      Filled (items ++ as.flatMap lineOf) (pages ++ (emitted step handed s as).map FileLine.text) t.queue := by
  induction hrun with
  | nil s =>
      intro items pages hq
      simpa only [List.flatMap_nil, emitted, List.map_nil, List.append_nil] using hq
  | @cons s u t a as _ hstep _ ih =>
      intro items pages hq
      have hlength : ((s.handed a).map FileLine.text).length ≤ 1 := by
        rw [List.length_map]
        exact s.length_handed a
      have hnext := (step_moves hs hstep).filled (step_written hs hstep) hlength hq
      rw [emitted_cons hstep, List.map_append, List.flatMap_cons, ← List.append_assoc, ← List.append_assoc]
      exact ih (step_inv hs hstep) hnext

/-- **Where a record can be cut.** In every run, whatever the calls of `fwrite_unlocked` accept, each buffer that
the writer hands to the file holds whole lines, some of those appended and in their order, and the file has a
beginning of each buffer, one behind the other. It has the whole of a buffer unless the `append` of that buffer
failed; so a record is cut, or lost behind a cut, only in such a buffer. -/
theorem run_fwrite {as : List LogStep} (hrun : Run step (fun _ _ => True) started as t) (io : FwriteScript) :
    ∃ (g : AppendFile) (pieces : List FilePiece),
      AppendFile.appendEach io .new (emitted step handed started as) = some (g, pieces.map FilePiece.failed) ∧
        (emitted step handed started as).map FileLine.text = pieces.map (fun piece => piece.row.flatten) ∧
        g.accepted = (pieces.map FilePiece.taken).flatten ∧
        (pieces.map FilePiece.row).flatten.Sublist (as.flatMap lineOf) := by
  obtain ⟨rows, held, htexts, -, hsub⟩ := run_filled hrun started_inv filled_new
  rw [List.nil_append] at htexts hsub
  obtain ⟨g, pieces, heach, rfl, haccepted⟩ := AppendFile.appendEach_ends io (f := .new) htexts
  refine ⟨g, pieces, heach, ?_, haccepted, (List.sublist_append_left _ held.flatten).trans hsub⟩
  rw [htexts, List.map_map]
  rfl

/-- A disk with room for one more byte. -/
def almostFull : FwriteScript := fun call asked =>
  if call = 0 then ⟨min 1 asked, true, Nat.min_le_right 1 asked, fun _ => rfl⟩
  else ⟨0, true, Nat.zero_le asked, fun _ => rfl⟩

/-- A record of two bytes is cut. -/
theorem run_fwrite_cut :
    ∃ (g : AppendFile) (pieces : List FilePiece), g.accepted = [120] ∧ pieces.map FilePiece.failed = [true] ∧
      g.accepted = (pieces.map FilePiece.taken).flatten ∧
      (pieces.map FilePiece.row).flatten.Sublist [[120, 121]] := by
  have hexec : ∃ t, exec (checked step fun _ _ => True) started
        (.append ⟨[120, 121], by decide⟩ :: List.replicate 6 .writer) = some t ∧
      (AppendFile.appendEach almostFull .new (emitted step handed started
        (.append ⟨[120, 121], by decide⟩ :: List.replicate 6 .writer))).map
          (fun r => (r.1.accepted, r.2)) = some ([120], [true]) := ⟨_, rfl, rfl⟩
  obtain ⟨t, ht, hfile⟩ := hexec
  obtain ⟨g, pieces, heach, -, haccepted, hsub⟩ := run_fwrite (run_of_exec_checked ht) almostFull
  rw [heach, Option.map_some, Option.some.injEq, Prod.mk.injEq] at hfile
  exact ⟨g, pieces, hfile.1, hfile.2, haccepted, hsub⟩

end AsyncLogging

end WebServer
