import WebServer.Stages
import WebServer.UtilBytes

/-! The command line of `main`. `getopt` is called until it returns `-1`; it passes over the words that are no
options, and stops at `--`. The option string has no colon behind its `p`: `getopt` never gives it an argument,
and the port is read from a null pointer. -/

namespace WebServer

/-- What a call of `getopt` returns, with `optarg`. -/
inductive OptionCall where
  | letter (opt : Byte) (optarg : Option Bytes)
  /-- `'?'`, for a letter that is not in the option string, or one whose argument is missing. -/
  | unknown
  deriving DecidableEq

/-- Whether the letter has a colon behind it in the option string; `none` for one that is no option. -/
def optionArgument : Bytes → Byte → Option Bool
  | [], _ => none
  | b :: optstring, c =>
      if b = c ∧ c ≠ colon then some (optstring.head? == some colon) else optionArgument optstring c

/-- The calls of `getopt` inside of one word, and the letter that has its argument in the next one. -/
def elementCalls (optstring : Bytes) : Bytes → List OptionCall × Option Byte
  | [] => ([], none)
  | c :: letters =>
      match optionArgument optstring c with
      | some true => if letters = [] then ([], some c) else ([.letter c (some letters)], none)
      | some false => (.letter c none :: (elementCalls optstring letters).1, (elementCalls optstring letters).2)
      | none => (.unknown :: (elementCalls optstring letters).1, (elementCalls optstring letters).2)

/-- The calls of `getopt` over the words of the command line, up to the one that returns `-1`. A word that is
no option is passed over, unless `POSIXLY_CORRECT` is set. -/
def getopt (posixlyCorrect : Bool) (optstring : Bytes) : Option Byte → List Bytes → List OptionCall
  | none, [] => []
  | some _, [] => [.unknown]
  | some c, word :: words => .letter c (some word) :: getopt posixlyCorrect optstring none words
  | none, word :: words =>
      match word with
      | 45 :: c :: letters =>
          if c = 45 ∧ letters = [] then []
          else (elementCalls optstring (c :: letters)).1 ++
            getopt posixlyCorrect optstring (elementCalls optstring (c :: letters)).2 words
      | _ => if posixlyCorrect then [] else getopt posixlyCorrect optstring none words

/-- `strtol` in base ten, which stays inside of a `long`. -/
def strtol (s : Bytes) : Int :=
  let clamped (negative : Bool) (s : Bytes) : Int :=
    let n : Int := digitsValue (s.takeWhile isDigit)
    if negative then max (-9223372036854775808) (-n) else min 9223372036854775807 n
  match s.dropWhile isSpace with
  | 45 :: rest => clamped true rest
  | 43 :: rest => clamped false rest
  | rest => clamped false rest

def atoi (s : Bytes) : Int := toInt (strtol s)

/-- What stops the program before its loop. -/
inductive Halt where
  /-- `abort`. -/
  | aborted
  /-- An assertion that fails. -/
  | assertion
  /-- A null pointer that is read. -/
  | nullPointer
  /-- A wait that nobody ends. -/
  | waits
  deriving DecidableEq

structure Settings where
  threadNum : Int
  port : Int
  logPath : Bytes
  deriving DecidableEq

namespace Settings

def start : Settings := ⟨4, 6598, bytes "./WebServer.log"⟩

def optString : Bytes := bytes "t:l:p"

/-- One turn of the loop of `main` over its options. -/
def readOption (s : Settings) : OptionCall → Except Halt Settings
  | .letter 116 (some value) => .ok { s with threadNum := atoi value }
  | .letter 108 (some value) =>
      if value.length < 2 ∨ value.head? ≠ some slash then .error .aborted else .ok { s with logPath := value }
  | .letter 112 (some value) => .ok { s with port := atoi value }
  | .letter 116 none | .letter 108 none | .letter 112 none => .error .nullPointer
  | _ => .ok s

/-- The options of `main`. -/
def read (posixlyCorrect : Bool) (words : List Bytes) : Except Halt Settings :=
  (getopt posixlyCorrect optString none words).foldlM readOption start

/-- The number of threads of a call with `t`. -/
def threads : OptionCall → Option Int
  | .letter 116 (some value) => some (atoi value)
  | _ => none

/-- The path of a call with `l`. -/
def path : OptionCall → Option Bytes
  | .letter 108 (some value) => some value
  | _ => none

/-- What `getopt` can return for the option string of `main`. -/
inductive Given : OptionCall → Prop where
  | threads (value : Bytes) : Given (.letter 116 (some value))
  | path (value : Bytes) : Given (.letter 108 (some value))
  | port : Given (.letter 112 none)
  | unknown : Given .unknown

/-- `main` goes on behind the call. -/
def Accepts (o : OptionCall) : Prop :=
  o ≠ .letter 112 none ∧ ∀ value, path o = some value → 2 ≤ value.length ∧ value.head? = some slash

end Settings

section

variable {posixlyCorrect : Bool} {optstring : Bytes}

theorem elementCalls_letter (optstring letters : Bytes) :
    (∀ c optarg, .letter c optarg ∈ (elementCalls optstring letters).1 →
        optionArgument optstring c = some optarg.isSome) ∧
      ∀ c, (elementCalls optstring letters).2 = some c → optionArgument optstring c = some true := by
  induction letters with
  | nil =>
      refine ⟨fun _ _ h => ?_, fun _ h => ?_⟩
      · cases h
      · cases h
  | cons c letters ih =>
      obtain ⟨hcalls, hwants⟩ := ih
      rw [elementCalls]
      split
      · rename_i hargument
        split_ifs
        · refine ⟨fun _ _ h => ?_, fun d hd => ?_⟩
          · cases h
          · cases hd
            exact hargument
        · refine ⟨fun d optarg h => ?_, fun _ h => ?_⟩
          · obtain ⟨rfl, rfl⟩ := OptionCall.letter.inj (List.mem_singleton.mp h)
            exact hargument
          · cases h
      · rename_i hargument
        refine ⟨fun d optarg h => ?_, hwants⟩
        rcases List.mem_cons.mp h with heq | hlater
        · obtain ⟨rfl, rfl⟩ := OptionCall.letter.inj heq
          exact hargument
        · exact hcalls d optarg hlater
      · refine ⟨fun d optarg h => ?_, hwants⟩
        rcases List.mem_cons.mp h with heq | hlater
        · cases heq
        · exact hcalls d optarg hlater

/-- `optarg` is null exactly for the letters that have no colon behind them. -/
theorem getopt_letter {words : List Bytes} : ∀ {wants : Option Byte},
    (∀ c, wants = some c → optionArgument optstring c = some true) → ∀ c optarg,
      .letter c optarg ∈ getopt posixlyCorrect optstring wants words →
        optionArgument optstring c = some optarg.isSome := by
  induction words with
  | nil =>
      intro wants _ c optarg h
      cases wants with
      | none => cases h
      | some _ => cases List.mem_singleton.mp h
  | cons word words ih =>
      intro wants hwants c optarg h
      have hnone : ∀ d : Byte, none = some d → optionArgument optstring d = some true := by
        intro d hd
        cases hd
      cases wants with
      | some d =>
          rcases List.mem_cons.mp h with heq | hlater
          · obtain ⟨rfl, rfl⟩ := OptionCall.letter.inj heq
            exact hwants _ rfl
          · exact ih hnone c optarg hlater
      | none =>
          unfold getopt at h
          split at h
          · rename_i d letters
            split_ifs at h
            · cases h
            · obtain ⟨hcalls, hnext⟩ := elementCalls_letter optstring (d :: letters)
              rcases List.mem_append.mp h with hword | hlater
              · exact hcalls c optarg hword
              · exact ih hnext c optarg hlater
          · split_ifs at h
            · cases h
            · exact ih hnone c optarg h

end

namespace Settings

variable {posixlyCorrect : Bool} {words : List Bytes} {s t : Settings} {o : OptionCall}

theorem optString_argument {c : Byte} {argument : Bool} (h : optionArgument optString c = some argument) :
    c = 116 ∧ argument = true ∨ c = 108 ∧ argument = true ∨ c = 112 ∧ argument = false := by
  have hstring : optString = [116, colon, 108, colon, 112] := by decide
  rw [hstring] at h
  unfold optionArgument at h
  split_ifs at h with ht
  · exact Or.inl ⟨ht.1.symm, (Option.some.inj h).symm⟩
  unfold optionArgument at h
  split_ifs at h with hcolon
  · exact absurd hcolon.1.symm hcolon.2
  unfold optionArgument at h
  split_ifs at h with hl
  · exact Or.inr (Or.inl ⟨hl.1.symm, (Option.some.inj h).symm⟩)
  unfold optionArgument at h
  rw [if_neg hcolon] at h
  unfold optionArgument at h
  split_ifs at h with hp
  · exact Or.inr (Or.inr ⟨hp.1.symm, (Option.some.inj h).symm⟩)
  · cases h

theorem getopt_given (h : o ∈ getopt posixlyCorrect optString none words) : Given o := by
  cases o with
  | unknown => exact .unknown
  | letter c optarg =>
      have hargument := getopt_letter (fun _ hnone => by cases hnone) c optarg h
      rcases optString_argument hargument with ⟨rfl, hsome⟩ | ⟨rfl, hsome⟩ | ⟨rfl, hnone⟩
      · obtain ⟨value, rfl⟩ := Option.isSome_iff_exists.mp hsome
        exact .threads value
      · obtain ⟨value, rfl⟩ := Option.isSome_iff_exists.mp hsome
        exact .path value
      · cases optarg with
        | none => exact .port
        | some value => cases hnone

theorem accepts_path {value : Bytes} :
    Accepts (.letter 108 (some value)) ↔ ¬ (value.length < 2 ∨ value.head? ≠ some slash) := by
  constructor
  · intro haccepts hbad
    obtain ⟨hlong, habsolute⟩ := haccepts.2 value rfl
    rcases hbad with hshort | hrelative
    · omega
    · exact hrelative habsolute
  · intro hgood
    obtain ⟨hlong, habsolute⟩ := not_or.mp hgood
    refine ⟨by simp, fun v hv => ?_⟩
    cases hv
    exact ⟨by omega, not_not.mp habsolute⟩

/-- A call that `getopt` can return sets what it names, or stops `main`. -/
theorem readOption_given (s : Settings) (ho : Given o) :
    (Accepts o ∧ s.readOption o = .ok ⟨(threads o).getD s.threadNum, s.port, (path o).getD s.logPath⟩) ∨
      ¬ Accepts o ∧ ∃ e, s.readOption o = .error e := by
  cases ho with
  | threads value => exact Or.inl ⟨⟨by simp, fun _ hpath => by cases hpath⟩, rfl⟩
  | path value =>
      by_cases hbad : value.length < 2 ∨ value.head? ≠ some slash
      · exact Or.inr ⟨fun haccepts => accepts_path.mp haccepts hbad, _, if_pos hbad⟩
      · exact Or.inl ⟨accepts_path.mpr hbad, if_neg hbad⟩
  | port => exact Or.inr ⟨fun haccepts => haccepts.1 rfl, _, rfl⟩
  | unknown => exact Or.inl ⟨⟨by simp, fun _ hpath => by cases hpath⟩, rfl⟩

theorem readOption_ok_iff (ho : Given o) : s.readOption o = .ok t ↔ Accepts o ∧
    t = ⟨(threads o).getD s.threadNum, s.port, (path o).getD s.logPath⟩ := by
  rcases readOption_given s ho with ⟨haccepts, hread⟩ | ⟨hrefused, e, hread⟩
  · rw [hread, Except.ok.injEq, and_iff_right haccepts]
    exact eq_comm
  · rw [hread]
    refine iff_of_false (fun h => ?_) fun h => hrefused h.1
    cases h

/-- A call that names nothing leaves the last one as it was. -/
theorem lastOf_cons {α : Type} (named : OptionCall → Option α) (o : OptionCall) (calls : List OptionCall) (d : α) :
    ((o :: calls).filterMap named).getLastD d = (calls.filterMap named).getLastD ((named o).getD d) := by
  cases hnamed : named o with
  | none => rw [List.filterMap_cons_none hnamed, Option.getD_none]
  | some a => rw [List.filterMap_cons_some hnamed, List.getLastD_cons, Option.getD_some]

/-- The loop goes on over all calls, and the last one of each letter counts. -/
theorem foldlM_readOption {calls : List OptionCall} : ∀ {s : Settings}, (∀ o ∈ calls, Given o) →
    (calls.foldlM readOption s = .ok t ↔ (∀ o ∈ calls, Accepts o) ∧
      t = ⟨(calls.filterMap threads).getLastD s.threadNum, s.port,
        (calls.filterMap path).getLastD s.logPath⟩) := by
  induction calls with
  | nil =>
      intro s _
      constructor
      · intro h
        refine ⟨fun _ hnil => ?_, (Except.ok.inj h).symm⟩
        cases hnil
      · rintro ⟨-, rfl⟩
        rfl
  | cons o calls ih =>
      intro s hgiven
      obtain ⟨ho, hlater⟩ := List.forall_mem_cons.mp hgiven
      rw [List.foldlM_cons, lastOf_cons, lastOf_cons, List.forall_mem_cons]
      constructor
      · intro h
        obtain ⟨u, hu, hrest⟩ := Stages.bind_eq_ok h
        obtain ⟨haccepts, rfl⟩ := (readOption_ok_iff ho).mp hu
        obtain ⟨hcalls, rfl⟩ := (ih hlater).mp hrest
        exact ⟨⟨haccepts, hcalls⟩, rfl⟩
      · rintro ⟨⟨haccepts, hrest⟩, rfl⟩
        rw [(readOption_ok_iff ho).mpr ⟨haccepts, rfl⟩]
        exact (ih hlater).mpr ⟨hrest, rfl⟩

/-- **The command line.** `main` comes through its options exactly when `p` is not among them and every log
path is absolute. The number of threads and the path are then the last ones given, and the port is the one the
program was built with. -/
theorem read_ok_iff : read posixlyCorrect words = .ok s ↔
    (∀ o ∈ getopt posixlyCorrect optString none words, Accepts o) ∧
      s = ⟨((getopt posixlyCorrect optString none words).filterMap threads).getLastD 4, 6598,
        ((getopt posixlyCorrect optString none words).filterMap path).getLastD (bytes "./WebServer.log")⟩ :=
  foldlM_readOption fun _ => getopt_given

/-- So the assertion on the name of the log file holds. -/
theorem logPath_long (h : read posixlyCorrect words = .ok s) : 1 < s.logPath.length := by
  obtain ⟨haccepts, rfl⟩ := read_ok_iff.mp h
  have hlast := List.getLastD_mem_cons (a := bytes "./WebServer.log")
    (l := (getopt posixlyCorrect optString none words).filterMap path)
  rcases List.mem_cons.mp hlast with hdefault | hgiven
  · have hlong : 1 < (bytes "./WebServer.log").length := by decide
    rwa [← hdefault] at hlong
  · obtain ⟨o, ho, hpath⟩ := List.mem_filterMap.mp hgiven
    exact ((haccepts o ho).2 _ hpath).1

end Settings

end WebServer
