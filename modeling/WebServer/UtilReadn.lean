import WebServer.UtilSocket

/-! The two functions `readn` that read into a string. The one without `zero` is a copy of the other, but
where that compares `errno` with `EAGAIN`, the copy assigns it, and so takes any error for a socket
without data. -/

namespace WebServer

def EAGAIN : Nat := 11

structure ReadStringResult where
  value : Int
  inBuffer : Bytes
  reads : List ReadOutcome
  deriving DecidableEq

/-- The loop of `readn(int, std::string&)`. Behind the test for `EINTR` stands `errno = EAGAIN`, the value
of which is what was assigned. -/
def readnStringLoop : List ReadOutcome → Bytes → Nat → ReadStringResult
  | [], inBuffer, readSum => ⟨readSum, inBuffer, []⟩
  | .data chunk :: reads, inBuffer, readSum =>
      readnStringLoop reads (inBuffer ++ chunk.data) (readSum + chunk.data.length)
  | .eof :: reads, inBuffer, readSum => ⟨readSum, inBuffer, reads⟩
  | .eintr :: reads, inBuffer, readSum => readnStringLoop reads inBuffer readSum
  | .eagain :: reads, inBuffer, readSum | .error :: reads, inBuffer, readSum =>
      if EAGAIN ≠ 0 then ⟨readSum, inBuffer, reads⟩ else ⟨-1, inBuffer, reads⟩

def readnString (reads : List ReadOutcome) (inBuffer : Bytes) : ReadStringResult :=
  readnStringLoop reads inBuffer 0

/-- The answers to the calls of one `readn`: any number behind which it goes on, and one that ends it. -/
structure ReadScript where
  between : List ReadOutcome
  last : ReadOutcome
  between_goesOn : ∀ r ∈ between, r.goesOn
  last_ends : last.goesOn = false

namespace ReadScript

def reads (script : ReadScript) : List ReadOutcome := script.between ++ [script.last]

/-- The bytes that arrive. -/
def bytes (script : ReadScript) : Bytes := script.between.flatMap ReadOutcome.bytes

/-- What a `readn` is to return: the number of the bytes, or `-1` after an error. -/
def value (script : ReadScript) : Int := if script.last = .error then -1 else script.bytes.length

end ReadScript

/-- Both functions append the bytes that arrive and return the value they are to return. -/
structure ReadnsAgree (script : ReadScript) (inBuffer : Bytes) : Prop where
  string : (readnString script.reads inBuffer).inBuffer = inBuffer ++ script.bytes
  string_value : (readnString script.reads inBuffer).value = script.value
  zero : (readn script.reads inBuffer).inBuffer = inBuffer ++ script.bytes
  zero_value : (readn script.reads inBuffer).value = script.value

theorem readnString_script (script : ReadScript) (inBuffer : Bytes) :
    readnString script.reads inBuffer = ⟨script.bytes.length, inBuffer ++ script.bytes, []⟩ := by
  have hends := script.last_ends
  calc readnString script.reads inBuffer
      = readnStringLoop [script.last] (inBuffer ++ script.bytes) (0 + script.bytes.length) :=
        readLoop_between readnStringLoop (fun _ _ _ _ => by rw [readnStringLoop])
          (fun _ _ _ => by rw [readnStringLoop]) _ _ script.between_goesOn inBuffer 0
    _ = ⟨script.bytes.length, inBuffer ++ script.bytes, []⟩ := by
        rw [Nat.zero_add]
        cases hlast : script.last <;> simp [hlast, ReadOutcome.goesOn, readnStringLoop, EAGAIN] at hends ⊢

theorem readn_script (script : ReadScript) (inBuffer : Bytes) : readn script.reads inBuffer =
    ⟨script.value, inBuffer ++ script.bytes, decide (script.last = .eof), []⟩ := by
  have hends := script.last_ends
  calc readn script.reads inBuffer
      = readnLoop [script.last] (inBuffer ++ script.bytes) script.bytes.length :=
        readn_between script.between_goesOn [script.last] inBuffer
    _ = ⟨script.value, inBuffer ++ script.bytes, decide (script.last = .eof), []⟩ := by
        rw [ReadScript.value]
        cases hlast : script.last <;> simp [hlast, ReadOutcome.goesOn, readnLoop] at hends ⊢

/-- **The two string readers.** They agree on every script but those that end in an error other than
`EAGAIN`. -/
theorem readnsAgree_iff (script : ReadScript) (inBuffer : Bytes) :
    ReadnsAgree script inBuffer ↔ script.last ≠ .error := by
  have hstring := readnString_script script inBuffer
  have hzero := readn_script script inBuffer
  constructor
  · intro h herror
    have hvalue := h.string_value
    rw [hstring, ReadScript.value, if_pos herror] at hvalue
    dsimp only at hvalue
    omega
  · intro hlast
    refine ⟨by rw [hstring], ?_, by rw [hzero], by rw [hzero]⟩
    rw [hstring, ReadScript.value, if_neg hlast]

/-- Two bytes, and a connection that is reset. -/
def resetScript : ReadScript where
  between := [.data ⟨[71, 69], by decide, by decide⟩]
  last := .error
  between_goesOn := by decide
  last_ends := rfl

theorem readnString_reset : (readnString resetScript.reads []).value = 2 ∧
    (readn resetScript.reads []).value = -1 ∧ ¬ ReadnsAgree resetScript [] := by
  refine ⟨by decide, by decide, fun h => ?_⟩
  have hvalue := h.string_value
  have hvalues : (readnString resetScript.reads []).value = 2 ∧ resetScript.value = -1 := by decide
  rw [hvalues.1, hvalues.2] at hvalue
  cases hvalue

end WebServer
