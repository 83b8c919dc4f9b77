import WebServer.HttpHandleConn
import WebServer.RunsTrace

/-! Output under back pressure: a run of a connection in which its output is appended to, and written by
`handleWrite`, with any answers of the kernel. What the kernel took and what is left are what was
appended, unless the buffer is cleared with bytes left in it. It is where the number of bytes taken is the
length of the buffer as an `int`, and not the length. -/

namespace WebServer

open Runs

/-- How many of `n` bytes the kernel takes until a call takes none or finds no room; `none` if one fails. -/
def taken : List WriteOutcome → Nat → Option Nat
  | _, 0 => some 0
  | [], n => some n
  | .accept count :: writes, n =>
      if count = 0 then some 0 else (taken writes (n - count)).map (min count n + ·)
  | .eintr :: writes, n => taken writes n
  | .eagain :: _, _ => some 0
  | .error :: _, _ => none

@[simp] theorem taken_zero (writes : List WriteOutcome) : taken writes 0 = some 0 := by
  cases writes with
  | nil => rfl
  | cons w writes => cases w <;> rfl

theorem writenLoop_accept (zeroBreaks : Bool) (count : Nat) (writes : List WriteOutcome)
    (accepted : Bytes) (b : Byte) (left : Bytes) :
    writenLoop zeroBreaks (.accept count :: writes) accepted (b :: left) =
      if count = 0 ∧ zeroBreaks then ⟨false, accepted, b :: left, writes⟩
      else writenLoop zeroBreaks writes (accepted ++ (b :: left).take count) ((b :: left).drop count) := rfl

theorem writenLoop_taken {writes : List WriteOutcome} (accepted : Bytes) {left : Bytes} {n : Nat}
    (htaken : taken writes left.length = some n) :
    n ≤ left.length ∧ (writenLoop true writes accepted left).failed = false ∧
      (writenLoop true writes accepted left).accepted = accepted ++ left.take n := by
  induction writes generalizing accepted left n with
  | nil =>
      cases left with
      | nil =>
          obtain rfl : 0 = n := Option.some.inj htaken
          exact ⟨le_rfl, rfl, (List.append_nil _).symm⟩
      | cons b left =>
          obtain rfl : (b :: left).length = n := Option.some.inj htaken
          exact ⟨le_rfl, rfl, by rw [List.take_length]; rfl⟩
  | cons w writes ih =>
      cases left with
      | nil =>
          rw [List.length_nil, taken_zero] at htaken
          obtain rfl : 0 = n := Option.some.inj htaken
          exact ⟨le_rfl, rfl, (List.append_nil _).symm⟩
      | cons b left =>
          cases w with
          | accept count =>
              simp only [List.length_cons, taken] at htaken
              by_cases hzero : count = 0
              · rw [if_pos hzero] at htaken
                obtain rfl : 0 = n := Option.some.inj htaken
                rw [writenLoop_accept, if_pos ⟨hzero, rfl⟩]
                exact ⟨Nat.zero_le _, rfl, (List.append_nil _).symm⟩
              · rw [if_neg hzero] at htaken
                obtain ⟨m, hm, rfl⟩ := Option.map_eq_some_iff.mp htaken
                have hlength : ((b :: left).drop count).length = left.length + 1 - count :=
                  List.length_drop
                obtain ⟨hle, hended, haccepted⟩ := ih (accepted ++ (b :: left).take count) (hlength ▸ hm)
                rw [writenLoop_accept, if_neg fun h => hzero h.1]
                refine ⟨by rw [List.length_cons]; omega, hended, ?_⟩
                rw [haccepted, List.append_assoc, List.take_add]
                congr 2
                · exact List.take_eq_take_min
                · exact congrArg (List.take m) List.drop_eq_drop_min
          | eintr => exact ih accepted htaken
          | eagain =>
              obtain rfl : 0 = n := Option.some.inj htaken
              exact ⟨Nat.zero_le _, rfl, (List.append_nil _).symm⟩
          | error => cases htaken

theorem writenLoop_untaken {writes : List WriteOutcome} {accepted left : Bytes}
    (huntaken : taken writes left.length = none) : (writenLoop true writes accepted left).failed = true := by
  induction writes generalizing accepted left with
  | nil => cases left <;> cases huntaken
  | cons w writes ih =>
      cases left with
      | nil => cases w <;> cases huntaken
      | cons b left =>
          cases w with
          | accept count =>
              simp only [List.length_cons, taken] at huntaken
              split_ifs at huntaken with hzero
              have hlength : ((b :: left).drop count).length = left.length + 1 - count := List.length_drop
              rw [writenLoop_accept, if_neg fun h => hzero h.1]
              exact ih (hlength ▸ Option.map_eq_none_iff.mp huntaken)
          | eintr => exact ih huntaken
          | eagain => cases huntaken
          | error => rfl

theorem writenString_taken {sock : Socket} {sbuff : Bytes} {n : Nat}
    (htaken : taken sock.writes sbuff.length = some n) :
    (writenString sock sbuff).value = n ∧
      (writenString sock sbuff).sock.sent = sock.sent ++ sbuff.take n ∧
      (writenString sock sbuff).sbuff =
        if (n : Int) = toInt sbuff.length then [] else sbuff.drop n := by
  obtain ⟨hle, hended, haccepted⟩ := writenLoop_taken [] htaken
  rw [List.nil_append] at haccepted
  have hlength : (sbuff.take n).length = n := by rw [List.length_take, Nat.min_eq_left hle]
  simp only [writenString, hended, Bool.false_eq_true, if_false, haccepted, hlength, and_self]

theorem writenString_untaken {sock : Socket} {sbuff : Bytes}
    (huntaken : taken sock.writes sbuff.length = none) : (writenString sock sbuff).value = -1 := by
  simp only [writenString, writenLoop_untaken huntaken, if_true]

/-- Of `length` bytes, a multiple of `2 ^ 32` is left, and those taken are few enough for an `int`. -/
def Clipped (length count : Nat) : Prop := count < length ∧ count < 2 ^ 31 ∧ length % 2 ^ 32 = count

instance (length count : Nat) : Decidable (Clipped length count) := inferInstanceAs (Decidable (_ ∧ _ ∧ _))

theorem toInt_eq_iff {length count : Nat} (hle : count ≤ length) :
    (count : Int) = toInt length ↔ count = length ∧ length < 2 ^ 31 ∨ Clipped length count := by
  rw [toInt_eq_bmod, Int.bmod_def, Clipped]
  omega

/-- Only a buffer of `2 ^ 32` bytes or more is cleared with bytes left in it. -/
theorem Clipped.le {length count : Nat} (h : Clipped length count) : 2 ^ 32 ≤ length := by
  obtain ⟨hlt, -, hmod⟩ := h
  omega

inductive OutputStep where
  /-- `m_outBuffer += s`. -/
  | append (s : Bytes)
  /-- A call of `handleWrite`, and what the kernel answers its calls of `write`. -/
  | handleWrite (writes : List WriteOutcome)

def Conn.append (c : Conn) (s : Bytes) : Conn := { c with http.outBuffer := c.http.outBuffer ++ s }

def Conn.answers (c : Conn) (writes : List WriteOutcome) : Conn := { c with sock.writes := writes }

/-- A connection, and all that its output has been appended to so far. -/
structure Output where
  conn : Conn
  appended : Bytes

namespace Output

def step (s : Output) : OutputStep → Option Output
  | .append data => some ⟨s.conn.append data, s.appended ++ data⟩
  | .handleWrite writes => some ⟨handleWrite (s.conn.answers writes), s.appended⟩

/-- What the kernel took, and what is left. -/
def ofConn (c : Conn) : Output := ⟨c, c.sock.sent ++ c.http.outBuffer⟩

def Conserved (s : Output) : Prop :=
  s.conn.http.error = false → s.conn.sock.sent ++ s.conn.http.outBuffer = s.appended

/-- The step is not a write, of a connection that writes, of which the kernel takes as many bytes as the
length of the buffer is as an `int` while more are there. -/
def Exact (s : Output) : OutputStep → Prop
  | .append _ => True
  | .handleWrite writes =>
      s.conn.http.error = false → s.conn.http.connectionState ≠ .disconnected →
        ∀ n, taken writes s.conn.http.outBuffer.length = some n → ¬ Clipped s.conn.http.outBuffer.length n

end Output

/-- A write without an error conserves the output just if it does not clear bytes that are left. -/
theorem handleWrite_conserves_iff {c : Conn} (herror : c.http.error = false)
    (hstate : c.http.connectionState ≠ .disconnected) :
    ((handleWrite c).http.error = false →
        (handleWrite c).sock.sent ++ (handleWrite c).http.outBuffer = c.sock.sent ++ c.http.outBuffer) ↔
      ∀ n, taken c.sock.writes c.http.outBuffer.length = some n → ¬ Clipped c.http.outBuffer.length n := by
  obtain ⟨hsock, hout, hnext⟩ := handleWrite_open herror hstate
  rw [hnext, hsock, hout]
  cases htaken : taken c.sock.writes c.http.outBuffer.length with
  | none =>
      rw [writenString_untaken htaken, toInt_neg_one]
      exact iff_of_true (fun h => absurd h (by decide)) fun _ h => nomatch h
  | some n =>
      obtain ⟨hvalue, hsent, hleft⟩ := writenString_taken htaken
      have hle : n ≤ c.http.outBuffer.length := (writenLoop_taken [] htaken).1
      have hsplit : c.sock.sent ++ c.http.outBuffer =
          c.sock.sent ++ c.http.outBuffer.take n ++ c.http.outBuffer.drop n := by
        rw [List.append_assoc, List.take_append_drop]
      have hsome : (∀ k, some n = some k → ¬ Clipped c.http.outBuffer.length k) ↔
          ¬ Clipped c.http.outBuffer.length n :=
        ⟨fun h => h n rfl, fun h k hk => Option.some.inj hk ▸ h⟩
      rw [hvalue, hsent, hleft, hsome, hsplit]
      by_cases hclipped : Clipped c.http.outBuffer.length n
      · have hlt := hclipped.1
        have hsmall := hclipped.2.1
        have hcleared : (n : Int) = toInt c.http.outBuffer.length :=
          (toInt_eq_iff hle).mpr (Or.inr hclipped)
        rw [if_pos hcleared, toInt_of_lt hsmall]
        refine iff_of_false (fun h => ?_) (not_not.mpr hclipped)
        have hdrop : c.http.outBuffer.drop n = [] :=
          (List.append_cancel_left (h (Int.natCast_nonneg n))).symm
        exact absurd (List.drop_eq_nil_iff.mp hdrop) (Nat.not_le.mpr hlt)
      · refine iff_of_true (fun _ => congrArg _ ?_) hclipped
        split_ifs with hcleared
        · obtain ⟨rfl, -⟩ | h := (toInt_eq_iff hle).mp hcleared
          · exact List.drop_length.symm
          · exact absurd h hclipped
        · rfl

namespace Output

variable {s t : Output}

theorem step_conserved_iff {a : OutputStep} (hstep : s.step a = some t) (hs : s.Conserved) :
    t.Conserved ↔ s.Exact a := by
  cases a with
  | append data =>
      cases hstep
      refine iff_of_true (fun herror => ?_) trivial
      have hsplit := hs herror
      calc s.conn.sock.sent ++ (s.conn.http.outBuffer ++ data)
          = s.conn.sock.sent ++ s.conn.http.outBuffer ++ data := (List.append_assoc _ _ _).symm
        _ = s.appended ++ data := congrArg (· ++ data) hsplit
  | handleWrite writes =>
      cases hstep
      by_cases hopen : s.conn.http.error = false ∧ s.conn.http.connectionState ≠ .disconnected
      · obtain ⟨herror, hstate⟩ := hopen
        have hwrite := handleWrite_conserves_iff (c := s.conn.answers writes) herror hstate
        have hsplit : (s.conn.answers writes).sock.sent ++ (s.conn.answers writes).http.outBuffer =
            s.appended := hs herror
        rw [hsplit] at hwrite
        exact hwrite.trans ⟨fun h _ _ => h, fun h => h herror hstate⟩
      · refine iff_of_true (fun herror => ?_) fun herror hstate => absurd ⟨herror, hstate⟩ hopen
        rw [handleWrite_closed (c := s.conn.answers writes) hopen] at herror ⊢
        exact hs herror

/-- Every step may be taken. -/
theorem exists_step (s : Output) (a : OutputStep) : ∃ t, s.step a = some t := by
  cases a with
  | append data => exact ⟨_, rfl⟩
  | handleWrite writes => exact ⟨_, rfl⟩

/-- The property of a state of a run: the output is conserved as long as there is no error, and what a
write leaves waits for `EPOLLOUT`. -/
def Kept (bs : List OutputStep) (u : Output) : Prop :=
  u.conn.http.error = false →
    u.conn.sock.sent ++ u.conn.http.outBuffer = u.appended ∧
      ∀ writes, bs.getLast? = some (.handleWrite writes) → u.conn.http.connectionState ≠ .disconnected →
        u.conn.http.outBuffer ≠ [] → u.conn.chan.events.has EPOLLOUT

theorem run_armed {bs : List OutputStep} {writes : List WriteOutcome}
    (hrun : Run step (fun _ _ => True) s bs t) (hlast : bs.getLast? = some (.handleWrite writes)) :
    t.conn.Armed := by
  obtain ⟨front, rfl⟩ := List.getLast?_eq_some_iff.mp hlast
  obtain ⟨u, -, hwrite⟩ := hrun.split
  cases hwrite with
  | cons _ hstep hrest =>
      cases hrest
      cases hstep
      exact handleWrite_armed _

/-- **Output is conserved** over a run, and left over output waits for `EPOLLOUT`, if and only if no write
of it takes a number of bytes that is the length of the buffer as an `int` while more are there. -/
theorem run_kept_iff (c : Conn) (as : List OutputStep) :
    (∀ bs u, bs <+: as → Run step (fun _ _ => True) (ofConn c) bs u → Kept bs u) ↔
      ∃ t, Run step Exact (ofConn c) as t := by
  obtain ⟨t, hrun⟩ := Run.exists_of_total (fun _ _ => trivial) exists_step as (ofConn c)
  have hprefixes := hrun.prefixes_iff (I := fun _ => True) (P := Conserved)
    (fun _ _ _ _ _ _ => trivial) (fun _ _ _ _ hstep _ hs => step_conserved_iff hstep hs) trivial
    fun _ => rfl
  have hexact : (∃ t, Run step Exact (ofConn c) as t) ↔ Run step Exact (ofConn c) as t :=
    ⟨fun ⟨_, h⟩ => h.unique hrun ▸ h, fun h => ⟨t, h⟩⟩
  rw [hexact, ← hprefixes]
  constructor
  · exact fun h bs u hbs hu herror => (h bs u hbs hu herror).1
  · exact fun h bs u hbs hu herror => ⟨h bs u hbs hu herror, fun writes hlast => run_armed hu hlast herror⟩

theorem taken_eagain (writes : List WriteOutcome) (n : Nat) : taken (.eagain :: writes) n = some 0 := by
  cases n <;> rfl

/-- The kernel has no room for any of `2 ^ 32` bytes, and all of them are dropped. -/
theorem eagain_not_kept {data : Bytes} (hlength : data.length = 2 ^ 32) :
    ∃ u, Run step (fun _ _ => True) (ofConn (Conn.fresh 5)) [.append data, .handleWrite [.eagain]] u ∧
      ¬ Kept [.append data, .handleWrite [.eagain]] u := by
  have hclipped : Clipped data.length 0 := by
    rw [hlength]
    decide
  refine ⟨_, .cons trivial rfl (.cons trivial rfl (.nil _)), fun hkept => ?_⟩
  have hstep : Output.step ⟨(Conn.fresh 5).append data, [] ++ data⟩ (.handleWrite [.eagain]) =
      some ⟨handleWrite (((Conn.fresh 5).append data).answers [.eagain]), [] ++ data⟩ := rfl
  have hexact := (step_conserved_iff hstep fun _ => rfl).mp fun herror => (hkept herror).1
  exact hexact rfl (fun hstate => nomatch hstate) 0 (taken_eagain _ _) hclipped

theorem run_not_kept :
    ¬ ∀ (c : Conn) (as bs : List OutputStep) (u : Output), bs <+: as →
      Run step (fun _ _ => True) (ofConn c) bs u → Kept bs u := by
  intro hclaim
  have hlength : (List.replicate (2 ^ 32) (0 : Byte)).length = 2 ^ 32 := List.length_replicate
  obtain ⟨u, hrun, hnot⟩ := eagain_not_kept hlength
  exact hnot (hclaim _ _ _ u List.prefix_rfl hrun)

end Output

end WebServer
