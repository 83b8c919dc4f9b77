import WebServer.EpollWorker

/-! The clock of `TimerNode`: the wall clock, of whose seconds only the last four digits count. A
deadline that lies behind the end of such a period is never reached, and one that has passed is not
noticed while the next period is younger than it. -/

namespace WebServer

/-- A clock that shows times modulo its period finds `b` before the deadline `a + d` for longer than it is: by
a period for each time that it has started again from `a` to `b`. -/
theorem wrapped_lt_iff {p a b d : Nat} (hle : a ≤ b) :
    b % p < a % p + d ↔ b < a + d + p * (b / p - a / p) := by
  have ha := Nat.div_add_mod a p
  have hb := Nat.div_add_mod b p
  have hperiods : p * (a / p) ≤ p * (b / p) := Nat.mul_le_mul_left p (Nat.div_le_div_right hle)
  rw [Nat.mul_sub]
  omega

/-- `timeval`, of the time since the Epoch. -/
structure Timeval where
  sec : Nat
  usec : Nat
  usec_lt : usec < 1000000

namespace Timeval

def micros (t : Timeval) : Nat := t.sec * 1000000 + t.usec

def millis (t : Timeval) : Nat := t.sec * 1000 + t.usec / 1000

/-- `((now.tv_sec % 10000) * 1000) + (now.tv_usec / 1000)`. -/
def clock (t : Timeval) : Nat := t.sec % 10000 * 1000 + t.usec / 1000

theorem clock_eq (t : Timeval) : t.clock = t.millis % 10000000 := by
  have husec := t.usec_lt
  unfold clock millis
  omega

theorem millis_div (t : Timeval) : t.millis / 10000000 = t.sec / 10000 := by
  have husec := t.usec_lt
  unfold millis
  omega

theorem clock_lt (t : Timeval) : t.clock < 10000000 := by
  have husec := t.usec_lt
  unfold clock
  omega

/-- How often the clock starts again from the first time to the second. -/
def wraps (t t₂ : Timeval) : Nat := t₂.sec / 10000 - t.sec / 10000

theorem millis_eq (t : Timeval) : t.millis = t.micros / 1000 := by
  unfold millis micros
  omega

theorem millis_le {t t₂ : Timeval} (hle : t.micros ≤ t₂.micros) : t.millis ≤ t₂.millis := by
  rw [millis_eq, millis_eq]
  exact Nat.div_le_div_right hle

end Timeval

namespace TimerNode

/-- The constructor of `TimerNode`; the sum is stored as a `size_t`. -/
def new (requestData : Option Nat) (timeout : Int32) (now : Timeval) : TimerNode where
  deleted := false
  expiredTime := ((now.clock + timeout.toInt) % 2 ^ 64).toNat
  requestData := requestData

/-- `TimerNode::isValid`. -/
def isValid (node : TimerNode) (now : Timeval) : Bool × TimerNode :=
  if now.clock < node.expiredTime then (true, node) else (false, { node with deleted := true })

variable {requestData : Option Nat} {timeout : Int32} {t t₂ : Timeval}

theorem new_expiredTime (requestData : Option Nat) (t : Timeval) (htimeout : 0 < timeout.toInt) :
    ((new requestData timeout t).expiredTime : Int) = t.clock + timeout.toInt := by
  have hclock := t.clock_lt
  have hmax := timeout.toInt_lt
  rw [new, Int.emod_eq_of_lt (by omega) (by omega), Int.toNat_of_nonneg (by omega)]

theorem isValid_eq_true {node : TimerNode} : (node.isValid t).1 = true ↔ t.clock < node.expiredTime := by
  unfold isValid
  split_ifs with h <;> simp [h]

/-- **The timer's arithmetic.** A node is valid just before its deadline, except in the time that begins at the
deadline and lasts ten thousand seconds for each start of the clock since the node was made. -/
theorem isValid_new_iff (htimeout : 0 < timeout.toInt) (hle : t.micros ≤ t₂.micros) :
    (((new requestData timeout t).isValid t₂).1 = true ↔ (t₂.millis : Int) < t.millis + timeout.toInt) ↔
      ¬ (t.millis + timeout.toInt ≤ t₂.millis ∧
        t₂.millis < t.millis + timeout.toInt + 10000000 * t.wraps t₂) := by
  obtain ⟨d, hd⟩ := Int.eq_ofNat_of_zero_le (Int.le_of_lt htimeout)
  have hexpired := new_expiredTime requestData t htimeout
  have hwrapped := wrapped_lt_iff (p := 10000000) (d := d) (Timeval.millis_le hle)
  rw [← Timeval.clock_eq, ← Timeval.clock_eq, Timeval.millis_div, Timeval.millis_div, ← Timeval.wraps] at hwrapped
  have hvalid : ((new requestData timeout t).isValid t₂).1 = true ↔
      t₂.millis < t.millis + d + 10000000 * t.wraps t₂ := by
    rw [isValid_eq_true, ← hwrapped]
    omega
  rw [hvalid, hd]
  omega

/-- A timeout of two seconds, set a second before the end of a period, is not noticed three seconds
later. -/
theorem isValid_new_wraps :
    ∃ (timeout : Int32) (t t₂ : Timeval), 0 < timeout.toInt ∧ t.micros ≤ t₂.micros ∧
      ((new none timeout t).isValid t₂).1 = true ∧ ¬ (t₂.millis : Int) < t.millis + timeout.toInt :=
  ⟨2000, ⟨9999, 0, by decide⟩, ⟨10002, 0, by decide⟩, by decide⟩

theorem isValid_new_iff_wraps :
    ¬ (((new none 2000 ⟨9999, 0, by decide⟩).isValid ⟨10002, 0, by decide⟩).1 = true ↔
      ((⟨10002, 0, by decide⟩ : Timeval).millis : Int) <
        (⟨9999, 0, by decide⟩ : Timeval).millis + (2000 : Int32).toInt) :=
  fun h => absurd ((isValid_new_iff (by decide) (by decide)).mp h) (by decide)

/-- A deadline behind the end of the period is never reached. -/
theorem isValid_forever {node : TimerNode} (hlate : 10000000 ≤ node.expiredTime) (now : Timeval) :
    (node.isValid now).1 = true :=
  isValid_eq_true.mpr (now.clock_lt.trans_le hlate)

end TimerNode

namespace Worker

/-- `addTimer` of the worker makes such a node. -/
theorem addTimer_timers (s : Worker) (id : Nat) {timeout : Int32} (htimeout : 0 < timeout.toInt)
    (now : Timeval) :
    (s.addTimer id timeout.toInt now.clock).timers =
      s.timers.set s.timersMade (.new (some id) timeout now) := by
  have hexpired := TimerNode.new_expiredTime (some id) now htimeout
  have hdeadline : now.clock + timeout.toInt.toNat = (TimerNode.new (some id) timeout now).expiredTime := by
    omega
  rw [addTimer, hdeadline]
  rfl

/-- The sweep of the worker drops a node that is deleted, or no longer valid. -/
theorem sweep_isValid (node : TimerNode) (now : Timeval) :
    node.deleted ∨ node.expiredTime ≤ now.clock ↔ node.deleted ∨ (node.isValid now).1 = false := by
  rw [← Bool.not_eq_true, TimerNode.isValid_eq_true, Nat.not_lt]

end Worker

end WebServer
