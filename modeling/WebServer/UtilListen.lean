import Mathlib.Logic.Function.Basic
import Mathlib.Data.List.Nodup
import Mathlib.Data.List.Basic

/-! The calls that open the descriptors of the process while it starts. What the kernel answers is given for
each call by its number; a descriptor it hands out is not in use. `socket_bind_listen` closes the socket again
on each way out but the last. -/

namespace WebServer

/-- What a socket has been made to be. -/
structure SocketState where
  reuseAddr : Bool
  port : Option Int
  listening : Bool
  nonBlocking : Bool
  deriving DecidableEq

inductive Descriptor where
  | epoll
  | event
  | socket (state : SocketState)
  | other
  deriving DecidableEq

/-- The descriptors of the process, and the system calls made so far. -/
structure Process where
  fds : Nat → Option Descriptor
  calls : Nat
  ignoresSigpipe : Bool

/-- The answers to the system calls, by their numbers. -/
structure Kernel where
  /-- The descriptor a call makes, by those in use. -/
  makes : Nat → (Nat → Option Descriptor) → Option Nat
  makes_free : ∀ n fds fd, makes n fds = some fd → fds fd = none
  /-- Whether another call succeeds. -/
  grants : Nat → Bool

namespace Process

/-- A call that makes a descriptor, or returns `-1`. -/
def make (k : Kernel) (d : Descriptor) (p : Process) : Int × Process :=
  match k.makes p.calls p.fds with
  | some fd => (fd, { p with fds := Function.update p.fds fd (some d), calls := p.calls + 1 })
  | none => (-1, { p with calls := p.calls + 1 })

/-- A call that changes no descriptor. -/
def call (k : Kernel) (p : Process) : Bool × Process := (k.grants p.calls, { p with calls := p.calls + 1 })

/-- A call about a socket, which fails for what is none. -/
def socketCall (k : Kernel) (fd : Int) (change : SocketState → SocketState) (p : Process) : Int × Process :=
  match if 0 ≤ fd then p.fds fd.toNat else none with
  | some (.socket state) =>
      if k.grants p.calls then
        (0, { p with
          fds := Function.update p.fds fd.toNat (some (.socket (change state)))
          calls := p.calls + 1 })
      else (-1, { p with calls := p.calls + 1 })
  | _ => (-1, { p with calls := p.calls + 1 })

def close (p : Process) (fd : Int) : Process := { p with fds := Function.update p.fds fd.toNat none }

end Process

/-- A call about the listening socket. Where it fails, the socket is closed. -/
def orClose (k : Kernel) (listenFd : Int) (change : SocketState → SocketState)
    (next : Process → Int × Process) (p : Process) : Int × Process :=
  let (rt, p) := p.socketCall k listenFd change
  if rt = -1 then (-1, p.close listenFd) else next p

/-- `socket_bind_listen`: `setsockopt`, `bind` and `listen`. -/
def socketBindListen (k : Kernel) (port : Int) (p : Process) : Int × Process :=
  if port < 0 ∨ 65535 < port then (-1, p)
  else
    let (listenFd, p) := p.make k (.socket ⟨false, none, false, false⟩)
    if listenFd = -1 then (-1, p)
    else
      orClose k listenFd (fun s => { s with reuseAddr := true })
        (orClose k listenFd (fun s => { s with port := some port })
          (orClose k listenFd (fun s => { s with listening := true }) fun p =>
            if listenFd = -1 then (-1, p.close listenFd) else (listenFd, p))) p

/-- `handle_for_sigpipe`. -/
def handleForSigpipe (k : Kernel) (p : Process) : Process :=
  let (granted, p) := p.call k
  if granted then { p with ignoresSigpipe := true } else p

/-- `setSocketNonBlocking`: `F_GETFL` and `F_SETFL`. -/
def setSocketNonBlocking (k : Kernel) (fd : Int) (p : Process) : Int × Process :=
  let (flag, p) := p.socketCall k fd id
  if flag = -1 then (-1, p)
  else
    let (rt, p) := p.socketCall k fd fun s => { s with nonBlocking := true }
    if rt = -1 then (-1, p) else (0, p)

/-- The descriptors were opened on the way from one process to the other, which is otherwise as it was. -/
structure Opens (p : Process) (made : List Nat) (q : Process) : Prop where
  nodup : made.Nodup
  unused : ∀ fd ∈ made, p.fds fd = none
  used : ∀ fd ∈ made, q.fds fd ≠ none
  others : ∀ fd, fd ∉ made → q.fds fd = p.fds fd

section

variable {k : Kernel} {p q r : Process} {made later : List Nat} {fd : Nat} {state : SocketState}

namespace Opens

theorem of_eq (h : q.fds = p.fds) : Opens p [] q where
  nodup := List.nodup_nil
  unused _ hnil := by cases hnil
  used _ hnil := by cases hnil
  others fd _ := congrFun h fd

theorem trans (hp : Opens p made q) (hq : Opens q later r) : Opens p (made ++ later) r where
  nodup := by
    refine List.nodup_append.mpr ⟨hp.nodup, hq.nodup, fun a ha b hb hab => ?_⟩
    subst hab
    exact hp.used a ha (hq.unused a hb)
  unused fd hfd := by
    rcases List.mem_append.mp hfd with hmade | hlater
    · exact hp.unused fd hmade
    · by_cases hmade : fd ∈ made
      · exact hp.unused fd hmade
      · rw [← hp.others fd hmade]
        exact hq.unused fd hlater
  used fd hfd := by
    by_cases hlater : fd ∈ later
    · exact hq.used fd hlater
    · rw [hq.others fd hlater]
      exact hp.used fd ((List.mem_append.mp hfd).resolve_right hlater)
  others fd hfd := by
    obtain ⟨hmade, hlater⟩ := not_or.mp fun h => hfd (List.mem_append.mpr h)
    rw [hq.others fd hlater, hp.others fd hmade]

/-- What a descriptor is stays, as it is not made again. -/
theorem kept (h : Opens p made q) {d : Descriptor} (hd : p.fds fd = some d) : q.fds fd = some d := by
  rw [h.others fd ?_, hd]
  intro hmade
  rw [h.unused fd hmade] at hd
  cases hd

end Opens

theorem make_cases (k : Kernel) (d : Descriptor) (p : Process) :
    (p.make k d).1 = -1 ∧ (p.make k d).2.fds = p.fds ∨
      ∃ fd : Nat, (p.make k d).1 = fd ∧ p.fds fd = none ∧
        (p.make k d).2.fds = Function.update p.fds fd (some d) := by
  unfold Process.make
  split
  · rename_i fd hmakes
    exact Or.inr ⟨fd, rfl, k.makes_free _ _ fd hmakes, rfl⟩
  · exact Or.inl ⟨rfl, rfl⟩

theorem opens_update {d : Descriptor} (hunused : p.fds fd = none)
    (hfds : q.fds = Function.update p.fds fd (some d)) : Opens p [fd] q where
  nodup := List.nodup_singleton fd
  unused a ha := by rwa [List.mem_singleton.mp ha]
  used a ha := by
    rw [List.mem_singleton.mp ha, hfds, Function.update_self]
    simp
  others a ha := by
    rw [hfds, Function.update_of_ne fun h => ha (List.mem_singleton.mpr h)]

theorem socketCall_cases (k : Kernel) (change : SocketState → SocketState)
    (hfd : p.fds fd = some (.socket state)) :
    (p.socketCall k fd change).1 = -1 ∧ (p.socketCall k fd change).2.fds = p.fds ∨
      (p.socketCall k fd change).1 = 0 ∧
        (p.socketCall k fd change).2.fds = Function.update p.fds fd (some (.socket (change state))) := by
  unfold Process.socketCall
  rw [if_pos (Int.natCast_nonneg fd), Int.toNat_natCast, hfd]
  dsimp only
  split_ifs
  · exact Or.inr ⟨rfl, rfl⟩
  · exact Or.inl ⟨rfl, rfl⟩

/-- A failure leaves nothing open of the socket; otherwise the calls go on with what was changed. -/
theorem orClose_cases (k : Kernel) (change : SocketState → SocketState) (next : Process → Int × Process)
    (hunused : p.fds fd = none) (hq : q.fds = Function.update p.fds fd (some (.socket state))) :
    (orClose k fd change next q).1 = -1 ∧ (orClose k fd change next q).2.fds = p.fds ∨
      ∃ r, orClose k fd change next q = next r ∧
        r.fds = Function.update p.fds fd (some (.socket (change state))) := by
  have hfd : q.fds fd = some (.socket state) := by rw [hq, Function.update_self]
  unfold orClose
  dsimp only
  rcases socketCall_cases k change hfd with ⟨hrt, hfds⟩ | ⟨hrt, hfds⟩
  · left
    rw [if_pos hrt]
    refine ⟨rfl, ?_⟩
    rw [Process.close, hfds, Int.toNat_natCast, hq, Function.update_idem, ← hunused, Function.update_eq_self]
  · right
    rw [if_neg (by omega)]
    exact ⟨_, rfl, by rw [hfds, hq, Function.update_idem]⟩

/-- **The listening socket.** It is bound to the port and listens, or every descriptor is as it was. -/
theorem socketBindListen_cases (k : Kernel) (port : Int) (p : Process) :
    (socketBindListen k port p).1 = -1 ∧ (socketBindListen k port p).2.fds = p.fds ∨
      ∃ fd : Nat, (socketBindListen k port p).1 = fd ∧ p.fds fd = none ∧ 0 ≤ port ∧ port ≤ 65535 ∧
        (socketBindListen k port p).2.fds =
          Function.update p.fds fd (some (.socket ⟨true, some port, true, false⟩)) := by
  unfold socketBindListen
  split_ifs with hport
  · exact Or.inl ⟨rfl, rfl⟩
  dsimp only
  rcases make_cases k (.socket ⟨false, none, false, false⟩) p with ⟨hfailed, hfds⟩ | ⟨fd, hmade, hunused, hfds⟩
  · rw [if_pos hfailed]
    exact Or.inl ⟨rfl, hfds⟩
  rw [hmade, if_neg (by omega)]
  rcases orClose_cases k (fun s => { s with reuseAddr := true }) _ hunused hfds with hclosed | ⟨q, hq, hqfds⟩
  · exact Or.inl hclosed
  rw [hq]
  rcases orClose_cases k (fun s => { s with port := some port }) _ hunused hqfds with hclosed | ⟨r, hr, hrfds⟩
  · exact Or.inl hclosed
  rw [hr]
  rcases orClose_cases k (fun s => { s with listening := true }) _ hunused hrfds with hclosed | ⟨t, ht, htfds⟩
  · exact Or.inl hclosed
  rw [ht]
  exact Or.inr ⟨fd, rfl, hunused, by omega, by omega, htfds⟩

theorem handleForSigpipe_fds (k : Kernel) (p : Process) : (handleForSigpipe k p).fds = p.fds := by
  unfold handleForSigpipe
  dsimp only
  split_ifs <;> rfl

/-- Of what is no socket, nothing can be set. -/
theorem setSocketNonBlocking_neg (k : Kernel) (p : Process) : (setSocketNonBlocking k (-1) p).1 < 0 := by
  have hcall : (p.socketCall k (-1) id).1 = -1 := rfl
  unfold setSocketNonBlocking
  dsimp only
  rw [if_pos hcall]
  exact Int.negSucc_lt_zero 0

theorem setSocketNonBlocking_cases (k : Kernel) (hfd : p.fds fd = some (.socket state)) :
    (setSocketNonBlocking k fd p).1 < 0 ∨ (setSocketNonBlocking k fd p).2.fds =
      Function.update p.fds fd (some (.socket { state with nonBlocking := true })) := by
  unfold setSocketNonBlocking
  dsimp only
  rcases socketCall_cases k id hfd with ⟨hflag, -⟩ | ⟨hflag, hfds⟩
  · rw [if_pos hflag]
    exact Or.inl (Int.negSucc_lt_zero 0)
  rw [if_neg (by omega)]
  have hsame : (p.socketCall k fd id).2.fds fd = some (.socket state) := by
    rw [hfds, Function.update_self]
    rfl
  rcases socketCall_cases k (fun s => { s with nonBlocking := true }) hsame with ⟨hrt, -⟩ | ⟨hrt, hset⟩
  · rw [if_pos hrt]
    exact Or.inl (Int.negSucc_lt_zero 0)
  · rw [if_neg (by omega)]
    exact Or.inr (by rw [hset, hfds, Function.update_idem])

end

end WebServer
