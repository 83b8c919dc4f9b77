import Mathlib.Logic.Relation
import WebServer.HttpHandleConn
import WebServer.HttpWireOrder

/-! The error responses of a connection. The handlers call `handleError` once at most, and then leave the
connection in error: neither is there a write after it, nor another error response. -/

namespace WebServer

open Stages

def Call.isError : Call → Bool
  | .handleError _ _ => true
  | _ => false

/-- How often `handleError` was called. -/
def Conn.errors (c : Conn) : Nat := c.calls.countP Call.isError

/-- Nothing was written, and there was no error response. -/
structure Mute (c d : Conn) : Prop where
  sent : d.sock.sent = c.sock.sent
  errors : d.errors = c.errors

theorem Mute.refl (c : Conn) : Mute c c := ⟨rfl, rfl⟩

theorem Mute.trans {c d e : Conn} (h : Mute c d) (h' : Mute d e) : Mute c e :=
  ⟨h'.sent.trans h.sent, h'.errors.trans h.errors⟩

theorem Mute.of_calls {c d : Conn} (hsent : d.sock.sent = c.sock.sent) {k : Call} (hk : k.isError = false)
    (hcalls : d.calls = c.calls ++ [k]) : Mute c d := by
  refine ⟨hsent, ?_⟩
  rw [Conn.errors, Conn.errors, hcalls, List.countP_append, List.countP_singleton, hk]
  rfl

/-- From the first state to the second the connection writes from its output buffer, as long as it is not
in error, and does nothing else that the peer could see. -/
def Writes : Conn → Conn → Prop :=
  Relation.ReflTransGen fun c d => Mute c d ∨ c.http.error = false ∧ d = handleWrite c

theorem Writes.of_mute {c d : Conn} (h : Mute c d) : Writes c d := .single (Or.inl h)

theorem Writes.mute {c d e : Conn} (h : Writes c d) (hde : Mute d e) : Writes c e := h.tail (Or.inl hde)

theorem Writes.write {c d : Conn} (h : Writes c d) (herror : d.http.error = false) :
    Writes c (handleWrite d) := h.tail (Or.inr ⟨herror, rfl⟩)

theorem Writes.errors {c d : Conn} (h : Writes c d) : d.errors = c.errors := by
  induction h with
  | refl => rfl
  | tail _ hstep ih =>
      obtain hmute | ⟨-, rfl⟩ := hstep
      · exact hmute.errors.trans ih
      · rw [Conn.errors, handleWrite_calls]
        exact ih

/-- The error response was the last that was written. -/
structure Refused (c d : Conn) : Prop where
  errors : d.errors = c.errors + 1
  last : ∃ m e errNum shortMsg, Writes c m ∧ handleError m errNum shortMsg = .ok e ∧
    d.sock.sent = e.sock.sent

theorem Refused.mute {c d e : Conn} (h : Refused c d) (hde : Mute d e) : Refused c e := by
  obtain ⟨m, r, errNum, shortMsg, hm, hr, hsent⟩ := h.last
  exact ⟨hde.errors.trans h.errors, m, r, errNum, shortMsg, hm, hr, hde.sent.trans hsent⟩

theorem Refused.of_writes {c d e : Conn} (hcd : Writes c d) (h : Refused d e) : Refused c e := by
  obtain ⟨m, r, errNum, shortMsg, hm, hr, hsent⟩ := h.last
  exact ⟨h.errors.trans (congrArg (· + 1) hcd.errors), m, r, errNum, shortMsg, hcd.trans hm, hr, hsent⟩

/-- What may have become of a connection that was not in error: it has written, or it is in error after an
error response. -/
def Progress (c d : Conn) : Prop := Writes c d ∨ d.http.error = true ∧ Refused c d

/-- A change that nobody sees, and that does not end the error. -/
theorem Progress.mute {c d e : Conn} (h : Progress c d) (hde : Mute d e)
    (herror : e.http.error = d.http.error) : Progress c e := by
  rcases h with hwrites | ⟨hd, hrefused⟩
  · exact Or.inl (hwrites.mute hde)
  · exact Or.inr ⟨herror.trans hd, hrefused.mute hde⟩

theorem Progress.writes {c d : Conn} (h : Progress c d) (herror : d.http.error = false) : Writes c d := by
  rcases h with hwrites | ⟨hd, -⟩
  · exact hwrites
  · exact absurd (herror.symm.trans hd) (by decide)

theorem Progress.after {c d e : Conn} (h : Progress d e) (hcd : Writes c d) : Progress c e := by
  rcases h with hwrites | ⟨he, hrefused⟩
  · exact Or.inl (hcd.trans hwrites)
  · exact Or.inr ⟨he, hrefused.of_writes hcd⟩

/-- There is no write in error. -/
theorem Progress.write {c d : Conn} (h : Progress c d) : Progress c (handleWrite d) := by
  cases herror : d.http.error with
  | false => exact Or.inl ((h.writes herror).write herror)
  | true =>
      rw [handleWrite_closed fun hopen => absurd (herror.symm.trans hopen.1) (by decide)]
      exact h

theorem Progress.errors_le {c d : Conn} (h : Progress c d) : d.errors ≤ c.errors + 1 := by
  rcases h with hwrites | ⟨-, hrefused⟩
  · rw [hwrites.errors]
    exact Nat.le_succ _
  · exact hrefused.errors.le

theorem refused_after {c d : Conn} {errNum : Nat} {shortMsg : Bytes} (hcd : Mute c d)
    (hshort : ShortMsg errNum shortMsg) : Refused c (refused d errNum shortMsg) := by
  refine ⟨?_, d, _, errNum, shortMsg, .of_mute hcd, handleError_ok hshort, rfl⟩
  rw [← hcd.errors, Conn.errors, Conn.errors, refused, List.countP_append]
  rfl

/-- A section that goes on has not been seen, and one that breaks out may have answered. -/
def Orderly (s : Section) : Prop :=
  s.Leads (fun c d => c.http.error = false → d.http.error = false ∧ Mute c d)
    (fun c d => c.http.error = false → Progress c d)

theorem Orderly.seq {first second : Section} (hfirst : Orderly first) (hsecond : Orderly second) :
    Orderly (first.seq second) := by
  refine Stage.Leads.seq (fun c d e hcd hde herror => ?_) (fun c d e hcd hde herror => ?_) hfirst hsecond
  · obtain ⟨hd, hmute⟩ := hcd herror
    obtain ⟨he, hmute'⟩ := hde hd
    exact ⟨he, hmute.trans hmute'⟩
  · obtain ⟨hd, hmute⟩ := hcd herror
    exact (hde hd).after (.of_mute hmute)

theorem Parses.mute {c d : Conn} (h : Parses c d) : Mute c d :=
  ⟨h.sent, congrArg (List.countP Call.isError) h.calls⟩

theorem Rejects.progress {c d : Conn} (h : Rejects c d) : Progress c d := by
  obtain ⟨m, shortMsg, hshort, hm, rfl⟩ := h
  have hset : Mute c { m with http.error := true } := ⟨hm.mute.sent, hm.mute.errors⟩
  exact Or.inr ⟨rfl, refused_after hset hshort⟩

theorem Parsing.orderly {s : Section} (hs : Parsing s) : Orderly s :=
  hs.imp (fun _ _ h herror => ⟨h.error.trans herror, h.mute⟩) fun _ _ h _ =>
    h.elim (fun h => Or.inl (.of_mute h.mute)) Rejects.progress

theorem answered_mute (c : Conn) (keepAlive : Bool) (outBuffer : Bytes) :
    Mute c (answered c keepAlive outBuffer) := ⟨rfl, rfl⟩

theorem notFoundMsg_short (file : FileState) : ShortMsg 404 (notFoundMsg file) := by
  unfold notFoundMsg
  split_ifs
  · exact shortMsg_notFound
  · exact shortMsg_notFount

/-- `analysisRequest` calls `handleError` just if it refuses the file, and then fails. -/
theorem analysisRequest_orderly {fs : FileSystem} {c d : Conn} {flag : AnalysisState}
    (hrun : analysisRequest fs c = .ok (flag, d)) :
    Mute c d ∨ flag = .error ∧ Refused c d := by
  rcases analysisRequest_results fs c with ⟨-, h⟩ | ⟨-, -, h⟩ | ⟨-, -, -, h⟩ | ⟨-, -, -, -, -, h⟩
  · cases h.symm.trans hrun
    exact Or.inl (.refl c)
  · cases h.symm.trans hrun
    exact Or.inl ⟨rfl, rfl⟩
  · cases h.symm.trans hrun
    exact Or.inl ⟨rfl, rfl⟩
  · cases h.symm.trans hrun
    exact Or.inr ⟨rfl, refused_after (answered_mute c _ _) (notFoundMsg_short _)⟩

theorem analysisSection_orderly (fs : FileSystem) : Orderly (analysisSection fs) := by
  intro c flow e hrun
  unfold analysisSection at hrun
  split_ifs at hrun
  · obtain ⟨⟨flag, d⟩, hanalysis, hrun⟩ := bind_eq_ok hrun
    simp only [] at hrun
    split_ifs at hrun with hflag
    · cases hrun
      rcases analysisRequest_orderly hanalysis with hmute | ⟨hfailed, -⟩
      · exact fun _ => Or.inl (.of_mute ⟨hmute.sent, hmute.errors⟩)
      · rw [hfailed] at hflag
        cases hflag
    · cases hrun
      have hset : Mute d { d with http.error := true } := ⟨rfl, rfl⟩
      rcases analysisRequest_orderly hanalysis with hmute | ⟨-, hrefused⟩
      · exact fun _ => Or.inl (.of_mute (hmute.trans hset))
      · exact fun _ => Or.inr ⟨rfl, hrefused.mute hset⟩
  · cases hrun
    exact fun herror => ⟨herror, .refl c⟩

theorem handleReadBody_orderly (host : Host) : Orderly (handleReadBody host) :=
  (readSection_parsing host).orderly.seq <| (uriSection_parsing host).orderly.seq <|
    (headersSection_parsing host).orderly.seq <| bodySection_parsing.orderly.seq <|
      analysisSection_orderly host.files

theorem handleReadPass_progress {host : Host} {c e : Conn} (herror : c.http.error = false)
    (hrun : handleReadPass host c = .ok e) : Progress c e := by
  obtain ⟨flow, d, hbody, hend⟩ := handleReadPass_cases hrun
  have hd : Progress c d := by
    have hleads := handleReadBody_orderly host c flow d hbody
    cases flow with
    | next => exact Or.inl (.of_mute (hleads herror).2)
    | brk => exact hleads herror
  obtain ⟨-, rfl⟩ | ⟨-, rfl⟩ := hend
  · exact hd
  · exact hd.write

/-- `handleRead` of a connection that is not in error. -/
theorem handleRead_progress {host : Host} {c d e : Conn} (hcd : Writes c d)
    (herror : d.http.error = false) (hrun : handleRead host d = .ok e) : Progress c e := by
  have hreset (d : Conn) : Mute d (reset d) := .of_calls rfl (k := .clearTimer) rfl rfl
  have hread : d.http.error = false → Progress d e := by
    refine handleReadN_rule (R := fun c d => c.http.error = false → Progress c d) ?_ ?_ ?_ ?_ hrun
    · intro c d hpass herror
      exact handleReadPass_progress herror hpass
    · intro c d h herror
      exact (h herror).mute (hreset d) rfl
    · intro c d h herror
      exact (h herror).mute ⟨rfl, rfl⟩ rfl
    · intro c d e h hd h' herror
      exact (h' hd).after ((h herror).writes hd)
  exact (hread herror).after hcd

theorem handleConn_mute (c : Conn) :
    Mute c (handleConn c) ∧ (handleConn c).http.error = c.http.error := by
  have hfirst : Mute c (seperateTimer c) := .of_calls rfl (k := .clearTimer) rfl rfl
  unfold handleConn
  simp only []
  split_ifs
  any_goals exact ⟨hfirst.trans (.of_calls rfl (k := .updatePoller _) rfl rfl), rfl⟩
  · exact ⟨⟨hfirst.sent, hfirst.errors⟩, rfl⟩
  · exact ⟨hfirst.trans (.of_calls rfl (k := .handleClose) rfl rfl), rfl⟩

/-- In error, `handleConn` closes. -/
theorem handleConn_refused {c : Conn} (herror : c.http.error = true) :
    handleConn c = { c with calls := c.calls ++ [.clearTimer, .handleClose] } := by
  have hnot : ¬ c.http.error = false := by
    rw [herror]
    exact Bool.noConfusion
  exact handleConn_closes (fun h => hnot h.1) fun h => hnot h.1

end WebServer
