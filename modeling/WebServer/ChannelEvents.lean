import WebServer.HttpState
import WebServer.Stages

/-! `Channel::handleEvents`, over the handlers of the channel: each acts on the state the channel is part
of. No channel of the server has an error handler. -/

namespace WebServer

theorem EventMask.has_comm (a b : EventMask) : a.has b ↔ b.has a := by
  rw [EventMask.has, EventMask.has, BitVec.and_comm]

theorem EventMask.has_or (a b m : EventMask) : (a ||| b).has m ↔ a.has m ∨ b.has m := by
  have h : (a ||| b) &&& m = 0#32 ↔ a &&& m = 0#32 ∧ b &&& m = 0#32 := by
    rw [BitVec.and_or_distrib_right, BitVec.or_eq_zero_iff]
  exact (not_congr h).trans not_and_or

theorem EventMask.not_zero_has (m : EventMask) : ¬ EventMask.has 0 m := by
  simp [EventMask.has]

variable {m : Type → Type} [Monad m] {σ : Type}

/-- `Channel::handleEvents` on the events `revents`. -/
def handleEvents (revents : EventMask) (clearEvents : σ → σ) (handleRead handleWrite handleConn : σ → m σ)
    (c : σ) : m σ := do
  let c := clearEvents c
  if revents.has EPOLLHUP ∧ ¬ revents.has EPOLLIN then return clearEvents c
  else if revents.has EPOLLERR then return clearEvents c
  else
    let c ← if revents.has (EPOLLIN ||| EPOLLPRI ||| EPOLLRDHUP) then handleRead c else pure c
    let c ← if revents.has EPOLLOUT then handleWrite c else pure c
    handleConn c

/-- The events on which `handleEvents` returns before its handlers. -/
def EventMask.Ignored (revents : EventMask) : Prop :=
  (revents.has EPOLLHUP ∧ ¬ revents.has EPOLLIN) ∨ revents.has EPOLLERR

instance (revents : EventMask) : Decidable revents.Ignored := inferInstanceAs (Decidable (_ ∨ _))

theorem handleEvents_ignored {revents : EventMask} (h : revents.Ignored) (clearEvents : σ → σ)
    (handleRead handleWrite handleConn : σ → m σ) (c : σ) :
    handleEvents revents clearEvents handleRead handleWrite handleConn c =
      pure (clearEvents (clearEvents c)) := by
  unfold handleEvents
  by_cases hhup : revents.has EPOLLHUP ∧ ¬ revents.has EPOLLIN
  · exact if_pos hhup
  · exact (if_neg hhup).trans (if_pos (h.resolve_left hhup))

theorem handleEvents_handlers {revents : EventMask} (h : ¬ revents.Ignored) (clearEvents : σ → σ)
    (handleRead handleWrite handleConn : σ → m σ) (c : σ) :
    handleEvents revents clearEvents handleRead handleWrite handleConn c =
      (if revents.has (EPOLLIN ||| EPOLLPRI ||| EPOLLRDHUP) then handleRead (clearEvents c)
        else pure (clearEvents c)) >>= fun c =>
      (if revents.has EPOLLOUT then handleWrite c else pure c) >>= handleConn := by
  have hhup : ¬ (revents.has EPOLLHUP ∧ ¬ revents.has EPOLLIN) := fun hhup => h (Or.inl hhup)
  have herr : ¬ revents.has EPOLLERR := fun herr => h (Or.inr herr)
  simp only [handleEvents, if_neg hhup, if_neg herr]
  split_ifs <;> rfl

section Outcomes

open Stages

variable {ε ε' τ : Type} {revents : EventMask}

/-- The first handler runs on states with `P`, the others on states with `R`, and the last of them ends in
states with `Q`. -/
theorem handleEvents_steps {E : ε → Prop} {P R Q : σ → Prop} {clearEvents : σ → σ}
    {handleRead handleWrite handleConn : σ → Except ε σ}
    (hread : revents.has (EPOLLIN ||| EPOLLPRI ||| EPOLLRDHUP) → ∀ c, P c → Safe E R (handleRead c))
    (hskip : ¬ revents.has (EPOLLIN ||| EPOLLPRI ||| EPOLLRDHUP) → ∀ c, P c → R c)
    (hwrite : ∀ c, R c → Safe E R (handleWrite c)) (hconn : ∀ c, R c → Safe E Q (handleConn c))
    (hquit : revents.Ignored → ∀ c, P c → Q (clearEvents c)) {c : σ} (hc : P (clearEvents c)) :
    Safe E Q (handleEvents revents clearEvents handleRead handleWrite handleConn c) := by
  by_cases hignored : revents.Ignored
  · rw [handleEvents_ignored hignored]
    exact hquit hignored _ hc
  · rw [handleEvents_handlers hignored]
    refine Safe.bind (P := R) ?_ fun d hd => Safe.bind (P := R) ?_ hconn
    · split_ifs with hin
      · exact hread hin _ hc
      · exact hskip hin _ hc
    · split_ifs
      · exact hwrite d hd
      · exact hd

/-- The handlers run on states with `P`, and the last of them ends in states with `Q`. -/
theorem handleEvents_safe {E : ε → Prop} {P Q : σ → Prop} {clearEvents : σ → σ}
    {handleRead handleWrite handleConn : σ → Except ε σ}
    (hread : ∀ c, P c → Safe E P (handleRead c)) (hwrite : ∀ c, P c → Safe E P (handleWrite c))
    (hconn : ∀ c, P c → Safe E Q (handleConn c))
    (hquit : revents.Ignored → ∀ c, P c → Q (clearEvents c)) {c : σ} (hc : P (clearEvents c)) :
    Safe E Q (handleEvents revents clearEvents handleRead handleWrite handleConn c) :=
  handleEvents_steps (fun _ => hread) (fun _ _ h => h) hwrite hconn hquit hc

/-- The rule for a channel whose handlers always return. -/
theorem handleEvents_run {P Q : σ → Prop} {clearEvents handleRead handleWrite handleConn : σ → σ}
    (hclear : ∀ c, P c → P (clearEvents c)) (hread : ∀ c, P c → P (handleRead c))
    (hwrite : ∀ c, P c → P (handleWrite c)) (hconn : ∀ c, P c → Q (handleConn c)) (hquit : ∀ c, P c → Q c)
    {c : σ} (hc : P (clearEvents c)) :
    Q (Id.run (handleEvents (m := Id) revents clearEvents handleRead handleWrite handleConn c)) := by
  by_cases hignored : revents.Ignored
  · rw [handleEvents_ignored hignored]
    exact hquit _ (hclear _ hc)
  · rw [handleEvents_handlers hignored]
    apply hconn _
    split_ifs
    · exact hwrite _ (hread _ hc)
    · exact hwrite _ hc
    · exact hread _ hc
    · exact hc

/-- Two channels whose states stay related from handler to handler. -/
theorem handleEvents_sim {R S : σ → τ → Prop} {clear : σ → σ} {read write conn : σ → Except ε σ}
    {clear' : τ → τ} {read' write' conn' : τ → Except ε' τ}
    (hclear : ∀ c d, R c d → R (clear c) (clear' d))
    (hread : ∀ c d e, R c d → read c = .ok e → ∃ e', read' d = .ok e' ∧ R e e')
    (hwrite : ∀ c d e, R c d → write c = .ok e → ∃ e', write' d = .ok e' ∧ R e e')
    (hconn : ∀ c d e, R c d → conn c = .ok e → ∃ e', conn' d = .ok e' ∧ S e e')
    {c e : σ} {d : τ} (hcd : R c d) (hignored : ¬ revents.Ignored)
    (hrun : handleEvents revents clear read write conn c = .ok e) :
    ∃ e', handleEvents revents clear' read' write' conn' d = .ok e' ∧ S e e' := by
  have hpure {c c' : σ} {d : τ} (h : R c d) (hc : (pure c : Except ε σ) = .ok c') :
      ∃ d', (pure d : Except ε' τ) = .ok d' ∧ R c' d' := ⟨d, rfl, Except.ok.inj hc ▸ h⟩
  rw [handleEvents_handlers hignored] at hrun ⊢
  obtain ⟨c₁, hc₁, hrun⟩ := bind_eq_ok hrun
  obtain ⟨c₂, hc₂, hrun⟩ := bind_eq_ok hrun
  have hfirst : ∃ d₁, (if revents.has (EPOLLIN ||| EPOLLPRI ||| EPOLLRDHUP) then read' (clear' d)
      else pure (clear' d)) = .ok d₁ ∧ R c₁ d₁ := by
    split_ifs at hc₁ ⊢
    · exact hread _ _ _ (hclear c d hcd) hc₁
    · exact hpure (hclear c d hcd) hc₁
  obtain ⟨d₁, hd₁, h₁⟩ := hfirst
  have hsecond : ∃ d₂, (if revents.has EPOLLOUT then write' d₁ else pure d₁) = .ok d₂ ∧ R c₂ d₂ := by
    split_ifs at hc₂ ⊢
    · exact hwrite _ _ _ h₁ hc₂
    · exact hpure h₁ hc₂
  obtain ⟨d₂, hd₂, h₂⟩ := hsecond
  obtain ⟨e', he', h'⟩ := hconn _ _ _ h₂ hrun
  refine ⟨e', ?_, h'⟩
  rw [hd₁]
  exact (congrArg (· >>= conn') hd₂).trans he'

/-- A channel whose state is part of a larger one. -/
theorem handleEvents_map {f : τ → σ} {clear : τ → τ} {read write conn : τ → Except ε τ} {clear' : σ → σ}
    {read' write' conn' : σ → Except ε σ} (hclear : ∀ c, f (clear c) = clear' (f c))
    (hread : ∀ c, (read c).map f = read' (f c)) (hwrite : ∀ c, (write c).map f = write' (f c))
    (hconn : ∀ c, (conn c).map f = conn' (f c)) (c : τ) :
    (handleEvents revents clear read write conn c).map f =
      handleEvents revents clear' read' write' conn' (f c) := by
  by_cases hignored : revents.Ignored
  · rw [handleEvents_ignored hignored, handleEvents_ignored hignored, ← hclear, ← hclear]
    rfl
  · have hfirst (d : τ) : (if revents.has (EPOLLIN ||| EPOLLPRI ||| EPOLLRDHUP) then read d
        else pure d).map f = if revents.has (EPOLLIN ||| EPOLLPRI ||| EPOLLRDHUP) then read' (f d)
          else pure (f d) := by
      split_ifs
      · exact hread d
      · rfl
    have hsecond (d : τ) : (if revents.has EPOLLOUT then write d else pure d).map f =
        if revents.has EPOLLOUT then write' (f d) else pure (f d) := by
      split_ifs
      · exact hwrite d
      · rfl
    rw [handleEvents_handlers hignored, handleEvents_handlers hignored, ← hclear, ← hfirst]
    refine map_bind fun d => ?_
    rw [← hsecond]
    exact map_bind hconn

end Outcomes

end WebServer
