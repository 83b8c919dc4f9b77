import WebServer.Runs

/-! The abstract first-in first-out transfer: elements are put at the back of what is held and
taken from its front, one by one or in blocks. What was taken followed by what is held is then the
sequence of all elements put, so nothing is lost, repeated or reordered. A machine refines the
transfer when each of its steps acts on its view as one put followed by one take. -/

namespace Fifo

open Runs

variable {σ α β : Type*}

/-- What was taken so far, and what is held. -/
structure Transfer (β : Type*) where
  taken : List β
  held : List β

namespace Transfer

def put (q : Transfer β) (xs : List β) : Transfer β := { q with held := q.held ++ xs }

def take (q : Transfer β) (n : Nat) : Transfer β := ⟨q.taken ++ q.held.take n, q.held.drop n⟩

def content (q : Transfer β) : List β := q.taken ++ q.held

theorem put_nil (q : Transfer β) : q.put [] = q := by
  simp only [put, List.append_nil]

theorem take_zero (q : Transfer β) : q.take 0 = q := by
  simp only [take, List.take_zero, List.append_nil, List.drop_zero]

theorem content_put (q : Transfer β) (xs : List β) : (q.put xs).content = q.content ++ xs := by
  simp only [content, put, List.append_assoc]

theorem content_take (q : Transfer β) (n : Nat) : (q.take n).content = q.content := by
  simp only [content, take, List.append_assoc, List.take_append_drop]

end Transfer

/-- Each step of the machine puts the elements its label names and takes some number of them. -/
def Refines (step : σ → α → Option σ) (ok : σ → α → Prop) (view : σ → Transfer β)
    (puts : α → List β) : Prop :=
  ∀ s a s', ok s a → step s a = some s' → ∃ n, view s' = ((view s).put (puts a)).take n

variable {step : σ → α → Option σ} {ok : σ → α → Prop} {view : σ → Transfer β}
  {puts : α → List β}

/-- **Conservation.** Taken followed by held is the sequence of all elements put. -/
theorem Refines.content_eq (href : Refines step ok view puts) {s t : σ} {as : List α}
    (hrun : Run step ok s as t) : (view t).content = (view s).content ++ as.flatMap puts := by
  induction hrun with
  | nil => simp
  | cons hok hstep _ ih =>
      obtain ⟨n, hn⟩ := href _ _ _ hok hstep
      rw [ih, hn, Transfer.content_take, Transfer.content_put, List.flatMap_cons,
        List.append_assoc]

/-- From an empty transfer, the elements taken are a prefix of the elements put. -/
theorem Refines.taken_prefix_puts (href : Refines step ok view puts) {s t : σ} {as : List α}
    (hrun : Run step ok s as t) (hs : (view s).content = []) :
    (view t).taken <+: as.flatMap puts := by
  have hcontent := href.content_eq hrun
  rw [hs, List.nil_append] at hcontent
  exact ⟨(view t).held, hcontent⟩

end Fifo
