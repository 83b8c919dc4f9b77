import WebServer.EpollSweep
import WebServer.PriorityQueue
import WebServer.TimerClock

/-! The sweep over the queue of timer nodes, with its own readings of the clock. It closes the connection
of every live node it pops, once, and leaves no node that was due when the clock was last read. The sweep
of the worker is this one, for any queue that holds the worker's nodes. -/

namespace WebServer

open Runs Stages

/-- `TimerCmp`. -/
def timerCmp (a b : TimerNode) : Bool := decide (a.expiredTime > b.expiredTime)

theorem timerCmp_eq_false {a b : TimerNode} : timerCmp a b = false ↔ a.expiredTime ≤ b.expiredTime := by
  rw [timerCmp, decide_eq_false_iff_not, Nat.not_lt]

instance : Std.Total fun a b => timerCmp a b = false :=
  ⟨fun a b => by simpa only [timerCmp_eq_false] using Nat.le_total a.expiredTime b.expiredTime⟩

instance : IsTrans TimerNode fun a b => timerCmp a b = false :=
  ⟨fun a b c => by simpa only [timerCmp_eq_false] using Nat.le_trans⟩

namespace TimerNode

/-- `clearReq`. -/
def clearReq (node : TimerNode) : TimerNode := { node with requestData := none, deleted := true }

/-- `~TimerNode`: the connections whose `handleClose` it calls. -/
def destroy (node : TimerNode) : List Nat := node.requestData.toList

/-- The node is deleted, or holds a connection; this is what the constructor and `clearReq` make. -/
def Proper (node : TimerNode) : Prop := node.deleted = true ↔ node.requestData = none

instance (node : TimerNode) : Decidable node.Proper := inferInstanceAs (Decidable (_ ↔ _))

theorem Proper.live {node : TimerNode} (hproper : node.Proper) {id : Nat}
    (hdata : node.requestData = some id) : node.deleted = false := by
  cases hdeleted : node.deleted with
  | false => rfl
  | true => cases hdata.symm.trans (hproper.mp hdeleted)

theorem new_proper (id : Nat) (timeout : Int32) (now : Timeval) : (new (some id) timeout now).Proper :=
  iff_of_false Bool.false_ne_true (Option.some_ne_none id)

theorem clearReq_proper (node : TimerNode) : node.clearReq.Proper := iff_of_true rfl rfl

theorem isValid_of_due {node : TimerNode} {now : Timeval} (hdue : node.expiredTime ≤ now.clock) :
    node.isValid now = (false, { node with deleted := true }) := if_neg (Nat.not_lt.mpr hdue)

theorem isValid_of_lt {node : TimerNode} {now : Timeval} (hlt : now.clock < node.expiredTime) :
    node.isValid now = (true, node) := if_pos hlt

end TimerNode

/-- What a call of `handleExpiredEvent` leaves, and what it has done. -/
structure Sweep (Q : Type*) where
  queue : Q
  /-- The nodes popped, each with the reading `isValid` took for it. -/
  popped : List (TimerNode × Option Timeval)
  /-- The connections whose `handleClose` was called. -/
  closed : List Nat
  /-- The readings `isValid` took. -/
  readings : List Timeval

/-- A round before the others, in which `node` is popped. At its end it is destroyed, as it then is. -/
def Sweep.after {Q : Type*} (r : Sweep Q) (node destroyed : TimerNode) (reading : Option Timeval) :
    Sweep Q where
  queue := r.queue
  popped := (node, reading) :: r.popped
  closed := destroyed.destroy ++ r.closed
  readings := reading.toList ++ r.readings

section Queue

variable {Q : Type*} (pq : PriorityQueue Q timerCmp)

/-- `TimerManager::handleExpiredEvent`, with the times `gettimeofday` answers. The queue holds no null
pointer, and `handleClose` does not touch it. -/
def handleExpiredEvent (now : Nat → Timeval) (q : Q) : Sweep Q :=
  match _htop : pq.top q with
  | none => ⟨q, [], [], []⟩
  | some node =>
      if node.deleted then (handleExpiredEvent now (pq.pop q)).after node node none
      else
        match node.isValid (now 0) with
        | (false, node') =>
            (handleExpiredEvent (fun k => now (k + 1)) (pq.pop q)).after node
              { node' with deleted := true } (some (now 0))
        | (true, _) => ⟨q, [], [], [now 0]⟩
termination_by (pq.contents q).length
decreasing_by all_goals exact pq.length_pop _htop

variable {pq} {now : Nat → Timeval} {q : Q} {node : TimerNode}

theorem handleExpiredEvent_empty (htop : pq.top q = none) :
    handleExpiredEvent pq now q = ⟨q, [], [], []⟩ := by
  rw [handleExpiredEvent]
  split
  · rfl
  · rename_i hsome
    cases htop.symm.trans hsome

/-- The three ways of a round with a node at the top. -/
theorem handleExpiredEvent_top (now : Nat → Timeval) (htop : pq.top q = some node) :
    (node.deleted = true ∧
      handleExpiredEvent pq now q = (handleExpiredEvent pq now (pq.pop q)).after node node none) ∨
    (node.deleted = false ∧ node.expiredTime ≤ (now 0).clock ∧
      handleExpiredEvent pq now q = (handleExpiredEvent pq (fun k => now (k + 1)) (pq.pop q)).after node
        { node with deleted := true } (some (now 0))) ∨
    (node.deleted = false ∧ (now 0).clock < node.expiredTime ∧
      handleExpiredEvent pq now q = ⟨q, [], [], [now 0]⟩) := by
  rw [handleExpiredEvent]
  split
  · rename_i hnone
    cases htop.symm.trans hnone
  · rename_i top hsome
    obtain rfl : node = top := Option.some.inj (htop.symm.trans hsome)
    cases hdeleted : node.deleted with
    | true => exact Or.inl ⟨rfl, if_pos rfl⟩
    | false =>
        rw [if_neg Bool.false_ne_true]
        rcases Nat.lt_or_ge (now 0).clock node.expiredTime with hvalid | hdue
        · rw [TimerNode.isValid_of_lt hvalid]
          exact Or.inr (Or.inr ⟨rfl, hvalid, rfl⟩)
        · rw [TimerNode.isValid_of_due hdue]
          exact Or.inr (Or.inl ⟨rfl, hdue, rfl⟩)

structure Sweep.Exact (pq : PriorityQueue Q timerCmp) (now : Nat → Timeval) (q : Q) (r : Sweep Q) : Prop where
  kept : (pq.contents q).Perm (r.popped.map Prod.fst ++ pq.contents r.queue)
  clock : ∃ n, r.readings = (List.range n).map now
  closed : r.closed = r.popped.flatMap fun e => e.1.destroy
  skipped : ∀ node, (node, none) ∈ r.popped → node.deleted = true
  due : ∀ node t, (node, some t) ∈ r.popped →
    node.deleted = false ∧ node.expiredTime ≤ t.clock ∧ t ∈ r.readings
  left : ∀ t, r.readings.getLast? = some t → ∀ node ∈ pq.contents r.queue, t.clock < node.expiredTime
  emptied : r.readings = [] → pq.contents r.queue = []

namespace Sweep.Exact

variable {r : Sweep Q}

theorem empty (htop : pq.top q = none) : Exact pq now q ⟨q, [], [], []⟩ where
  kept := .refl _
  clock := ⟨0, rfl⟩
  closed := rfl
  skipped _ h := absurd h List.not_mem_nil
  due _ _ h := absurd h List.not_mem_nil
  left _ h := nomatch h
  emptied _ := pq.top_eq_none q htop

/-- The order of the queue: a top that is valid at a reading is the last of its nodes to become due. -/
theorem stop (htop : pq.top q = some node) (hvalid : (now 0).clock < node.expiredTime) :
    Exact pq now q ⟨q, [], [], [now 0]⟩ where
  kept := .refl _
  clock := ⟨1, rfl⟩
  closed := rfl
  skipped _ h := absurd h List.not_mem_nil
  due _ _ h := absurd h List.not_mem_nil
  left t ht other hother := by
    obtain rfl : now 0 = t := Option.some.inj ht
    calc (now 0).clock < node.expiredTime := hvalid
      _ ≤ other.expiredTime := timerCmp_eq_false.mp (pq.top_first q node htop other hother)
  emptied h := nomatch h

theorem deleted (hr : Exact pq now (pq.pop q) r) (htop : pq.top q = some node)
    (hdeleted : node.deleted = true) : Exact pq now q (r.after node node none) where
  kept := (pq.contents_pop q node htop).trans (hr.kept.cons node)
  clock := hr.clock
  closed := congrArg (node.destroy ++ ·) hr.closed
  skipped other h := by
    rcases List.mem_cons.mp h with h | h
    · cases h
      exact hdeleted
    · exact hr.skipped other h
  due other t h := by
    rcases List.mem_cons.mp h with h | h
    · cases h
    · exact hr.due other t h
  left := hr.left
  emptied := hr.emptied

theorem expired (hr : Exact pq (fun k => now (k + 1)) (pq.pop q) r) (htop : pq.top q = some node)
    (hlive : node.deleted = false) (hdue : node.expiredTime ≤ (now 0).clock) :
    Exact pq now q (r.after node { node with deleted := true } (some (now 0))) where
  kept := (pq.contents_pop q node htop).trans (hr.kept.cons node)
  clock := by
    obtain ⟨n, hn⟩ := hr.clock
    refine ⟨n + 1, ?_⟩
    rw [List.range_succ_eq_map, List.map_cons, List.map_map]
    exact congrArg (now 0 :: ·) hn
  closed := congrArg (node.destroy ++ ·) hr.closed
  skipped other h := by
    rcases List.mem_cons.mp h with h | h
    · cases h
    · exact hr.skipped other h
  due other t h := by
    rcases List.mem_cons.mp h with h | h
    · cases h
      exact ⟨hlive, hdue, List.mem_cons_self⟩
    · obtain ⟨hother, hle, ht⟩ := hr.due other t h
      exact ⟨hother, hle, List.mem_cons_of_mem _ ht⟩
  left t ht other hother := by
    -- Where no reading follows this one, the rounds that follow have emptied the queue.
    cases hreadings : r.readings with
    | nil =>
        have hempty := hr.emptied hreadings
        rw [after, hempty] at hother
        exact absurd hother List.not_mem_nil
    | cons t' readings =>
        refine hr.left t ?_ other hother
        rw [← ht, after, hreadings]
        exact List.getLast?_cons_cons.symm
  emptied h := nomatch h

end Sweep.Exact

theorem handleExpiredEvent_exact (now : Nat → Timeval) (q : Q) :
    (handleExpiredEvent pq now q).Exact pq now q := by
  induction q using pq.induction generalizing now with
  | hempty q htop =>
      rw [handleExpiredEvent_empty htop]
      exact .empty htop
  | hpop q node htop ih =>
      obtain ⟨hdeleted, hround⟩ | ⟨hlive, hdue, hround⟩ | ⟨-, hvalid, hround⟩ :=
        handleExpiredEvent_top now htop <;> rw [hround]
      · exact (ih now).deleted htop hdeleted
      · exact (ih _).expired htop hlive hdue
      · exact .stop htop hvalid

theorem count_flatMap_destroy {popped : List (TimerNode × Option Timeval)}
    (hpopped : ∀ e ∈ popped, e.1.Proper) (id : Nat) :
    (popped.flatMap fun e => e.1.destroy).count id =
      popped.countP fun e => !e.1.deleted && e.1.requestData = some id := by
  induction popped with
  | nil => rfl
  | cons e popped ih =>
      obtain ⟨hproper, hrest⟩ := List.forall_mem_cons.mp hpopped
      rw [List.flatMap_cons, List.count_append, List.countP_cons, ih hrest, Nat.add_comm]
      congr 1
      cases hdata : e.1.requestData with
      | none => simp [TimerNode.destroy, hdata]
      | some id' =>
          have hlive : e.1.deleted = false := hproper.live hdata
          simp [TimerNode.destroy, hdata, hlive, List.count_singleton]

/-- **The sweep closes what is due.** It ends, and each connection is closed once for each live node that
held it and was popped, whose deadline the reading taken for the node has reached. A deleted node closes
nothing. No live node that is left had a deadline reached at the last reading; without a reading none is
left. -/
theorem handleExpiredEvent_closes (pq : PriorityQueue Q timerCmp) (now : Nat → Timeval) (q : Q)
    (hproper : ∀ node ∈ pq.contents q, node.Proper) :
    let r := handleExpiredEvent pq now q
    (pq.contents q).Perm (r.popped.map Prod.fst ++ pq.contents r.queue) ∧
      (∃ n, r.readings = (List.range n).map now) ∧
      (∀ id, r.closed.count id = r.popped.countP fun e => !e.1.deleted && e.1.requestData = some id) ∧
      (((pq.contents q).filterMap TimerNode.requestData).Nodup → r.closed.Nodup) ∧
      (∀ e ∈ r.popped, e.1.deleted = false →
        ∃ t ∈ r.readings, e.2 = some t ∧ e.1.expiredTime ≤ t.clock) ∧
      (∀ e ∈ r.popped, e.1.deleted = true → e.2 = none ∧ e.1.destroy = []) ∧
      (∀ t, r.readings.getLast? = some t → ∀ node ∈ pq.contents r.queue, node.deleted = false →
        t.clock < node.expiredTime) ∧
      (r.readings = [] → pq.contents r.queue = []) := by
  intro r
  have hexact : r.Exact pq now q := handleExpiredEvent_exact now q
  have hpopped : ∀ e ∈ r.popped, e.1.Proper := fun e he =>
    hproper e.1 (hexact.kept.symm.subset (List.mem_append_left _ (List.mem_map_of_mem he)))
  refine ⟨hexact.kept, hexact.clock, fun id => ?_, fun hnodup => ?_, ?_, ?_, ?_, hexact.emptied⟩
  · rw [hexact.closed]
    exact count_flatMap_destroy hpopped id
  · have hperm := hexact.kept.filterMap TimerNode.requestData
    rw [List.filterMap_append] at hperm
    have hnodup := (List.nodup_append.mp (hperm.nodup_iff.mp hnodup)).1
    rw [List.filterMap_eq_flatMap_toList, List.flatMap_map] at hnodup
    rw [hexact.closed]
    exact hnodup
  · rintro ⟨node, reading⟩ he hlive
    cases reading with
    | none => exact absurd (hexact.skipped node he) (by rw [hlive]; exact Bool.false_ne_true)
    | some t =>
        obtain ⟨-, hdue, ht⟩ := hexact.due node t he
        exact ⟨t, ht, rfl, hdue⟩
  · rintro ⟨node, reading⟩ he hdeleted
    refine ⟨?_, ?_⟩
    · cases reading with
      | none => rfl
      | some t => exact absurd hdeleted (by rw [(hexact.due node t he).1]; exact Bool.false_ne_true)
    · rw [TimerNode.destroy, (hpopped _ he).mp hdeleted]
      rfl
  · exact fun t ht node hnode _ => hexact.left t ht node hnode

end Queue

/-- Of three nodes, a deleted one, one that is due and one that is not, the second closes its connection. -/
theorem handleExpiredEvent_closes_three :
    let pq := PriorityQueue.sorted timerCmp
    ∃ q, pq.contents q = [⟨true, 5, none⟩, ⟨false, 10, some 0⟩, ⟨false, 200, some 1⟩] ∧
      (handleExpiredEvent pq (fun _ => ⟨0, 50000, by decide⟩) q).closed.Nodup := by
  refine ⟨⟨[⟨true, 5, none⟩, ⟨false, 10, some 0⟩, ⟨false, 200, some 1⟩], by decide⟩, rfl, ?_⟩
  exact (handleExpiredEvent_closes (.sorted timerCmp) _ _ (by decide)).2.2.2.1 (by decide)

/-! ### The sweep of the worker -/

namespace Table

variable {α : Type} {t : Table α} {k : Nat} {a : α}

theorem toList_set (hget : t.get k = none) (a : α) : (t.set k a).toList = (k, a) :: t.toList := by
  rw [toList, set, AList.entries_insert_of_notMem (AList.lookup_eq_none.mp hget)]
  rfl

theorem perm_reset (hget : t.get k = some a) : t.toList.Perm ((k, a) :: (t.reset k).toList) := by
  have hmem : ⟨k, a⟩ ∈ t.entries := AList.mem_lookup_iff.mp hget
  obtain ⟨b, front, back, -, hsplit, herase⟩ := List.exists_of_kerase (List.mem_keys_of_mem hmem)
  have hlookup : t.get k = some b := AList.mem_lookup_iff.mpr (by rw [hsplit]; simp)
  obtain rfl : a = b := Option.some.inj (hget.symm.trans hlookup)
  have hrest : (t.reset k).toList = (front ++ back).map fun e => (e.1, e.2) :=
    congrArg (List.map fun e : (_ : Nat) × α => (e.1, e.2)) herase
  rw [hrest, toList, hsplit, List.map_append, List.map_cons, List.map_append]
  exact List.perm_middle

end Table

namespace Worker

variable {Q : Type*} {pq : PriorityQueue Q timerCmp} {s : Worker} {q : Q} {node : TimerNode}

/-- The queue holds the timer nodes of the worker. -/
def Queued (pq : PriorityQueue Q timerCmp) (q : Q) (s : Worker) : Prop :=
  (pq.contents q).Perm (s.timers.toList.map Prod.snd)

theorem addTimer_queued (hinv : s.Inv) (hq : s.Queued pq q) (id : Nat) {timeout : Int32}
    (htimeout : 0 < timeout.toInt) (now : Timeval) :
    (s.addTimer id timeout.toInt now.clock).Queued pq (pq.push q (.new (some id) timeout now)) := by
  have hnew : s.timers.get s.timersMade = none := by
    by_contra hsome
    obtain ⟨node, hnode⟩ := Option.ne_none_iff_exists'.mp hsome
    exact absurd (hinv.numbered _ node hnode) (Nat.lt_irrefl _)
  rw [Queued, addTimer_timers s id htimeout now, Table.toList_set hnew, List.map_cons]
  exact (pq.contents_push q _).trans (hq.cons _)

theorem dropTimer_queued (hq : s.Queued pq q) (htop : pq.top q = some node) {nid : Nat}
    (hnode : s.timers.get nid = some node) (ctlOk : Bool) :
    (s.dropTimer nid node ctlOk).Queued pq (pq.pop q) := by
  have hperm := (pq.contents_pop q node htop).symm.trans
    (hq.trans ((Table.perm_reset hnode).map Prod.snd))
  rw [List.map_cons] at hperm
  rw [Queued, dropTimer_timers]
  exact hperm.cons_inv

/-- The top of the queue is a node of which the sweep may take the next round. -/
theorem queued_top (hq : s.Queued pq q) (htop : pq.top q = some node) :
    ∃ nid, s.timers.get nid = some node ∧ ∀ e ∈ s.timers.toList, node.expiredTime ≤ e.2.expiredTime := by
  obtain ⟨⟨nid, _⟩, hmem, rfl⟩ := List.mem_map.mp (hq.subset (pq.top_mem htop))
  refine ⟨nid, Table.mem_toList.mp hmem, fun e he => ?_⟩
  exact timerCmp_eq_false.mp (pq.top_first q _ htop e.2 (hq.symm.subset (List.mem_map_of_mem he)))

/-- Rounds of the worker's sweep, up to its end, that close the same connections and leave the same nodes. -/
def Swept (pq : PriorityQueue Q timerCmp) (r : Sweep Q) (s : Worker) : Prop :=
  ∃ bs t, Run step (fun _ b => b.sweeps = true) s bs t ∧ t.pc = .poll ∧ t.Queued pq r.queue ∧
    emitted step expires s bs = r.closed

theorem dropTimer_pc (s : Worker) (nid : Nat) (node : TimerNode) (ctlOk : Bool) :
    (s.dropTimer nid node ctlOk).pc = s.pc :=
  let ⟨_, hframe⟩ := dropTimer_frame s nid node ctlOk
  hframe.pc

theorem Swept.drop {r : Sweep Q} {nid : Nat} {ctlOk : Bool} {reading : Option Timeval}
    {destroyed : TimerNode} (now : Nat) (hr : Swept pq r (s.dropTimer nid node ctlOk)) (hpc : s.pc = .sweep)
    (hnode : s.timers.get nid = some node) (hfirst : ∀ e ∈ s.timers.toList,
      node.expiredTime ≤ e.2.expiredTime) (hdue : node.deleted = true ∨ node.expiredTime ≤ now)
    (hdata : destroyed.requestData = node.requestData) :
    Swept pq (r.after node destroyed reading) s := by
  obtain ⟨bs, t, hrun, hend, hleft, hclosed⟩ := hr
  have hstep : s.step (.sweep nid now ctlOk) = some (s.dropTimer nid node ctlOk) := by
    simp only [step, sweep, hpc, hnode]
    rw [if_pos hfirst, if_pos hdue]
  refine ⟨.sweep nid now ctlOk :: bs, t, .cons rfl hstep hrun, hend, hleft, ?_⟩
  rw [emitted_cons hstep, hclosed]
  simp only [expires, hnode]
  rw [if_pos hdue, ← hdata]
  rfl

/-- **The worker's sweep is `handleExpiredEvent`** on a queue that holds its nodes. -/
theorem handleExpiredEvent_sweeps (hq : s.Queued pq q) (hpc : s.pc = .sweep) (now : Nat → Timeval)
    (ctlOk : Bool) : Swept pq (handleExpiredEvent pq now q) s := by
  induction q using pq.induction generalizing s now with
  | hempty q htop =>
      have hnil : s.timers.toList = [] := by
        have hperm : (s.timers.toList.map Prod.snd).Perm [] := by
          rw [← pq.top_eq_none q htop]
          exact hq.symm
        exact List.map_eq_nil_iff.mp hperm.eq_nil
      have hstep : s.step .endSweep = some { s with pc := .poll } := if_pos ⟨hpc, hnil⟩
      rw [handleExpiredEvent_empty htop]
      refine ⟨[.endSweep], _, .cons rfl hstep (.nil _), rfl, hq, ?_⟩
      rw [emitted_cons hstep]
      rfl
  | hpop q node htop ih =>
      obtain ⟨nid, hnode, hfirst⟩ := queued_top hq htop
      have hnext (now : Nat → Timeval) := ih (dropTimer_queued hq htop hnode ctlOk)
        ((dropTimer_pc s nid node ctlOk).trans hpc) now
      obtain ⟨hdeleted, hround⟩ | ⟨-, hdue, hround⟩ | ⟨hlive, hvalid, hround⟩ :=
        handleExpiredEvent_top now htop <;> rw [hround]
      · exact (hnext now).drop 0 hpc hnode hfirst (Or.inl hdeleted) rfl
      · exact (hnext _).drop (now 0).clock hpc hnode hfirst (Or.inr hdue) rfl
      · have hnot : ¬ (node.deleted = true ∨ node.expiredTime ≤ (now 0).clock) := by
          rw [hlive]
          rintro (h | h)
          · cases h
          · exact absurd hvalid (Nat.not_lt.mpr h)
        have hstep : s.step (.sweep nid (now 0).clock ctlOk) = some { s with pc := .poll } := by
          simp only [step, sweep, hpc, hnode]
          rw [if_pos hfirst, if_neg hnot]
        refine ⟨[.sweep nid (now 0).clock ctlOk], _, .cons rfl hstep (.nil _), rfl, hq, ?_⟩
        rw [emitted_cons hstep]
        simp only [expires, hnode]
        rw [if_neg hnot]
        rfl

/-- Each node of the worker is deleted, or holds a connection. -/
def Proper (s : Worker) : Prop := ∀ nid node, s.timers.get nid = some node → node.Proper

theorem Proper.set (hs : s.Proper) (hnode : node.Proper) (nid : Nat) {t : Worker}
    (ht : t.timers = s.timers.set nid node) : t.Proper := by
  intro k other hget
  rw [ht] at hget
  by_cases hk : k = nid
  · subst hk
    rw [Table.get_set_self] at hget
    exact Option.some.inj hget ▸ hnode
  · rw [Table.get_set_of_ne _ hk] at hget
    exact hs k other hget

theorem Proper.reset (hs : s.Proper) {t : Worker} {nid : Nat} (ht : t.timers = s.timers.reset nid) :
    t.Proper := by
  intro k other hget
  rw [ht] at hget
  by_cases hk : k = nid
  · subst hk
    rw [Table.get_reset_self] at hget
    cases hget
  · rw [Table.get_reset_of_ne _ hk] at hget
    exact hs k other hget

theorem Proper.of_timers (hs : s.Proper) {t : Worker} (ht : t.timers = s.timers) : t.Proper := by
  intro nid node hnode
  rw [ht] at hnode
  exact hs nid node hnode

theorem startTimer_proper (hs : s.Proper) (request : ChannelRef) (timeout : Int) (now : Nat) :
    (s.startTimer request timeout now).Proper := by
  rcases startTimer_cases s request timeout now with hsame | ⟨id, -, hadded⟩
  · rwa [hsame]
  · rw [hadded]
    exact hs.set (iff_of_false Bool.false_ne_true (Option.some_ne_none _)) s.timersMade rfl

theorem epollMod_proper (hs : s.Proper) (request : ChannelRef) (timeout : Int) (now : Nat) (ctlOk : Bool) :
    (s.epollMod request timeout now ctlOk).Proper := by
  have hstarted := startTimer_proper hs request timeout now
  rw [epollMod_eq]
  dsimp only
  split_ifs
  · exact hstarted.of_timers (noteEvents_timers _ request)
  · exact hstarted.of_timers ((epollCtl_timers _ _ _ _).trans (noteEvents_timers _ request))

theorem newEvent_proper (hs : s.Proper) (id now : Nat) (ctlOk : Bool) : (s.newEvent id now ctlOk).Proper := by
  have hstarted := startTimer_proper
    (hs.of_timers (t := s.setConn id { (s.objects id).conn with chan.events := DEFAULT_EVENT }) rfl)
    (.http id) DEFAULT_EXPIRED_TIME now
  apply hstarted.of_timers
  show ((s.setConn id { (s.objects id).conn with chan.events := DEFAULT_EVENT }).epollAdd (.http id)
    DEFAULT_EXPIRED_TIME now ctlOk).timers = _
  rw [epollAdd_eq]
  dsimp only
  rw [epollCtl_timers, noteEvents_timers, setSlots, releaseOption_timers]

theorem clearTimer_proper (hs : s.Proper) (id : Nat) : (s.clearTimer id).Proper := by
  rcases clearTimer_cases s id with ⟨-, hsame⟩ | ⟨nid, node, -, hget, hcleared⟩
  · rwa [hsame]
  · rw [hcleared]
    exact hs.set node.clearReq_proper nid (releaseOption_timers _ _)

theorem handleEvents_proper (hs : s.Proper) (hinv : s.Inv) {request : ChannelRef}
    (hslot : s.fd2chan.get (s.chan request).fd = some request) (io : Io) :
    Safe Unharmed Proper (s.handleEvents io request) := by
  cases request with
  | wakeup => exact hs.of_timers (handleWakeup_timers s io)
  | http id =>
      have hstart : Serving id s s := ⟨hinv, (hinv.paired _ id).mp hslot, .refl [] s⟩
      refine handleEvents_rule (P := Proper) hstart (fun _ _ _ h _ => h)
        (fun _ _ h => clearTimer_proper h id) (fun t ht h => ?_) (fun _ _ h => h) hs
      have hconn : (t.setConn id (handleConn (t.objects id).conn)).Proper := h
      have hseparated : (t.separated id).Proper := clearTimer_proper hconn id
      rcases callback_handleConn_cases io ht with ⟨-, hrun⟩ | ⟨timeout, -, -, hrun⟩ | ⟨-, hrun⟩
      all_goals rw [hrun]
      · exact hseparated
      · exact epollMod_proper hseparated (.http id) timeout io.now io.ctlOk
      · exact hseparated.of_timers (handleClose_timers _ id io.ctlOk)

theorem getEventsReqeust_timers (events : List (Nat × EventMask)) (s : Worker) :
    (getEventsReqeust events s).timers = s.timers :=
  getEventsReqeust_rule (P := fun t => t.timers = s.timers)
    (fun t request _ h => (setChan_timers t request _).trans h) events rfl

theorem step_proper (hsound : s.Sound) (hs : s.Proper) {a : WorkerStep} {t : Worker}
    (hstep : s.step a = some t) : t.Proper := by
  cases a with
  | accept fd => exact hs.of_timers (accept_frame hstep).2.2
  | acceptorReleases id => exact hs.of_timers (acceptorReleases_frame hstep).2.2
  | poll events =>
      obtain ⟨-, -, rfl⟩ := poll_cases hstep
      exact hs.of_timers (getEventsReqeust_timers events _)
  | handle io =>
      obtain ⟨request, rest, u, -, -, hslot, hrun, rfl⟩ := handle_cases hsound hstep
      have hhandled := handleEvents_proper hs hsound.inv hslot io
      rw [hrun] at hhandled
      exact hhandled
  | swapFunctors =>
      obtain ⟨-, -, rfl⟩ := swapFunctors_cases hstep
      exact hs
  | functor now ctlOk =>
      obtain ⟨id, -, -, rfl⟩ := functor_cases hstep
      exact newEvent_proper hs id now ctlOk
  | endFunctors =>
      obtain ⟨-, rfl⟩ := endFunctors_cases hstep
      exact hs.of_timers (foldl_release_timers s.functors _)
  | sweep nid now ctlOk =>
      obtain ⟨node, -, -, -, ⟨-, rfl⟩ | ⟨-, rfl⟩⟩ := sweep_cases hstep
      · exact hs.reset (dropTimer_timers s nid node ctlOk)
      · exact hs
  | endSweep =>
      obtain ⟨-, -, rfl⟩ := endSweep_cases hstep
      exact hs

/-- A queue that holds the nodes of a worker is one `handleExpiredEvent` is called with. -/
theorem run_proper {wakeupFd : Nat} {ctlOk : Bool} {as : List WorkerStep}
    (hrun : Run step (fun _ _ => True) (created wakeupFd ctlOk) as s) (hq : s.Queued pq q) :
    ∀ node ∈ pq.contents q, node.Proper := by
  have hstart : (created wakeupFd ctlOk).Proper := by
    cases ctlOk <;> exact fun _ _ h => nomatch h
  have hproper := (hrun.invariant (I := fun s => s.Sound ∧ s.Proper)
    (fun _ _ _ _ hstep h => ⟨step_sound h.1 hstep, step_proper h.1 h.2 hstep⟩)
    ⟨created_sound wakeupFd ctlOk, hstart⟩).2
  intro node hnode
  obtain ⟨⟨nid, _⟩, hmem, rfl⟩ := List.mem_map.mp (hq.subset hnode)
  exact hproper nid _ (Table.mem_toList.mp hmem)

end Worker

end WebServer
