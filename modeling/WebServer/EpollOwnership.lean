import WebServer.EpollWorker

/-! Who refers to a connection. A connection that was registered is referred to by its entry of the
table or by a timer node until it is removed from the poller, and the entries of the two tables for a
descriptor are those of the one connection that has it open. A reference may go only where that is kept. -/

namespace WebServer

namespace Worker

variable {s t u : Worker}

/-- The entry of the table for the descriptor of the connection. -/
def Slot (s : Worker) (id : Nat) : Prop := s.fd2http.get (s.objects id).conn.chan.fd = some id

/-- A timer node refers to the connection. -/
def Held (s : Worker) (id : Nat) : Prop :=
  ∃ nid node, s.timers.get nid = some node ∧ node.requestData = some id

structure Inv (s : Worker) : Prop where
  paired : ∀ fd id, s.fd2chan.get fd = some (.http id) ↔ s.fd2http.get fd = some id
  slots : ∀ fd id, s.fd2http.get fd = some id → s.Live id ∧ (s.objects id).conn.chan.fd = fd
  wakeupSlot : ∀ fd, s.fd2chan.get fd = some .wakeup → s.wakeupChannel.fd = fd
  sameFd : ∀ id, (s.objects id).conn.http.fd = (s.objects id).conn.chan.fd
  distinct : ∀ i j, s.Live i → s.Live j →
    (s.objects i).conn.chan.fd = (s.objects j).conn.chan.fd → i = j
  foreign : ∀ id, s.Live id → (s.objects id).conn.chan.fd ≠ s.wakeupChannel.fd
  holders : ∀ nid node id, s.timers.get nid = some node → node.requestData = some id → s.Live id
  refs : ∀ id, id ∈ s.functors ∨ id ∈ s.pendingFunctors ∨ id ∈ s.acceptors → s.Live id
  links : ∀ id nid node, (s.objects id).timer = some nid → s.timers.get nid = some node →
    node.requestData = none ∨ node.requestData = some id
  numbered : ∀ nid node, s.timers.get nid = some node → nid < s.timersMade
  linkNumbered : ∀ id nid, (s.objects id).timer = some nid → nid < s.timersMade
  kept : ∀ id, s.Live id → (s.objects id).registered = true → (s.objects id).removed = false →
    s.Slot id ∨ s.Held id
  gone : ∀ id, (s.objects id).destroyed = true → (s.objects id).registered = true →
    (s.objects id).removed = true

structure SameObject (o o' : HttpObject) : Prop where
  chanFd : o'.conn.chan.fd = o.conn.chan.fd
  httpFd : o'.conn.http.fd = o.conn.http.fd
  destroyed : o'.destroyed = o.destroyed
  removed : o.removed = true → o'.removed = true

theorem SameObject.refl (o : HttpObject) : SameObject o o := ⟨rfl, rfl, rfl, id⟩

/-- The references are the same, but for a link to a timer node of its own connection, and a connection
newly registered is held by a timer node. -/
structure SameRefs (s s' : Worker) : Prop where
  wakeupFd : s'.wakeupChannel.fd = s.wakeupChannel.fd
  objects : ∀ id, SameObject (s.objects id) (s'.objects id)
  links : ∀ id nid, (s'.objects id).timer = some nid → (s.objects id).timer = some nid ∨
    nid < s.timersMade ∧ ∀ node, s.timers.get nid = some node → node.requestData = some id
  registered : ∀ id, (s'.objects id).registered = true → (s.objects id).registered = true ∨
    s.Live id ∧ s.Held id
  made : s'.made = s.made
  fd2chan : s'.fd2chan = s.fd2chan
  fd2http : s'.fd2http = s.fd2http
  timers : s'.timers = s.timers
  timersMade : s'.timersMade = s.timersMade
  acceptors : s'.acceptors = s.acceptors
  pendingFunctors : s'.pendingFunctors = s.pendingFunctors
  functors : s'.functors = s.functors

theorem SameRefs.live {s' : Worker} (h : SameRefs s s') (id : Nat) : s'.Live id ↔ s.Live id := by
  simp only [Live, h.made, (h.objects id).destroyed]

theorem SameRefs.held {s' : Worker} (h : SameRefs s s') (id : Nat) : s'.Held id ↔ s.Held id := by
  simp only [Held, h.timers]

theorem SameRefs.inv {s' : Worker} (h : SameRefs s s') (hs : s.Inv) : s'.Inv := by
  have hlive := h.live
  have hheld := h.held
  have hslot (id : Nat) : s'.Slot id ↔ s.Slot id := by
    simp only [Slot, h.fd2http, (h.objects id).chanFd]
  have hfd (id : Nat) := (h.objects id).chanFd
  exact {
    paired := by simpa only [h.fd2chan, h.fd2http] using hs.paired
    slots := by simpa only [h.fd2http, hlive, hfd] using hs.slots
    wakeupSlot := by simpa only [h.fd2chan, h.wakeupFd] using hs.wakeupSlot
    sameFd := fun id => by rw [(h.objects id).httpFd, hfd, hs.sameFd]
    distinct := by simpa only [hlive, hfd] using hs.distinct
    foreign := by simpa only [hlive, hfd, h.wakeupFd] using hs.foreign
    holders := by simpa only [h.timers, hlive] using hs.holders
    refs := by simpa only [h.functors, h.pendingFunctors, h.acceptors, hlive] using hs.refs
    links := fun id nid node hlink hnode => by
      rw [h.timers] at hnode
      rcases h.links id nid hlink with hold | ⟨-, hnew⟩
      · exact hs.links id nid node hold hnode
      · exact Or.inr (hnew node hnode)
    numbered := by simpa only [h.timers, h.timersMade] using hs.numbered
    linkNumbered := fun id nid hlink => by
      rw [h.timersMade]
      rcases h.links id nid hlink with hold | ⟨hnew, -⟩
      · exact hs.linkNumbered id nid hold
      · exact hnew
    kept := fun id hid hreg hrem => by
      rw [hslot, hheld]
      rw [hlive] at hid
      rcases h.registered id hreg with hreg | ⟨-, hnew⟩
      · have hnot : (s.objects id).removed = false := by
          by_contra hnot
          simp [(h.objects id).removed (by simpa using hnot)] at hrem
        exact hs.kept id hid hreg hnot
      · exact Or.inr hnew
    gone := fun id hdestroyed hreg => by
      rw [(h.objects id).destroyed] at hdestroyed
      rcases h.registered id hreg with hreg | ⟨hid, -⟩
      · exact (h.objects id).removed (hs.gone id hdestroyed hreg)
      · rw [hid.2] at hdestroyed
        cases hdestroyed }

theorem setObject_same (s : Worker) (id : Nat) {o : HttpObject} (ho : SameObject (s.objects id) o)
    (hlink : ∀ nid, o.timer = some nid → (s.objects id).timer = some nid ∨
      nid < s.timersMade ∧ ∀ node, s.timers.get nid = some node → node.requestData = some id)
    (hreg : o.registered = true → (s.objects id).registered = true ∨ s.Live id ∧ s.Held id) :
    SameRefs s (s.setObject id o) where
  wakeupFd := rfl
  objects := fun j => by
    by_cases hj : j = id
    · subst hj
      simpa only [setObject_self] using ho
    · simpa only [setObject_other _ hj] using .refl _
  links := fun j nid h => by
    by_cases hj : j = id
    · subst hj
      exact hlink nid (by simpa only [setObject_self] using h)
    · exact Or.inl (by simpa only [setObject_other _ hj] using h)
  registered := fun j h => by
    by_cases hj : j = id
    · subst hj
      exact hreg (by simpa only [setObject_self] using h)
    · exact Or.inl (by simpa only [setObject_other _ hj] using h)
  made := rfl
  fd2chan := rfl
  fd2http := rfl
  timers := rfl
  timersMade := rfl
  acceptors := rfl
  pendingFunctors := rfl
  functors := rfl

theorem setConn_same (s : Worker) (id : Nat) {c : Conn} (hhttp : c.http.fd = (s.objects id).conn.http.fd)
    (hchan : c.chan.fd = (s.objects id).conn.chan.fd) : SameRefs s (s.setConn id c) :=
  setObject_same s id ⟨hchan, hhttp, rfl, fun h => h⟩ (fun _ h => Or.inl h) fun h => Or.inl h

theorem setChan_same (s : Worker) (request : ChannelRef) {ch : Channel}
    (hfd : ch.fd = (s.chan request).fd) : SameRefs s (s.setChan request ch) := by
  cases request with
  | wakeup =>
      exact ⟨hfd, fun _ => .refl _, fun _ _ h => Or.inl h, fun _ h => Or.inl h,
        rfl, rfl, rfl, rfl, rfl, rfl, rfl, rfl⟩
  | http id => exact setConn_same s id rfl hfd

theorem Slot.owned {id : Nat} (h : s.Slot id) : s.Owned id :=
  Or.inl ⟨_, Table.mem_toList.mpr h, rfl⟩

theorem Held.owned {id : Nat} (h : s.Held id) : s.Owned id := by
  obtain ⟨nid, node, hnode, hdata⟩ := h
  exact Or.inr (Or.inl ⟨_, Table.mem_toList.mpr hnode, hdata⟩)

/-- Nothing changes of a connection when one is destroyed, but that it may be the one. -/
theorem destroy_object (s : Worker) (id j : Nat) :
    ∃ b, (s.destroy id).objects j = { s.objects j with destroyed := b } := by
  by_cases hj : j = id
  · subst hj
    exact ⟨true, setObject_self ..⟩
  · exact ⟨(s.objects j).destroyed, setObject_other s hj _⟩

theorem destroy_inv (hs : s.Inv) {id : Nat} (hid : id < s.made) (hfree : ¬ s.Owned id) :
    (s.destroy id).Inv := by
  have hself : (s.destroy id).objects id = { s.objects id with destroyed := true } := setObject_self ..
  have hother : ∀ j, j ≠ id → (s.destroy id).objects j = s.objects j := fun j hj => setObject_other s hj _
  have hconn (j : Nat) : ((s.destroy id).objects j).conn = (s.objects j).conn := by
    obtain ⟨b, hb⟩ := destroy_object s id j
    rw [hb]
  have htimer (j : Nat) : ((s.destroy id).objects j).timer = (s.objects j).timer := by
    obtain ⟨b, hb⟩ := destroy_object s id j
    rw [hb]
  have hof (j : Nat) (h : (s.destroy id).Live j) : j ≠ id ∧ s.Live j := by
    obtain ⟨hmade, hdestroyed⟩ := h
    by_cases hj : j = id
    · rw [hj, hself] at hdestroyed
      cases hdestroyed
    · rw [hother j hj] at hdestroyed
      exact ⟨hj, hmade, hdestroyed⟩
  have hlive (j : Nat) (hj : s.Live j) (howned : s.Owned j) : (s.destroy id).Live j := by
    have hne : j ≠ id := fun h => hfree (h ▸ howned)
    refine ⟨hj.1, ?_⟩
    rw [hother j hne]
    exact hj.2
  exact {
    paired := hs.paired
    slots := fun fd j h => by
      obtain ⟨hj, hfd⟩ := hs.slots fd j h
      have howned : s.Owned j := Slot.owned (by rw [Slot, hfd]; exact h)
      exact ⟨hlive j hj howned, by rw [hconn]; exact hfd⟩
    wakeupSlot := hs.wakeupSlot
    sameFd := fun j => by rw [hconn]; exact hs.sameFd j
    distinct := fun i j hi hj h => by
      rw [hconn, hconn] at h
      exact hs.distinct i j (hof i hi).2 (hof j hj).2 h
    foreign := fun j hj => by
      rw [hconn]
      exact hs.foreign j (hof j hj).2
    holders := fun nid node j hnode hdata =>
      hlive j (hs.holders nid node j hnode hdata) (Held.owned ⟨nid, node, hnode, hdata⟩)
    refs := fun j h => hlive j (hs.refs j h) (Or.inr (Or.inr h))
    links := fun j nid node hlink => by
      rw [htimer] at hlink
      exact hs.links j nid node hlink
    numbered := hs.numbered
    linkNumbered := fun j nid hlink => by
      rw [htimer] at hlink
      exact hs.linkNumbered j nid hlink
    kept := fun j hj hreg hrem => by
      obtain ⟨hne, hj⟩ := hof j hj
      rw [hother j hne] at hreg hrem
      simp only [Slot, hconn]
      exact hs.kept j hj hreg hrem
    gone := fun j hdestroyed hreg => by
      by_cases hj : j = id
      · subst hj
        rw [hself] at hreg ⊢
        by_contra hrem
        cases hgone : (s.objects j).destroyed with
        | true => exact hrem (hs.gone j hgone hreg)
        | false =>
            rcases hs.kept j ⟨hid, hgone⟩ hreg (by simpa using hrem) with hslot | hheld
            · exact hfree hslot.owned
            · exact hfree hheld.owned
      · rw [hother j hj] at hdestroyed hreg ⊢
        exact hs.gone j hdestroyed hreg }

theorem release_inv (hs : s.Inv) {id : Nat} (hid : id < s.made) : (s.release id).Inv := by
  unfold release
  split_ifs with howned
  · exact hs
  · exact destroy_inv hs hid howned

theorem releaseOption_inv (hs : s.Inv) {o : Option Nat} (ho : ∀ id, o = some id → id < s.made) :
    (s.releaseOption o).Inv := by
  cases o with
  | none => exact hs
  | some id => exact release_inv hs (ho id rfl)

theorem releaseOption_object (s : Worker) (o : Option Nat) (j : Nat) :
    ∃ b, (s.releaseOption o).objects j = { s.objects j with destroyed := b } := by
  cases o with
  | none => exact ⟨_, rfl⟩
  | some id =>
      rw [releaseOption, release]
      split_ifs
      · exact ⟨_, rfl⟩
      · exact destroy_object s id j

/-- The entries of a descriptor may go if its connection is removed already, or held by a timer node. -/
theorem resetSlots_inv (hs : s.Inv) {fd : Nat}
    (hfree : ∀ id, s.fd2http.get fd = some id → (s.objects id).removed = false → s.Held id) :
    (s.resetSlots fd).Inv := by
  refine releaseOption_inv ?_ fun id h => (hs.slots fd id h).1.1
  have hof (k id : Nat) (h : (s.fd2http.reset fd).get k = some id) : s.fd2http.get k = some id := by
    by_cases hk : k = fd
    · simp [hk] at h
    · rwa [Table.get_reset_of_ne _ hk] at h
  refine { hs with paired := ?_, slots := ?_, wakeupSlot := ?_, kept := ?_ }
  · intro k id
    by_cases hk : k = fd
    · simp [hk]
    · simpa only [Table.get_reset_of_ne _ hk] using hs.paired k id
  · exact fun k id h => hs.slots k id (hof k id h)
  · intro k h
    by_cases hk : k = fd
    · simp [hk] at h
    · exact hs.wakeupSlot k (by simpa only [Table.get_reset_of_ne _ hk] using h)
  · intro id hid hreg hrem
    rcases hs.kept id hid hreg hrem with hslot | hheld
    · by_cases hk : (s.objects id).conn.chan.fd = fd
      · exact Or.inr (hfree id (hk ▸ hslot) hrem)
      · exact Or.inl ((Table.get_reset_of_ne _ hk).trans hslot)
    · exact Or.inr hheld

/-- The connection that a slot for the descriptor of a connection belongs to is that connection. -/
theorem Inv.slot_eq (hs : s.Inv) {id j : Nat} (hid : s.Live id)
    (h : s.fd2http.get (s.objects id).conn.chan.fd = some j) : j = id :=
  hs.distinct j id (hs.slots _ j h).1 hid (hs.slots _ j h).2

/-- A connection is put in its slots, which were empty or its own. -/
theorem setSlots_eq (hs : s.Inv) {id : Nat} (hid : s.Live id) :
    s.setSlots (s.objects id).conn.chan.fd (.http id) = { s with
      fd2chan := s.fd2chan.set (s.objects id).conn.chan.fd (.http id)
      fd2http := s.fd2http.set (s.objects id).conn.chan.fd id } := by
  have hholder : s.getHolder (.http id) = some id := if_pos hid
  simp only [setSlots, hholder]
  cases h : s.fd2http.get (s.objects id).conn.chan.fd with
  | none => rfl
  | some j =>
      obtain rfl := hs.slot_eq hid h
      have hslot : Slot { s with
          fd2chan := s.fd2chan.set (s.objects j).conn.chan.fd (.http j)
          fd2http := s.fd2http.set (s.objects j).conn.chan.fd j } j := Table.get_set_self _ _ _
      exact if_pos hslot.owned

theorem setSlots_inv (hs : s.Inv) {id : Nat} (hid : s.Live id) :
    (s.setSlots (s.objects id).conn.chan.fd (.http id)).Inv := by
  rw [setSlots_eq hs hid]
  refine { hs with paired := ?_, slots := ?_, wakeupSlot := ?_, kept := ?_ }
  · intro k j
    by_cases hk : k = (s.objects id).conn.chan.fd
    · simp [hk]
    · simpa only [Table.get_set_of_ne _ hk] using hs.paired k j
  · intro k j h
    by_cases hk : k = (s.objects id).conn.chan.fd
    · have hj : id = j := by simpa [hk] using h
      exact ⟨hj ▸ hid, by rw [← hj, hk]⟩
    · exact hs.slots k j (by simpa only [Table.get_set_of_ne _ hk] using h)
  · intro k h
    by_cases hk : k = (s.objects id).conn.chan.fd
    · simp [hk] at h
    · exact hs.wakeupSlot k (by simpa only [Table.get_set_of_ne _ hk] using h)
  · intro j hj hreg hrem
    by_cases hk : (s.objects j).conn.chan.fd = (s.objects id).conn.chan.fd
    · obtain rfl := hs.distinct j id hj hid hk
      exact Or.inl (Table.get_set_self _ _ _)
    · exact (hs.kept j hj hreg hrem).imp (fun h => (Table.get_set_of_ne _ hk _).trans h) fun h => h

theorem setNode_inv (hs : s.Inv) {nid made : Nat} {node : TimerNode}
    (hmade : s.timersMade ≤ made) (hnid : nid < made)
    (hlive : ∀ id, node.requestData = some id → s.Live id)
    (hlinks : ∀ id, (s.objects id).timer = some nid →
      node.requestData = none ∨ node.requestData = some id)
    (hkept : ∀ id, s.Held id → s.Slot id ∨
      Held { s with timers := s.timers.set nid node, timersMade := made } id) :
    Inv { s with timers := s.timers.set nid node, timersMade := made } := by
  have hof {k : Nat} {node' : TimerNode} (h : (s.timers.set nid node).get k = some node') :
      k = nid ∧ node' = node ∨ s.timers.get k = some node' := by
    by_cases hk : k = nid
    · subst hk
      exact Or.inl ⟨rfl, by simpa using h.symm⟩
    · exact Or.inr (by rwa [Table.get_set_of_ne _ hk] at h)
  refine { hs with holders := ?_, links := ?_, numbered := ?_, linkNumbered := ?_, kept := ?_ }
  · intro k node' id h hdata
    rcases hof h with ⟨-, rfl⟩ | h
    · exact hlive id hdata
    · exact hs.holders k node' id h hdata
  · intro id k node' hlink h
    rcases hof h with ⟨rfl, rfl⟩ | h
    · exact hlinks id hlink
    · exact hs.links id k node' hlink h
  · intro k node' h
    rcases hof h with ⟨rfl, -⟩ | h
    · exact hnid
    · exact (hs.numbered k node' h).trans_le hmade
  · exact fun id k hlink => (hs.linkNumbered id k hlink).trans_le hmade
  · intro id hid hreg hrem
    rcases hs.kept id hid hreg hrem with hslot | hheld
    · exact Or.inl hslot
    · exact hkept id hheld

theorem addTimer_inv (hs : s.Inv) {id : Nat} (hid : s.Live id) (timeout : Int) (now : Nat) :
    (s.addTimer id timeout now).Inv := by
  have hnode : Inv { s with
      timers := s.timers.set s.timersMade ⟨false, now + timeout.toNat, some id⟩
      timersMade := s.timersMade + 1 } := by
    refine setNode_inv hs (Nat.le_succ _) (Nat.lt_succ_self _) ?_ ?_ ?_
    · intro j hj
      exact Option.some.inj hj ▸ hid
    · exact fun j hlink => absurd (hs.linkNumbered j _ hlink) (lt_irrefl _)
    · rintro j ⟨nid, node, hget, hdata⟩
      have hne : nid ≠ s.timersMade := (hs.numbered nid node hget).ne
      exact Or.inr ⟨nid, node, (Table.get_set_of_ne _ hne _).trans hget, hdata⟩
  refine SameRefs.inv ?_ hnode
  refine setObject_same (o := { s.objects id with timer := some s.timersMade }) _ id
    ⟨rfl, rfl, rfl, fun h => h⟩ ?_ fun h => Or.inl h
  rintro nid h
  obtain rfl := Option.some.inj h
  exact Or.inr ⟨Nat.lt_succ_self _, fun node hget => by
    rw [Table.get_set_self, Option.some.injEq] at hget
    rw [← hget]⟩

/-- The connection that clears its timer is still referred to by the table. -/
theorem clearTimer_inv (hs : s.Inv) {id : Nat} (hid : s.Slot id) : (s.clearTimer id).Inv := by
  rcases clearTimer_cases s id with ⟨-, hsame⟩ | ⟨nid, node, hlink, hget, hcleared⟩
  · rwa [hsame]
  have hdata := hs.links id nid node hlink hget
  have hnode : Inv { s with
      timers := s.timers.set nid { node with requestData := none, deleted := true } } := by
    refine setNode_inv hs le_rfl (hs.numbered nid node hget) (fun _ h => by cases h)
      (fun _ _ => Or.inl rfl) ?_
    rintro j ⟨k, node', hget', hdata'⟩
    by_cases hk : k = nid
    · subst hk
      obtain rfl := Option.some.inj (hget.symm.trans hget')
      rcases hdata with hnone | hsome
      · simp [hnone] at hdata'
      · obtain rfl := Option.some.inj (hsome.symm.trans hdata')
        exact Or.inl hid
    · exact Or.inr ⟨k, node', (Table.get_set_of_ne _ hk _).trans hget', hdata'⟩
  rw [hcleared]
  refine releaseOption_inv (SameRefs.inv ?_ hnode) ?_
  · exact setObject_same (o := { s.objects id with timer := none }) _ id
      ⟨rfl, rfl, rfl, fun h => h⟩ (fun _ h => by cases h) fun h => Or.inl h
  · exact fun j h => (hs.holders nid node j hget h).1

end Worker

end WebServer
