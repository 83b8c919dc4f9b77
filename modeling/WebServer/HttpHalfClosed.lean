import WebServer.HttpHandleConn

/-! What brings a connection to the branch of `handleConn` that makes no call. The answers of the system calls
that an event has used up tell: a `read` that returned zero, unless the connection was half closed before, and
a `write` that left output where it was. -/

namespace WebServer

open Stages

/-- No bytes are taken, and the loop of `writen` ends without an error. -/
def WriteOutcome.blocks : WriteOutcome → Bool
  | .accept count => count == 0
  | .eagain => true
  | .eintr | .error => false

/-- From the first state to the second these answers were used up. -/
structure Uses (c d : Conn) (read : List ReadOutcome) (written : List WriteOutcome) : Prop where
  reads : c.sock.reads = read ++ d.sock.reads
  writes : c.sock.writes = written ++ d.sock.writes
  halfClosed : d.http.connectionState = .disconnecting ↔
    c.http.connectionState = .disconnecting ∨ .eof ∈ read
  out : d.chan.events.has EPOLLOUT → c.chan.events.has EPOLLOUT ∨ ∃ w ∈ written, w.blocks = true

theorem Uses.refl (c : Conn) : Uses c c [] [] := ⟨rfl, rfl, by simp, Or.inl⟩

theorem Uses.trans {c d e : Conn} {read read' : List ReadOutcome} {written written' : List WriteOutcome}
    (h : Uses c d read written) (h' : Uses d e read' written') :
    Uses c e (read ++ read') (written ++ written') where
  reads := by rw [h.reads, h'.reads, List.append_assoc]
  writes := by rw [h.writes, h'.writes, List.append_assoc]
  halfClosed := by rw [h'.halfClosed, h.halfClosed, List.mem_append, or_assoc]
  out hout := by
    rcases h'.out hout with hbefore | ⟨w, hw, hblocks⟩
    · exact (h.out hbefore).imp_right fun ⟨w, hw, hblocks⟩ => ⟨w, List.mem_append_left _ hw, hblocks⟩
    · exact Or.inr ⟨w, List.mem_append_right _ hw, hblocks⟩

/-- If the second state is not in error, neither was the first. -/
def Traced (c d : Conn) : Prop :=
  d.http.error = false → c.http.error = false ∧ ∃ read written, Uses c d read written

theorem Traced.refl (c : Conn) : Traced c c := fun h => ⟨h, [], [], .refl c⟩

theorem Traced.trans (c d e : Conn) (hcd : Traced c d) (hde : Traced d e) : Traced c e := by
  intro he
  obtain ⟨hd, read', written', h'⟩ := hde he
  obtain ⟨hc, read, written, h⟩ := hcd hd
  exact ⟨hc, _, _, h.trans h'⟩

theorem Traced.of_error {c d : Conn} (herror : d.http.error = true) : Traced c d :=
  fun h => absurd (h.symm.trans herror) (by decide)

/-- Nothing is read or written. -/
theorem Traced.of_http {c : Conn} {h : HttpData} (herror : h.error = c.http.error)
    (hstate : h.connectionState = c.http.connectionState) : Traced c { c with http := h } :=
  fun hnone => ⟨herror ▸ hnone, [], [], ⟨rfl, rfl, by simp [hstate], Or.inl⟩⟩

theorem readnLoop_uses (reads : List ReadOutcome) : ∀ (inBuffer : Bytes) (readSum : Nat),
    ∃ used, reads = used ++ (readnLoop reads inBuffer readSum).reads ∧
      ((readnLoop reads inBuffer readSum).zero = true ↔ .eof ∈ used) := by
  induction reads with
  | nil => exact fun _ _ => ⟨[], rfl, by simp [readnLoop]⟩
  | cons r reads ih =>
      intro inBuffer readSum
      cases r with
      | data chunk =>
          obtain ⟨used, hused, hzero⟩ := ih (inBuffer ++ chunk.data) (readSum + chunk.data.length)
          exact ⟨.data chunk :: used, congrArg (.data chunk :: ·) hused, by simpa [readnLoop] using hzero⟩
      | eintr =>
          obtain ⟨used, hused, hzero⟩ := ih inBuffer readSum
          exact ⟨.eintr :: used, congrArg (.eintr :: ·) hused, by simpa [readnLoop] using hzero⟩
      | eof => exact ⟨[.eof], rfl, by simp [readnLoop]⟩
      | eagain => exact ⟨[.eagain], rfl, by simp [readnLoop]⟩
      | error => exact ⟨[.error], rfl, by simp [readnLoop]⟩

/-- What a `writen` that has not failed leaves, a `write` has left. -/
theorem writenLoop_uses (writes : List WriteOutcome) : ∀ (accepted left : Bytes),
    ∃ used, writes = used ++ (writenLoop true writes accepted left).writes ∧
      ((writenLoop true writes accepted left).failed = false →
        (writenLoop true writes accepted left).left ≠ [] → ∃ w ∈ used, w.blocks = true) := by
  induction writes with
  | nil => exact fun _ left => ⟨[], by cases left <;> rfl, fun _ h => absurd (by cases left <;> rfl) h⟩
  | cons w writes ih =>
      intro accepted left
      cases left with
      | nil => exact ⟨[], rfl, fun _ h => absurd rfl h⟩
      | cons b left =>
          cases w with
          | accept count =>
              by_cases hnone : count = 0
              · subst hnone
                exact ⟨[.accept 0], rfl, fun _ _ => ⟨_, List.mem_singleton_self _, rfl⟩⟩
              · obtain ⟨used, hused, hblocks⟩ := ih (accepted ++ (b :: left).take count) ((b :: left).drop count)
                have hloop : writenLoop true (.accept count :: writes) accepted (b :: left) =
                    writenLoop true writes (accepted ++ (b :: left).take count) ((b :: left).drop count) := by
                  rw [writenLoop, if_neg fun h => hnone h.1]
                  exact fun h => by cases h
                rw [hloop]
                refine ⟨.accept count :: used, congrArg (.accept count :: ·) hused, fun hended hleft => ?_⟩
                obtain ⟨w, hw, h⟩ := hblocks hended hleft
                exact ⟨w, List.mem_cons_of_mem _ hw, h⟩
          | eintr =>
              obtain ⟨used, hused, hblocks⟩ := ih accepted (b :: left)
              refine ⟨.eintr :: used, congrArg (.eintr :: ·) hused, fun hended hleft => ?_⟩
              obtain ⟨w, hw, h⟩ := hblocks hended hleft
              exact ⟨w, List.mem_cons_of_mem _ hw, h⟩
          | eagain => exact ⟨[.eagain], rfl, fun _ _ => ⟨_, List.mem_singleton_self _, rfl⟩⟩
          | error => exact ⟨[.error], rfl, fun h => by cases h⟩

theorem readSection_traced (host : Host) : Stage.Relates (readSection host) Traced := by
  intro c flow d hrun
  obtain ⟨used, hused, hzero⟩ := readnLoop_uses c.sock.reads c.http.inBuffer 0
  unfold readSection readn at hrun
  obtain ⟨-, -, hrun⟩ := bind_eq_ok hrun
  simp only [badRequest_ok shortMsg_badRequest] at hrun
  split_ifs at hrun with hclosing hneg heof hnone
  · cases hrun
    exact fun h => ⟨h, used, [], hused, rfl, iff_of_true hclosing (Or.inl hclosing), Or.inl⟩
  · cases hrun
    exact .of_error rfl
  · cases hrun
    exact fun h => ⟨h, used, [], hused, rfl, iff_of_true rfl (Or.inr (hzero.mp heof)), Or.inl⟩
  · cases hrun
    exact fun h => ⟨h, used, [], hused, rfl, iff_of_true rfl (Or.inr (hzero.mp heof)), Or.inl⟩
  · cases hrun
    refine fun h => ⟨h, used, [], hused, rfl, iff_of_false hclosing ?_, Or.inl⟩
    exact not_or.mpr ⟨hclosing, fun hmem => heof (hzero.mpr hmem)⟩

theorem uriSection_traced (host : Host) : Stage.Relates (uriSection host) Traced := by
  intro c flow d hrun
  rcases uriSection_cases c with ⟨r, hstate, hline⟩ | ⟨r, hstate, hline⟩ | hstate
  · rw [uriSection_rejects host hstate hline] at hrun
    obtain ⟨-, -, ⟨⟩⟩ := map_eq_ok hrun
    exact .of_error rfl
  · rw [uriSection_accepts host hstate hline] at hrun
    cases hrun
    exact .of_http rfl rfl
  · rw [uriSection_skip host hstate] at hrun
    cases hrun
    exact .refl c

theorem headersSection_traced (host : Host) : Stage.Relates (headersSection host) Traced := by
  intro c flow d hrun
  unfold headersSection at hrun
  split_ifs at hrun
  · obtain ⟨⟨flag, h⟩, hparse, hrun⟩ := bind_eq_ok hrun
    obtain ⟨st, headers, inBuffer, rfl⟩ := parseHeaders_frame hparse
    simp only [badRequest_ok shortMsg_badRequest] at hrun
    split_ifs at hrun
    · cases hrun
      exact .of_http rfl rfl
    · obtain ⟨-, -, ⟨⟩⟩ := bind_eq_ok hrun
      exact .of_error rfl
    · cases hrun
      exact .of_http rfl rfl
    · cases hrun
      exact .of_http rfl rfl
  · cases hrun
    exact .refl c

theorem bodySection_traced : Stage.Relates bodySection Traced := by
  intro c flow d hrun
  unfold bodySection at hrun
  split_ifs at hrun
  · split at hrun
    · obtain ⟨contentLength, -, hrun⟩ := bind_eq_ok hrun
      split_ifs at hrun
      · cases hrun
        exact .refl c
      · cases hrun
        exact .of_http rfl rfl
    · cases (badRequest_ok shortMsg_lackOfLength c).symm.trans hrun
      exact .of_error rfl
  · cases hrun
    exact .refl c

theorem analysisSection_traced (fs : FileSystem) : Stage.Relates (analysisSection fs) Traced := by
  intro c flow d hrun
  by_cases hstate : c.http.state = .analysis
  · rw [analysisSection, if_pos hstate] at hrun
    rcases analysisRequest_results fs c with ⟨-, h⟩ | ⟨-, -, h⟩ | ⟨-, -, -, h⟩ | ⟨-, -, -, -, -, h⟩
    all_goals
      rw [h] at hrun
      cases hrun
    · exact .of_error rfl
    · exact .of_error rfl
    · exact .of_http rfl rfl
    · exact .of_error rfl
  · rw [analysisSection_skip hstate] at hrun
    cases hrun
    exact .refl c

theorem handleReadBody_traced (host : Host) : Stage.Relates (handleReadBody host) Traced :=
  .seq Traced.trans (readSection_traced host) <| .seq Traced.trans (uriSection_traced host) <|
    .seq Traced.trans (headersSection_traced host) <| .seq Traced.trans bodySection_traced <|
      analysisSection_traced host.files

theorem writenString_uses (sock : Socket) (sbuff : Bytes) :
    (writenString sock sbuff).sock.reads = sock.reads ∧
      ∃ used, sock.writes = used ++ (writenString sock sbuff).sock.writes ∧
        (0 ≤ toInt (writenString sock sbuff).value → (writenString sock sbuff).sbuff ≠ [] →
          ∃ w ∈ used, w.blocks = true) := by
  obtain ⟨used, hused, hblocks⟩ := writenLoop_uses sock.writes [] sbuff
  have hsplit := writenLoop_split true sock.writes [] sbuff
  unfold writenString
  simp only []
  split_ifs with hfailed hwhole
  · exact ⟨rfl, used, hused, fun h => by simp at h⟩
  · exact ⟨rfl, used, hused, fun _ h => absurd rfl h⟩
  · refine ⟨rfl, used, hused, fun _ hleft => hblocks (by simpa using hfailed) fun hnone => hleft ?_⟩
    rw [hnone, List.append_nil, List.nil_append] at hsplit
    rw [hsplit, List.drop_length]

theorem handleWrite_traced (c : Conn) : Traced c (handleWrite c) := by
  intro herror
  by_cases hopen : c.http.error = false ∧ c.http.connectionState ≠ .disconnected
  · obtain ⟨hreads, used, hused, hblocks⟩ := writenString_uses c.sock c.http.outBuffer
    rw [handleWrite, if_pos hopen] at herror ⊢
    simp only [] at herror ⊢
    split_ifs at herror ⊢ with hneg hleft hleft
    · exact ⟨hopen.1, [], used, hreads.symm, hused, by simp,
        fun _ => Or.inr (hblocks (Int.not_lt.mp hneg) hleft)⟩
    · exact ⟨hopen.1, [], used, hreads.symm, hused, by simp, Or.inl⟩
  · rw [handleWrite_closed hopen] at herror ⊢
    exact Traced.refl c herror

theorem handleRead_traced {host : Host} {c d : Conn} (hrun : handleRead host c = .ok d) : Traced c d := by
  have hreset (c : Conn) : Traced c (reset c) := fun h => ⟨h, [], [], rfl, rfl, by simp [reset, Conn.call], Or.inl⟩
  have hlisten (c : Conn) : Traced c { c with chan.events := c.chan.events ||| EPOLLIN } := fun h =>
    ⟨h, [], [], rfl, rfl, by simp, fun hout =>
      Or.inl (((EventMask.has_or _ _ _).mp hout).resolve_right (by decide))⟩
  refine handleReadN_rule (R := Traced) (fun c d hpass => ?_) (fun c d h => h.trans _ _ _ (hreset d))
    (fun c d h => h.trans _ _ _ (hlisten d)) (fun c d e h _ => h.trans c d e) hrun
  obtain ⟨flow, e, hbody, ⟨-, rfl⟩ | ⟨-, rfl⟩⟩ := handleReadPass_cases hpass
  · exact handleReadBody_traced host c flow d hbody
  · exact (handleReadBody_traced host c flow e hbody).trans _ _ _ (handleWrite_traced e)

/-- All handlers before `handleConn`. -/
theorem beforeConn_traced {host : Host} {c d : Conn} (hignored : ¬ c.chan.revents.Ignored)
    (hrun : c.beforeConn host = .ok d) : Traced c.clearEvents d := by
  rw [Conn.beforeConn, handleEvents_handlers hignored] at hrun
  obtain ⟨e, he, hrun⟩ := bind_eq_ok hrun
  obtain ⟨e', he', hrun⟩ := bind_eq_ok hrun
  obtain rfl := Except.ok.inj hrun
  have hread : Traced c.clearEvents e := by
    split_ifs at he
    · exact handleRead_traced he
    · exact Except.ok.inj he ▸ Traced.refl c.clearEvents
  have hwritten : Traced e e' := by
    split_ifs at he'
    · exact Except.ok.inj he' ▸ handleWrite_traced e
    · exact Except.ok.inj he' ▸ Traced.refl e
  exact hread.trans _ _ _ hwritten

/-- A handler of the channel runs before `handleConn`. -/
def EventMask.Handled (revents : EventMask) : Prop :=
  revents.has (EPOLLIN ||| EPOLLPRI ||| EPOLLRDHUP) ∨ revents.has EPOLLOUT

instance (revents : EventMask) : Decidable revents.Handled := inferInstanceAs (Decidable (_ ∨ _))

theorem beforeConn_unhandled (host : Host) {c : Conn} (hignored : ¬ c.chan.revents.Ignored)
    (h : ¬ c.chan.revents.Handled) : c.beforeConn host = .ok c.clearEvents := by
  obtain ⟨hread, hwrite⟩ := not_or.mp h
  rw [Conn.beforeConn, handleEvents_handlers hignored, if_neg hread, pure_bind, if_neg hwrite]
  rfl

/-- The last handler before `handleConn` has tried to write what there is. -/
theorem beforeConn_armed {host : Host} {c d : Conn} (hignored : ¬ c.chan.revents.Ignored)
    (h : c.chan.revents.Handled) (hrun : c.beforeConn host = .ok d) : d.Armed := by
  rw [Conn.beforeConn, handleEvents_handlers hignored] at hrun
  obtain ⟨e, he, hrun⟩ := bind_eq_ok hrun
  obtain ⟨e', he', hrun⟩ := bind_eq_ok hrun
  obtain rfl := Except.ok.inj hrun
  by_cases hwrite : c.chan.revents.has EPOLLOUT
  · rw [if_pos hwrite] at he'
    obtain rfl := Except.ok.inj he'
    exact handleWrite_armed e
  · rw [if_neg hwrite] at he'
    obtain rfl := Except.ok.inj he'
    rw [if_pos (h.resolve_right hwrite)] at he
    exact handleRead_armed he

/-- The calls of `read` between the two states: one of them has returned zero. -/
def Conn.ReadsEof (c d : Conn) : Prop := ∃ read, c.sock.reads = read ++ d.sock.reads ∧ .eof ∈ read

/-- The calls of `write` between the two states: one of them has left output. -/
def Conn.WriteBlocks (c d : Conn) : Prop :=
  ∃ written, c.sock.writes = written ++ d.sock.writes ∧ ∃ w ∈ written, w.blocks = true

/-- **A half-closed connection with output left, on its event**: no handler has failed, the connection was half
closed before the event or a read of it has found the peer done sending, and a write of it has left output. -/
theorem beforeConn_draining {host : Host} {c d : Conn} (hignored : ¬ c.chan.revents.Ignored)
    (hrun : c.beforeConn host = .ok d) (h : d.Draining) :
    c.http.error = false ∧ (c.http.connectionState = .disconnecting ∨ c.ReadsEof d) ∧ c.WriteBlocks d := by
  obtain ⟨herror, hstate, hout⟩ := h
  obtain ⟨hc, read, written, huses⟩ := beforeConn_traced hignored hrun herror
  refine ⟨hc, (huses.halfClosed.mp hstate).imp_right fun heof => ⟨read, huses.reads, heof⟩,
    written, huses.writes, ?_⟩
  exact (huses.out hout).resolve_left (EventMask.not_zero_has _)

/-- Where a handler runs, that is what leaves output behind. -/
theorem beforeConn_drains {host : Host} {c d : Conn} (hignored : ¬ c.chan.revents.Ignored)
    (hhandled : c.chan.revents.Handled) (hrun : c.beforeConn host = .ok d) (herror : d.http.error = false)
    (hclosed : c.http.connectionState = .disconnecting ∨ c.ReadsEof d) (hleft : d.http.outBuffer ≠ []) :
    d.Draining := by
  obtain ⟨hc, read, written, huses⟩ := beforeConn_traced hignored hrun herror
  have hstate : d.http.connectionState = .disconnecting := by
    refine huses.halfClosed.mpr (hclosed.imp_right fun ⟨read', hread', heof⟩ => ?_)
    rwa [List.append_cancel_right (hread'.symm.trans huses.reads)] at heof
  exact ⟨herror, hstate, beforeConn_armed hignored hhandled hrun herror (by simp [hstate]) hleft⟩

end WebServer
