import WebServer.HttpResponses
import WebServer.Once

/-! `MimeType::getMime` on many threads. The first thread that asks fills the table, and the others wait for
it. Behind that every thread reads the table without a lock, and with an operator that would insert what it
does not find; it is applied only to keys that are found, so the table stays as it was filled and each call
returns the type of its suffix. -/

namespace WebServer

open Runs

namespace HeaderMap

variable {m : HeaderMap}

theorem find_assign (m : HeaderMap) (key value : Bytes) (k : Bytes) :
    (m.assign key value).find k = if k = key then some value else m.find k := by
  unfold assign find
  by_cases hk : k = key
  · subst hk
    rw [if_pos rfl, List.find?_cons_of_pos (by simp)]
    rfl
  · rw [if_neg hk, List.find?_cons_of_neg (by simp [Ne.symm hk]), List.find?_filter]
    congr 2
    funext entry
    by_cases hentry : entry.1 = k
    · simp [hentry, hk]
    · simp [hentry]

/-- `m[key]`, with what it leaves: a key that is not found is inserted. -/
def index (m : HeaderMap) (key : Bytes) : HeaderMap × Bytes :=
  match m.find key with
  | some value => (m, value)
  | none => (m.assign key [], [])

theorem index_of_find {key value : Bytes} (h : m.find key = some value) : m.index key = (m, value) := by
  rw [index, h]

/-- The entries of a list, each key of which is assigned once. -/
theorem find_assigns (entries : HeaderMap) (hdistinct : (entries.map Prod.fst).Nodup) (m : HeaderMap)
    (k : Bytes) :
    (entries.foldl (fun m entry => m.assign entry.1 entry.2) m).find k =
      (HeaderMap.find entries k).or (m.find k) := by
  induction entries generalizing m with
  | nil => rfl
  | cons entry entries ih =>
      obtain ⟨hnew, hrest⟩ := List.nodup_cons.mp hdistinct
      rw [List.foldl_cons, ih hrest, find_assign]
      by_cases hk : k = entry.1
      · have hnone : HeaderMap.find entries k = none := by
          rw [find, Option.map_eq_none_iff, List.find?_eq_none]
          intro e he hkey
          refine hnew (List.mem_map.mpr ⟨e, he, ?_⟩)
          rw [beq_iff_eq.mp hkey, hk]
        have hfirst : HeaderMap.find (entry :: entries) k = some entry.2 := by
          rw [find, List.find?_cons_of_pos (by simp [hk])]
          rfl
        rw [hnone, if_pos hk, hfirst]
        rfl
      · have hlater : HeaderMap.find (entry :: entries) k = HeaderMap.find entries k := by
          rw [find, List.find?_cons_of_neg (by simp [Ne.symm hk])]
          rfl
        rw [if_neg hk, hlater]

end HeaderMap

/-- Where a call of `getMime` is behind `pthread_once`. -/
inductive MimeCall where
  /-- At `mime.find(suffix)`. -/
  | lookup (suffix : Bytes)
  /-- At `mime[key]`. -/
  | index (suffix key : Bytes)
  deriving DecidableEq

namespace MimeType

/-- `MimeType::init`, an assignment for each part. -/
def init : List (HeaderMap → HeaderMap) := mime.map fun entry m => m.assign entry.1 entry.2

/-- The key that `getMime` reads. -/
def key (m : HeaderMap) (suffix : Bytes) : Bytes := if m.find suffix = none then bytes "default" else suffix

/-- `MimeType::getMime` behind `pthread_once`. -/
def act (m : HeaderMap) : MimeCall → Option (HeaderMap × Option MimeCall)
  | .lookup suffix => some (m, some (.index suffix (key m suffix)))
  | .index _ key => some ((m.index key).1, none)

def system : Once.System HeaderMap MimeCall Empty := ⟨[], init, act, fun _ b => nomatch b⟩

abbrev Threads (ι : Type) := Once.State ι HeaderMap MimeCall

variable {ι : Type} [DecidableEq ι]

/-- A call of `getMime` begins with its suffix. -/
def Asks (_ : Threads ι) : Once.Step ι MimeCall Empty → Prop
  | .call _ (.index _ _) => False
  | _ => True

instance (s : Threads ι) : ∀ a, Decidable (Asks s a)
  | .call _ (.lookup _) => inferInstanceAs (Decidable True)
  | .call _ (.index _ _) => inferInstanceAs (Decidable False)
  | .enter _ | .part _ | .act _ | .background _ => inferInstanceAs (Decidable True)

/-- A value that is returned, with the suffix of the call. -/
def answers (s : Threads ι) : Once.Step ι MimeCall Empty → List (Bytes × Bytes)
  | .act i =>
      match s.calls i with
      | .behind (.index suffix key) => [(suffix, (s.shared.index key).2)]
      | _ => []
  | _ => []

theorem ready_find (k : Bytes) : system.ready.find k = HeaderMap.find mime k := by
  have hdistinct : (mime.map Prod.fst).Nodup := by decide
  rw [Once.System.ready, system, init, List.foldl_map, HeaderMap.find_assigns mime hdistinct]
  exact Option.or_none

/-- What `getMime` reads from the table as it was filled. -/
theorem index_ready (suffix : Bytes) :
    system.ready.index (key system.ready suffix) = (system.ready, getMime suffix) := by
  have hdefault : (HeaderMap.find mime (bytes "default")).isSome := by decide
  apply HeaderMap.index_of_find
  rw [key, ready_find, ready_find, getMime]
  cases hfind : HeaderMap.find mime suffix with
  | none =>
      obtain ⟨type, htype⟩ := Option.isSome_iff_exists.mp hdefault
      rw [if_pos rfl, htype]
      rfl
  | some type => rw [if_neg (by simp), hfind]

/-- Each call is at its own suffix, and reads the key that goes with it. -/
def Keyed (c : Once.Call MimeCall) : Prop :=
  match c with
  | .idle => True
  | .asked k | .inside k => ∃ suffix, k = .lookup suffix
  | .behind (.lookup _) => True
  | .behind (.index suffix k) => k = key system.ready suffix

/-- The table is as it was filled, or is being filled. -/
structure Inv (s : Threads ι) : Prop where
  once : Once.State.Inv system s
  table : s.view system = system.ready
  keyed : ∀ i, Keyed (s.calls i)

variable {s t : Threads ι}

omit [DecidableEq ι] in
theorem new_inv : Inv (Once.State.new system : Threads ι) where
  once := Once.State.new_inv
  table := Once.State.view_unready rfl
  keyed _ := trivial

theorem act_ready {k : MimeCall} {u : HeaderMap} {next : Option MimeCall} (hk : Keyed (.behind k))
    (hact : act system.ready k = some (u, next)) : u = system.ready ∧ Keyed (next.elim .idle .behind) := by
  cases k with
  | lookup suffix =>
      cases hact
      exact ⟨rfl, rfl⟩
  | index suffix k =>
      cases hact
      rw [show k = key system.ready suffix from hk, index_ready]
      exact ⟨rfl, trivial⟩

omit [DecidableEq ι] in
/-- Behind `pthread_once` the table is there. -/
theorem Inv.shared (hs : Inv s) {i : ι} {k : MimeCall} (hcall : s.calls i = .behind k) :
    s.shared = system.ready := by
  have hready : s.isReady system = true := Once.State.isReady_done (hs.once.behind i k hcall)
  rw [← hs.table, Once.State.view_ready hready]

theorem keyed_setCall (h : ∀ i, Keyed (s.calls i)) {i : ι} {c : Once.Call MimeCall} (hc : Keyed c) (j : ι) :
    Keyed ((s.setCall i c).calls j) := by
  rw [Once.State.calls_setCall]
  split_ifs
  · exact hc
  · exact h j

theorem step_inv {a : Once.Step ι MimeCall Empty} (hs : Inv s) (ha : Asks s a)
    (hstep : s.step system a = some t) : Inv t := by
  refine ⟨Once.State.step_inv hs.once hstep, ?_, ?_⟩
  · have hseen := Once.State.step_seen (fun m l => ∃ k, l = .inl k ∧ Keyed (.behind k)) hs.once ?_ hstep
    · refine hseen.invariant (I := fun m => m = system.ready) ?_ hs.table
      rintro m l u ⟨k, rfl, hk⟩ hplain rfl
      obtain ⟨⟨u, next⟩, hact, rfl⟩ := Option.map_eq_some_iff.mp hplain
      exact (act_ready hk hact).1
    · intro l hl
      cases a with
      | act i =>
          cases hcall : s.calls i <;> simp only [Once.State.labels, hcall, List.mem_singleton,
            List.not_mem_nil] at hl
          exact ⟨_, hl, hcall ▸ hs.keyed i⟩
      | background b => cases b
      | _ => cases hl
  · obtain ⟨i, k, rfl, -, rfl⟩ | ⟨i, k, -, hcall, -, rfl⟩ | ⟨i, k, -, hcall, -, rfl⟩ |
      ⟨i, k, n, -, hcall, -, rfl⟩ | ⟨i, k, u, next, -, hcall, hact, rfl⟩ | ⟨b, -⟩ :=
      Once.State.step_cases hstep
    · cases k with
      | lookup suffix => exact keyed_setCall hs.keyed ⟨suffix, rfl⟩
      | index suffix key => exact ha.elim
    · have hkeyed : Keyed (.asked k) := hcall ▸ hs.keyed i
      exact keyed_setCall (s := { s with control := .running i 0 }) hs.keyed hkeyed
    · obtain ⟨suffix, hsuffix⟩ : Keyed (.asked k) := hcall ▸ hs.keyed i
      exact keyed_setCall hs.keyed (hsuffix ▸ trivial)
    · obtain ⟨suffix, hsuffix⟩ : Keyed (.inside k) := hcall ▸ hs.keyed i
      unfold Once.State.runPart
      split
      · exact hs.keyed
      · exact keyed_setCall (s := { s with control := .done }) hs.keyed (hsuffix ▸ trivial)
    · rw [hs.shared hcall] at hact
      exact keyed_setCall (s := { s with shared := u }) hs.keyed (act_ready (hcall ▸ hs.keyed i) hact).2
    · cases b

omit [DecidableEq ι] in
theorem step_answers {a : Once.Step ι MimeCall Empty} (hs : Inv s) :
    ∀ e ∈ answers s a, e.2 = getMime e.1 := by
  intro e he
  cases a with
  | act i =>
      cases hcall : s.calls i <;> simp only [answers, hcall, List.not_mem_nil] at he
      rename_i k
      cases k with
      | lookup suffix => cases he
      | index suffix k =>
          have hk : k = key system.ready suffix := by
            have hkeyed := hs.keyed i
            rwa [hcall] at hkeyed
          rw [List.mem_singleton.mp he, hs.shared hcall, hk, index_ready]
  | _ => cases he

/-- **The table is filled once and only read.** Whatever threads ask for types, in whatever order, each call
returns the type of its suffix, and behind the first one the table is as it was filled. -/
theorem run_getMime {as : List (Once.Step ι MimeCall Empty)}
    (hrun : Run (Once.State.step system) Asks (Once.State.new system) as t) :
    (∀ e ∈ emitted (Once.State.step system) answers (Once.State.new system) as, e.2 = getMime e.1) ∧
      (t.isReady system = true → ∀ k, t.shared.find k = HeaderMap.find mime k) := by
  have hend : Inv t ∧ ∀ e ∈ [] ++ emitted (Once.State.step system) answers (Once.State.new system) as,
      e.2 = getMime e.1 := by
    refine hrun.emitted_invariant
      (I := fun s (log : List (Bytes × Bytes)) => Inv s ∧ ∀ e ∈ log, e.2 = getMime e.1)
      (fun s a u log hok hstep h => ?_)
      ⟨new_inv, fun e he => nomatch he⟩
    refine ⟨step_inv h.1 hok hstep, fun e he => ?_⟩
    exact (List.mem_append.mp he).elim (h.2 e) (step_answers h.1 e)
  refine ⟨hend.2, fun hready k => ?_⟩
  rw [← Once.State.view_ready hready, hend.1.table, ready_find]

/-- Two threads that ask at the same time; the second one waits for the table that the first one fills. -/
def twoAsk : List (Once.Step Bool MimeCall Empty) :=
  [.call true (.lookup (bytes ".png")), .enter true, .part true, .call false (.lookup (bytes ".xyz"))] ++
    List.replicate 14 (.part true) ++ [.enter false, .act false, .act true, .act true, .act false]

theorem run_getMime_two :
    ∃ t : Threads Bool, t.isReady system = true ∧
      emitted (Once.State.step system) answers (Once.State.new system) twoAsk =
        [(bytes ".png", bytes "image/png"), (bytes ".xyz", bytes "text/html")] ∧
      (∀ e ∈ emitted (Once.State.step system) answers (Once.State.new system) twoAsk, e.2 = getMime e.1) ∧
        ∀ k, t.shared.find k = HeaderMap.find mime k := by
  have hexec : ∃ t : Threads Bool, exec (checked (Once.State.step system) Asks) (Once.State.new system) twoAsk =
      some t ∧ t.isReady system = true := ⟨_, rfl, rfl⟩
  obtain ⟨t, ht, hready⟩ := hexec
  obtain ⟨hanswers, htable⟩ := run_getMime (run_of_exec_checked ht)
  exact ⟨t, hready, rfl, hanswers, htable hready⟩

end MimeType

end WebServer
