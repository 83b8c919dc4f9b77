import Mathlib.Data.List.Flatten

/-! A queue of items that is kept in pages. An item goes as a whole to the end of the last page, or is refused;
pages are added at the end, dropped from anywhere and taken from the front. Whatever the order of these moves,
no item is torn: what was taken and what is held are some of the items, each as it was put and in their
order. -/

namespace Paging

variable {β : Type*}

/-- What was taken, and the pages that are held. -/
structure Queue (β : Type*) where
  taken : List β
  pages : List (List β)

/-- A move, with the items that are offered in it. -/
inductive Move : Queue β → List (List β) → Queue β → Prop
  | put (taken : List β) (pages : List (List β)) (page item : List β) :
      Move ⟨taken, pages ++ [page]⟩ [item] ⟨taken, pages ++ [page ++ item]⟩
  | refuse (q : Queue β) (item : List β) : Move q [item] q
  | add (taken : List β) (pages : List (List β)) : Move ⟨taken, pages⟩ [] ⟨taken, pages ++ [[]]⟩
  | drop (taken : List β) {pages kept : List (List β)} (hkept : kept.Sublist pages) :
      Move ⟨taken, pages⟩ [] ⟨taken, kept⟩
  | take (taken page : List β) (pages : List (List β)) :
      Move ⟨taken, page :: pages⟩ [] ⟨taken ++ page, pages⟩

/-- Moves one behind the other. -/
inductive Moves : Queue β → List (List β) → Queue β → Prop
  | refl (q : Queue β) : Moves q [] q
  | step {q r u : Queue β} {items items' : List (List β)} (hmove : Move q items r)
      (hmoves : Moves r items' u) : Moves q (items ++ items') u

theorem Move.moves {q r : Queue β} {items : List (List β)} (h : Move q items r) : Moves q items r := by
  have hone := Moves.step h (.refl r)
  rwa [List.append_nil] at hone

theorem Moves.trans {q r u : Queue β} {items items' : List (List β)} (h : Moves q items r)
    (h' : Moves r items' u) : Moves q (items ++ items') u := by
  induction h with
  | refl q => exact h'
  | step hmove _ ih =>
      rw [List.append_assoc]
      exact .step hmove (ih h')

/-- Some of the items fill what was taken and the pages, each of them on one side of every cut. -/
def Whole (items : List (List β)) (q : Queue β) : Prop :=
  ∃ (gone : List (List β)) (rows : List (List (List β))), q.taken = gone.flatten ∧
    q.pages = rows.map List.flatten ∧ (gone ++ rows.flatten).Sublist items

theorem whole_new : Whole [] (⟨[], [[]]⟩ : Queue β) := ⟨[], [[]], rfl, rfl, .slnil⟩

/-- A move tears no item: what it takes and what is held behind it are whole items again. -/
theorem Move.rows {q r : Queue β} {items offered gone : List (List β)} {rows : List (List (List β))}
    (h : Move q offered r) (hpages : q.pages = rows.map List.flatten)
    (hsub : (gone ++ rows.flatten).Sublist items) :
    ∃ (more : List (List β)) (rows' : List (List (List β))), r.taken = q.taken ++ more.flatten ∧
      r.pages = rows'.map List.flatten ∧ (gone ++ more ++ rows'.flatten).Sublist (items ++ offered) := by
  cases h with
  | put taken pages page item =>
      obtain ⟨front, last, rfl, hfront, hlast⟩ := List.map_eq_append_iff.mp hpages.symm
      obtain ⟨row, rfl, hrow⟩ := List.map_eq_singleton_iff.mp hlast
      refine ⟨[], front ++ [row ++ [item]], (List.append_nil _).symm, ?_, ?_⟩
      · rw [List.map_append, hfront, List.map_singleton, List.flatten_append, hrow, List.flatten_singleton]
      · have hmore := hsub.append (List.Sublist.refl [item])
        simpa only [List.flatten_append, List.flatten_singleton, List.append_assoc, List.nil_append] using hmore
  | refuse _ item =>
      refine ⟨[], rows, (List.append_nil _).symm, hpages, ?_⟩
      rw [List.append_nil]
      exact hsub.trans (List.sublist_append_left items [item])
  | add taken pages =>
      refine ⟨[], rows ++ [[]], (List.append_nil _).symm, ?_, ?_⟩
      · rw [List.map_append, ← hpages]
        rfl
      · simpa only [List.flatten_append, List.flatten_singleton, List.append_nil] using hsub
  | drop taken hkept =>
      dsimp only at hpages
      obtain ⟨rows', hrows, rfl⟩ := List.sublist_map_iff.mp (hpages ▸ hkept)
      refine ⟨[], rows', (List.append_nil _).symm, rfl, ?_⟩
      rw [List.append_nil, List.append_nil]
      exact ((List.Sublist.refl gone).append hrows.flatten).trans hsub
  | take taken page pages =>
      obtain ⟨row, rows, rfl, hrow, hrows⟩ := List.map_eq_cons_iff.mp hpages.symm
      refine ⟨row, rows, ?_, hrows.symm, ?_⟩
      · rw [hrow]
      · rw [List.append_nil, List.append_assoc]
        exact hsub

theorem Moves.rows {q r : Queue β} {offered : List (List β)} (h : Moves q offered r) :
    ∀ {items gone : List (List β)} {rows : List (List (List β))}, q.pages = rows.map List.flatten →
      (gone ++ rows.flatten).Sublist items →
      ∃ (more : List (List β)) (rows' : List (List (List β))), r.taken = q.taken ++ more.flatten ∧
        r.pages = rows'.map List.flatten ∧ (gone ++ more ++ rows'.flatten).Sublist (items ++ offered) := by
  induction h with
  | refl q =>
      intro items gone rows hpages hsub
      refine ⟨[], rows, (List.append_nil _).symm, hpages, ?_⟩
      rwa [List.append_nil, List.append_nil]
  | step hmove _ ih =>
      intro items gone rows hpages hsub
      obtain ⟨more, rows', htaken, hpages', hsub'⟩ := hmove.rows hpages hsub
      obtain ⟨later, rows'', htaken', hpages'', hsub''⟩ := ih hpages' hsub'
      refine ⟨more ++ later, rows'', ?_, hpages'', ?_⟩
      · rw [htaken', htaken, List.flatten_append, List.append_assoc]
      · rwa [← List.append_assoc gone, ← List.append_assoc items]

theorem Moves.whole {q r : Queue β} {items offered : List (List β)} (h : Moves q offered r)
    (hq : Whole items q) : Whole (items ++ offered) r := by
  obtain ⟨gone, rows, htaken, hpages, hsub⟩ := hq
  obtain ⟨more, rows', htaken', hpages', hsub'⟩ := h.rows hpages hsub
  refine ⟨gone ++ more, rows', ?_, hpages', hsub'⟩
  rw [htaken', htaken, List.flatten_append]

/-- The pages that were taken and those that are held, filled with some of the items. -/
def Filled (items pages : List (List β)) (q : Queue β) : Prop :=
  ∃ gone rows : List (List (List β)), pages = gone.map List.flatten ∧ q.pages = rows.map List.flatten ∧
    (gone.flatten ++ rows.flatten).Sublist items

theorem filled_new : Filled [] [] (⟨[], [[]]⟩ : Queue β) := ⟨[], [[]], rfl, rfl, .slnil⟩

/-- The moves of a step take one page, or nothing. -/
theorem Moves.filled {q r : Queue β} {items offered pages page : List (List β)} (h : Moves q offered r)
    (htakes : r.taken = q.taken ++ page.flatten) (hpage : page.length ≤ 1) (hq : Filled items pages q) :
    Filled (items ++ offered) (pages ++ page) r := by
  obtain ⟨gone, rows, rfl, hpages, hsub⟩ := hq
  obtain ⟨more, rows', htaken, hpages', hsub'⟩ := h.rows hpages hsub
  have hmore : more.flatten = page.flatten := List.append_cancel_left (htaken.symm.trans htakes)
  match page, hpage with
  | [], _ =>
      -- what was taken is empty, and its items are left out
      refine ⟨gone, rows', List.append_nil _, hpages', ?_⟩
      rw [List.append_assoc] at hsub'
      exact ((List.Sublist.refl _).append (List.sublist_append_right more rows'.flatten)).trans hsub'
  | [b], _ =>
      refine ⟨gone ++ [more], rows', ?_, hpages', ?_⟩
      · rw [List.map_append, List.map_singleton, hmore, List.flatten_singleton]
      · rwa [List.flatten_append, List.flatten_singleton]

/-- What was taken is made of whole items. -/
theorem Whole.taken_eq {q : Queue β} {items : List (List β)} (h : Whole items q) :
    ∃ gone : List (List β), gone.Sublist items ∧ q.taken = gone.flatten := by
  obtain ⟨gone, rows, htaken, -, hsub⟩ := h
  exact ⟨gone, (List.sublist_append_left gone rows.flatten).trans hsub, htaken⟩

end Paging
