import RestDemo.Log.Cells
import RestDemo.Proofs.Log.Retention

/-!
# Logs in cells

In a store of cells, no run shares its cell with another one or with a list that was handed out
(`CellStore.Apart`). So appending, listing and clearing what was listed shows what a store shows that
is only appended to (`refines`), and with what is kept of its appends the store is known
(`store_keeps_latest_openings`).
-/

namespace RestDemo

namespace CellStore

variable {limit : Nat} {run : String} {e : Event} {c d : CellStore}

/-- No run shares its cell with another one, or with a list that was handed out. -/
structure Apart (c : CellStore) : Prop where
  names : c.runs.names.Nodup
  cells : (c.runs.map Prod.snd).Nodup
  there : ∀ p ∈ c.runs, p.2 < c.cells.length
  handedThere : ∀ cell ∈ c.handed, cell < c.cells.length
  handed : ∀ cell ∈ c.handed, cell ∉ c.runs.map Prod.snd

theorem apart_empty (limit : Nat) : Apart (empty limit) where
  names := List.nodup_nil
  cells := List.nodup_nil
  there _ h := nomatch h
  handedThere _ h := nomatch h
  handed _ h := nomatch h

/-! ## Cells -/

theorem read_write_self {cell : Nat} (h : cell < c.cells.length) (es : List Event) :
    (c.write cell es).read cell = es := by
  rw [read, write, List.getElem?_set_self h]
  rfl

theorem read_write_of_ne {cell other : Nat} (h : cell ≠ other) (es : List Event) :
    (c.write cell es).read other = c.read other := by
  rw [read, write, List.getElem?_set_ne h]
  rfl

theorem evict_eq_drop (limit : Nat) (runs : Table Nat) :
    evict limit runs = runs.drop (runs.length - limit) := by
  induction runs with
  | nil => simp [evict]
  | cons r rest ih =>
    rw [evict]
    by_cases hlong : limit < (r :: rest).length
    · rw [if_pos hlong, ih]
      rw [List.length_cons] at hlong ⊢
      have hpos : rest.length + 1 - limit = rest.length - limit + 1 := by omega
      rw [hpos, List.drop_succ_cons]
    · rw [if_neg hlong]
      have hzero : (r :: rest).length - limit = 0 := by omega
      rw [hzero, List.drop_zero]

/-- What is in a cell that no run has is not shown. -/
theorem shown_write {cell : Nat} (h : cell ∉ c.runs.map Prod.snd) (es : List Event) :
    (c.write cell es).shown = c.shown := by
  refine congrArg (LogStore.mk c.limit) (Table.mapEntries_congr fun p hp => ?_)
  have hne : cell ≠ p.2 := fun heq => h (heq ▸ List.mem_map_of_mem hp)
  exact read_write_of_ne hne es

/-- A new cell changes nothing in those that are there. -/
theorem getElem?_new {cells : List (List Event)} {cell : Nat} (h : cell < cells.length)
    (es : List Event) : ((cells ++ [es])[cell]?).getD [] = (cells[cell]?).getD [] := by
  rw [List.getElem?_append_left h]

theorem names_shown (c : CellStore) : c.shown.runs.names = c.runs.names := by
  rw [shown, Table.names_mapEntries]

theorem has_shown (c : CellStore) (run : String) : c.shown.has run = c.runs.has run := by
  rw [Bool.eq_iff_iff, LogStore.has, Table.has_iff_mem_names, names_shown, Table.has_iff_mem_names]

theorem events_shown (c : CellStore) (run : String) :
    c.shown.events run = ((c.runs.get? run).map c.read).getD [] := by
  rw [LogStore.events, shown, Table.get?_mapEntries]

/-! ## Appending -/

theorem Apart.write (h : c.Apart) (cell : Nat) (es : List Event) : (c.write cell es).Apart where
  names := h.names
  cells := h.cells
  there p hp := by
    rw [CellStore.write, List.length_set]
    exact h.there p hp
  handedThere cell hcell := by
    rw [CellStore.write, List.length_set]
    exact h.handedThere cell hcell
  handed := h.handed

/-- Where one cell is changed, one entry is. -/
theorem mapEntries_of_changed {t : Table Nat} {cell : Nat} {f g : Nat → List Event}
    (hcells : (t.map Prod.snd).Nodup) (hget : t.get? run = some cell)
    (hsame : ∀ other, cell ≠ other → g other = f other) :
    t.mapEntries (fun _ => g) = (t.mapEntries fun _ => f).set run (g cell) := by
  induction t with
  | nil => cases hget
  | cons p rest ih =>
    obtain ⟨name, first⟩ := p
    rw [List.map_cons, List.nodup_cons] at hcells
    rw [Table.mapEntries_cons, Table.mapEntries_cons, Table.set]
    rw [Table.get?] at hget
    by_cases hname : name = run
    · rw [if_pos hname] at hget ⊢
      obtain rfl := Option.some.inj hget
      refine congrArg ((name, g first) :: ·) (Table.mapEntries_congr fun q hq => ?_)
      exact hsame q.2 fun heq => hcells.1 (List.mem_map.2 ⟨q, hq, heq.symm⟩)
    · rw [if_neg hname] at hget ⊢
      have hne : cell ≠ first := by
        rintro rfl
        exact hcells.1 (List.mem_map.2 ⟨_, Table.mem_of_get? hget, rfl⟩)
      rw [hsame first hne, ih hcells.2 hget]

theorem shown_write_of_get? (h : c.Apart) {cell : Nat} (hget : c.runs.get? run = some cell)
    (e : Event) : (c.write cell (c.read cell ++ [e])).shown = c.shown.extend run [e] := by
  have hcell := h.there _ (Table.mem_of_get? hget)
  have hhas : c.shown.has run := by
    rw [has_shown, Table.has, hget]
    rfl
  have hevents : c.shown.events run = c.read cell := by
    rw [events_shown, hget]
    rfl
  have hchanged := mapEntries_of_changed h.cells hget
    (fun other hne => read_write_of_ne (c := c) hne (c.read cell ++ [e]))
  rw [read_write_self hcell] at hchanged
  rw [LogStore.extend, if_pos hhas, hevents]
  exact congrArg (LogStore.mk c.limit) hchanged

theorem limit_opened (run : String) (c : CellStore) : (c.opened run).limit = c.limit := by
  unfold opened
  split <;> rfl

theorem limit_clear (n : Nat) (c : CellStore) : (c.clear n).limit = c.limit := by
  unfold clear
  split <;> rfl

/-- A run that is opened is the last one, with an empty list in a cell of its own. -/
theorem opened_of_not_has (hlimit : 0 < c.limit) (habsent : ¬ c.runs.has run) :
    c.opened run = { c with
      runs := c.runs.drop (c.runs.length + 1 - c.limit) ++ [(run, c.cells.length)]
      cells := c.cells ++ [[]] } := by
  have hle : c.runs.length + 1 - c.limit ≤ c.runs.length := by omega
  rw [opened, if_neg habsent, evict_eq_drop, List.length_append, List.length_singleton,
    List.drop_append_of_le_length hle]

theorem get?_opened (hlimit : 0 < c.limit) (habsent : ¬ c.runs.has run) :
    (c.opened run).runs.get? run = some c.cells.length := by
  have hnot : run ∉ Table.names (c.runs.drop (c.runs.length + 1 - c.limit)) := fun hmem =>
    habsent (Table.has_iff_mem_names.2 (List.map_subset _ (List.drop_subset _ _) hmem))
  rw [opened_of_not_has hlimit habsent, Table.get?_append, Table.get?_eq_none_iff.2 hnot,
    Option.none_or, Table.get?, if_pos rfl]

theorem Apart.opened (h : c.Apart) (hlimit : 0 < c.limit) (habsent : ¬ c.runs.has run) :
    (c.opened run).Apart := by
  have hname : run ∉ c.runs.names := fun hmem => habsent (Table.has_iff_mem_names.2 hmem)
  rw [opened_of_not_has hlimit habsent]
  generalize c.runs.length + 1 - c.limit = n
  have hkept : c.runs.drop n ⊆ c.runs := List.drop_subset _ _
  refine ⟨?_, ?_, ?_, ?_, ?_⟩
  · rw [Table.names_append, List.nodup_append]
    refine ⟨h.names.sublist ((List.drop_sublist _ _).map _), by simp, ?_⟩
    rintro name hmem _ hlast rfl
    obtain rfl : name = run := List.mem_singleton.1 hlast
    exact hname (List.map_subset _ hkept hmem)
  · rw [List.map_append, List.nodup_append]
    refine ⟨h.cells.sublist ((List.drop_sublist _ _).map _), by simp, ?_⟩
    rintro cell hmem _ hlast rfl
    obtain ⟨p, hp, rfl⟩ := List.mem_map.1 hmem
    exact absurd (List.mem_singleton.1 hlast) (Nat.ne_of_lt (h.there p (hkept hp)))
  · intro p hp
    rw [List.length_append, List.length_singleton]
    rcases List.mem_append.1 hp with hp | hp
    · exact Nat.lt_succ_of_lt (h.there p (hkept hp))
    · rw [List.mem_singleton.1 hp]
      exact Nat.lt_succ_self _
  · intro cell hcell
    rw [List.length_append, List.length_singleton]
    exact Nat.lt_succ_of_lt (h.handedThere cell hcell)
  · intro cell hcell hmem
    rw [List.map_append, List.mem_append] at hmem
    rcases hmem with hmem | hlast
    · exact h.handed cell hcell (List.map_subset _ hkept hmem)
    · exact absurd (List.mem_singleton.1 hlast) (Nat.ne_of_lt (h.handedThere cell hcell))

theorem shown_opened (h : c.Apart) (hlimit : 0 < c.limit) (habsent : ¬ c.runs.has run) :
    (c.opened run).shown = c.shown.extend run [] := by
  have hhas : ¬ c.shown.has run := by rwa [has_shown]
  have hlength : c.shown.runs.length = c.runs.length := List.length_map _
  have hlatest := LogStore.latest_append_singleton hlimit c.shown.runs (run, [])
  rw [hlength] at hlatest
  rw [opened_of_not_has hlimit habsent, LogStore.extend, if_neg hhas]
  refine congrArg (LogStore.mk c.limit) (Eq.trans ?_ hlatest.symm)
  generalize c.runs.length + 1 - c.limit = n
  have hlast : ((c.cells ++ [[]])[c.cells.length]?).getD [] = ([] : List Event) := by simp
  rw [Table.mapEntries_append, shown, ← Table.mapEntries_drop]
  refine congrArg₂ (· ++ ·) (Table.mapEntries_congr fun p hp => ?_) ?_
  · exact getElem?_new (h.there p (List.drop_subset _ _ hp)) []
  · exact congrArg (fun es => [(run, es)]) hlast

/-- An append to the cells is shown as an append to the store. -/
theorem exists_append (h : c.Apart) (hlimit : 0 < c.limit) (run : String) (e : Event) :
    ∃ d, c.append run e = .ok d ∧ d.Apart ∧ d.limit = c.limit ∧
      c.shown.append run e = .ok d.shown := by
  have hshown : c.shown.append run e = .ok (c.shown.extend run [e]) :=
    LogStore.append_eq_extend hlimit run e
  by_cases hhas : c.runs.has run
  · obtain ⟨cell, hget⟩ := Option.isSome_iff_exists.1 hhas
    refine ⟨c.write cell (c.read cell ++ [e]), ?_, h.write _ _, rfl, ?_⟩
    · rw [append, opened, if_pos hhas, hget]
    · rw [hshown, shown_write_of_get? h hget]
  · have hopened := shown_opened h hlimit hhas
    have hget := get?_opened hlimit hhas
    refine ⟨(c.opened run).write c.cells.length ((c.opened run).read c.cells.length ++ [e]), ?_,
      (h.opened hlimit hhas).write _ _, limit_opened run c, ?_⟩
    · rw [append, hget]
    · rw [hshown, shown_write_of_get? (h.opened hlimit hhas) hget, hopened,
        LogStore.extend_extend hlimit]
      rfl

/-! ## Listing and clearing -/

theorem Apart.list (h : c.Apart) (run : String) : (c.list run).Apart := by
  refine ⟨h.names, h.cells, fun p hp => ?_, fun cell hcell => ?_, fun cell hcell hmem => ?_⟩
  · rw [CellStore.list, List.length_append]
    exact Nat.lt_add_right _ (h.there p hp)
  · rw [CellStore.list, List.length_append, List.length_singleton]
    rcases List.mem_append.1 hcell with hcell | hlast
    · exact Nat.lt_succ_of_lt (h.handedThere cell hcell)
    · rw [List.mem_singleton.1 hlast]
      exact Nat.lt_succ_self _
  · rcases List.mem_append.1 hcell with hcell | hlast
    · exact h.handed cell hcell hmem
    · obtain ⟨p, hp, rfl⟩ := List.mem_map.1 hmem
      exact absurd (List.mem_singleton.1 hlast) (Nat.ne_of_lt (h.there p hp))

theorem shown_list (h : c.Apart) (run : String) : (c.list run).shown = c.shown :=
  congrArg (LogStore.mk c.limit)
    (Table.mapEntries_congr fun p hp => getElem?_new (h.there p hp) _)

/-- What is handed out is what is shown. -/
theorem handedOut_list (c : CellStore) (run : String) :
    (c.list run).handedOut c.handed.length = c.shown.events run := by
  rw [events_shown, handedOut, list, List.getElem?_concat_length]
  simp [read]

theorem Apart.clear (h : c.Apart) (n : Nat) : (c.clear n).Apart := by
  unfold CellStore.clear
  cases c.handed[n]? with
  | none => exact h
  | some cell => exact h.write cell []

theorem shown_clear (h : c.Apart) (n : Nat) : (c.clear n).shown = c.shown := by
  unfold clear
  cases hcell : c.handed[n]? with
  | none => rfl
  | some cell => exact shown_write (h.handed cell (List.mem_of_getElem? hcell)) []

/-! ## Whatever is done with a store -/

/-- Whatever is done with the cells, they show the store of the appends. -/
theorem exists_runAll (h : c.Apart) (hlimit : 0 < c.limit) (calls : List StoreCall) :
    ∃ d, runAll calls c = .ok d ∧ d.Apart ∧
      LogStore.appendAll (calls.filterMap StoreCall.append?) c.shown = .ok d.shown := by
  induction calls generalizing c with
  | nil => exact ⟨c, rfl, h, rfl⟩
  | cons call calls ih =>
    cases call with
    | append run e =>
      obtain ⟨u, hu, hapart, hroom, hshown⟩ := exists_append h hlimit run e
      obtain ⟨d, hd, hdapart, hdshown⟩ := ih hapart (hroom ▸ hlimit)
      refine ⟨d, ?_, hdapart, ?_⟩
      · rw [runAll, step, hu]
        exact hd
      · have hcons : (StoreCall.append run e :: calls).filterMap StoreCall.append? =
            (run, e) :: calls.filterMap StoreCall.append? := rfl
        rw [hcons, LogStore.appendAll, hshown]
        exact hdshown
    | list run =>
      obtain ⟨d, hd, hapart, hshown⟩ := ih (h.list run) hlimit
      rw [shown_list h] at hshown
      exact ⟨d, hd, hapart, hshown⟩
    | clear n =>
      obtain ⟨d, hd, hapart, hshown⟩ := ih (h.clear n) (limit_clear n c ▸ hlimit)
      rw [shown_clear h] at hshown
      exact ⟨d, hd, hapart, hshown⟩

/-- Whatever is appended, listed and cleared: the store is that of the appends alone, it has the
runs of its latest openings with what was appended to them since, and neither an append to a run
that is there nor the clearing of a list changes anything else. -/
theorem store_keeps_latest_openings (hlimit : 0 < limit) (calls : List StoreCall) :
    ∃ c s, runAll calls (empty limit) = .ok c ∧ c.shown = s ∧
      LogStore.appendAll (calls.filterMap StoreCall.append?) (LogStore.empty limit) = .ok s ∧
      LogStore.Keeps limit (calls.filterMap StoreCall.append?) s ∧
      (∀ run, s.has run ↔ run ∈ s.ids) ∧
      (∀ run, ¬ s.has run → s.events run = []) ∧
      (∀ run e, s.has run → ∃ t, s.append run e = .ok t ∧ t.ids = s.ids ∧
        ∀ other, other ≠ run → t.events other = s.events other) ∧
      (∀ run, (c.list run).shown = s ∧ (c.list run).handedOut c.handed.length = s.events run) ∧
      ∀ n, (c.clear n).shown = s := by
  obtain ⟨c, hc, hapart, hshown⟩ := exists_runAll (apart_empty limit) hlimit calls
  obtain ⟨s, hs, hkeeps⟩ := LogStore.keeps_appendAll hlimit (calls.filterMap StoreCall.append?)
  obtain rfl : c.shown = s := Except.ok.inj (hshown.symm.trans hs)
  have hroom : 0 < c.shown.limit := hkeeps.room ▸ hlimit
  refine ⟨c, c.shown, hc, rfl, hs, hkeeps, fun run => LogStore.has_iff_mem_ids,
    fun run => LogStore.events_of_not_has, ?_, ?_, shown_clear hapart⟩
  · intro run e hrun
    refine ⟨c.shown.extend run [e], LogStore.append_eq_extend hroom run e,
      LogStore.ids_extend_of_has hrun e, fun other hother => ?_⟩
    exact LogStore.events_extend_of_ne hrun (Ne.symm hother) e
  · exact fun run => ⟨shown_list hapart run, handedOut_list c run⟩

/-- Two runs take turns, and a list that was handed out is cleared. -/
def turnsCleared : List StoreCall :=
  [.append "a" ⟨.info, "run.start", []⟩, .list "a", .append "b" ⟨.info, "run.start", []⟩, .list "b",
    .clear 1, .append "a" ⟨.info, "run.end", []⟩]

/-- In a store with room for one run, only the last one is there. -/
theorem store_keeps_latest_openings_turns :
    ∃ c s, runAll turnsCleared (empty 1) = .ok c ∧ c.shown = s ∧ s.ids = ["a"] ∧
      LogStore.Keeps 1 LogStore.turns s ∧ ∀ n, (c.clear n).shown = s := by
  obtain ⟨c, s, hc, hshown, hs, hkeeps, -, -, -, -, hclear⟩ :=
    store_keeps_latest_openings Nat.one_pos turnsCleared
  have hids : s.ids = ["a"] := by
    cases hs
    rfl
  exact ⟨c, s, hc, hshown, hids, hkeeps, hclear⟩

end CellStore

end RestDemo
