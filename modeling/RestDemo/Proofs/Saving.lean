import RestDemo.Binding
import RestDemo.Proofs.Path.Composition

/-!
# Saving binds what is found

A mapping gives names to paths, and what a path finds is the status, under its word, or a part of a
document that is there (`Finds`). Saving puts what is found over the variables, in the order of the
mapping, and leaves the others alone (`saveEntries_overlay`). So the variables hold afterwards just
what was found and what they held before, and neither the order of the mapping nor saving once more
makes a difference to it (`save_binds`).
-/

namespace RestDemo.Binding

variable {status : Int} {body : Value} {paths paths' : Table String} {top : Table Value}
  {store : Store} {path name : String} {v w : Value}

/-- What a path finds in an answer: the status under its word, or else the part of a document to which
it leads. -/
inductive Finds (status : Int) (body : Value) : String → Value → Prop
  | status : Finds status body statusWord (.int status)
  | part {path : String} {v : Value} (noWord : path ≠ statusWord) (document : body ≠ .null)
      (leads : Path.extract (some body) path = .ok (some v)) : Finds status body path v

/-- What a mapping saves over some variables: under each name what its path finds, and nothing else.
The names bound now are in the order of the mapping. New variables come after those that there were,
in this order too. -/
structure Saves (status : Int) (body : Value) (paths : Table String) (store : Store)
    (saved : Saved) : Prop where
  found : ∀ name path v, (name, path) ∈ paths → Finds status body path v →
    Table.get? name saved.store = some v
  kept : ∀ name, (∀ path v, (name, path) ∈ paths → ¬ Finds status body path v) →
    Table.get? name saved.store = Table.get? name store
  bound : ∀ name v, (name, v) ∈ saved.bound ↔
    ∃ path, (name, path) ∈ paths ∧ Finds status body path v
  order : saved.bound.names.Sublist paths.names
  names : saved.store.names = store.names ++ saved.bound.names.filter (· ∉ store.names)

/-! ## What is found -/

theorem finds_of_found (h : found status body (.text path) = .ok (some v)) :
    Finds status body path v := by
  unfold found at h
  dsimp only at h
  by_cases hword : path = statusWord
  · rw [if_pos hword] at h
    cases h
    rw [hword]
    exact .status
  · rw [if_neg hword] at h
    by_cases hnull : body = .null
    · subst hnull
      cases h
    · refine .part hword hnull ?_
      cases body with
      | null => exact absurd rfl hnull
      | _ => exact h

theorem Finds.found_eq (h : Finds status body path v) :
    found status body (.text path) = .ok (some v) := by
  cases h with
  | status => rfl
  | part noWord document leads =>
    unfold found
    dsimp only
    rw [if_neg noWord]
    cases body with
    | null => exact absurd rfl document
    | _ => exact leads

theorem Finds.unique (hv : Finds status body path v) (hw : Finds status body path w) : v = w :=
  Option.some.inj (Except.ok.inj (hv.found_eq.symm.trans hw.found_eq))

/-- A path finds something or nothing, unless a place in it is written with too many digits. -/
theorem exists_found (hshort : Path.Short path) (status : Int) (body : Value) :
    ∃ part, found status body (.text path) = .ok part := by
  unfold found
  dsimp only
  by_cases hword : path = statusWord
  · rw [if_pos hword]
    exact ⟨_, rfl⟩
  · rw [if_neg hword]
    cases body with
    | null => exact ⟨none, rfl⟩
    | _ => exact hshort.exists_extract _

/-- What the paths of a mapping find, under their names and in their order. -/
inductive FindsAll (status : Int) (body : Value) : Table String → Table Value → Prop
  | nil : FindsAll status body [] []
  | found {name path : String} {v : Value} {paths : Table String} {top : Table Value}
      (finds : Finds status body path v) (rest : FindsAll status body paths top) :
    FindsAll status body ((name, path) :: paths) ((name, v) :: top)
  | nothing {name path : String} {paths : Table String} {top : Table Value}
      (nothing : ∀ v, ¬ Finds status body path v) (rest : FindsAll status body paths top) :
    FindsAll status body ((name, path) :: paths) top

namespace FindsAll

theorem mem_iff (h : FindsAll status body paths top) :
    (name, v) ∈ top ↔ ∃ path, (name, path) ∈ paths ∧ Finds status body path v := by
  induction h with
  | nil => simp
  | @found other path w paths top finds _ ih =>
    simp only [List.mem_cons, Prod.mk.injEq, ih]
    constructor
    · rintro (⟨rfl, rfl⟩ | ⟨path', hmem, hfinds⟩)
      · exact ⟨path, .inl ⟨rfl, rfl⟩, finds⟩
      · exact ⟨path', .inr hmem, hfinds⟩
    · rintro ⟨path', ⟨rfl, rfl⟩ | hmem, hfinds⟩
      · exact .inl ⟨rfl, hfinds.unique finds⟩
      · exact .inr ⟨path', hmem, hfinds⟩
  | @nothing other path paths top nothing _ ih =>
    simp only [List.mem_cons, Prod.mk.injEq, ih]
    constructor
    · rintro ⟨path', hmem, hfinds⟩
      exact ⟨path', .inr hmem, hfinds⟩
    · rintro ⟨path', ⟨rfl, rfl⟩ | hmem, hfinds⟩
      · exact absurd hfinds (nothing v)
      · exact ⟨path', hmem, hfinds⟩

theorem names_sublist (h : FindsAll status body paths top) : top.names.Sublist paths.names := by
  induction h with
  | nil => exact List.Sublist.refl _
  | found _ _ ih => exact ih.cons_cons _
  | nothing _ _ ih => exact ih.cons _

theorem nodup (h : FindsAll status body paths top) (hnodup : paths.names.Nodup) :
    top.names.Nodup :=
  hnodup.sublist h.names_sublist

/-- Under each name there is what its path finds. -/
theorem get?_eq_some_iff (h : FindsAll status body paths top) (hnodup : paths.names.Nodup) :
    Table.get? name top = some v ↔ ∃ path, (name, path) ∈ paths ∧ Finds status body path v := by
  rw [Table.get?_eq_some_iff (h.nodup hnodup), h.mem_iff]

/-- What is found under a name does not depend on the order of the mapping. -/
theorem get?_eq_of_perm {top' : Table Value} (h : FindsAll status body paths top)
    (h' : FindsAll status body paths' top') (hnodup : paths.names.Nodup)
    (hperm : paths'.Perm paths) (name : String) : Table.get? name top' = Table.get? name top := by
  have hnodup' : paths'.names.Nodup := (hperm.map Prod.fst).nodup_iff.2 hnodup
  apply Option.ext
  intro v
  rw [h.get?_eq_some_iff hnodup, h'.get?_eq_some_iff hnodup']
  simp only [hperm.mem_iff]

end FindsAll

/-! ## Saving -/

/-- Whatever the variables are, saving puts what is found over them and over those bound so far. -/
theorem saveEntries_overlay (hshort : ∀ entry ∈ paths, Path.Short entry.2) (status : Int)
    (body : Value) : ∃ top, FindsAll status body paths top ∧ ∀ saved,
      saveEntries status body (paths.mapEntries fun _ path => .text path) saved =
        (⟨saved.store.overlay top, saved.bound.overlay top⟩, none) := by
  induction paths with
  | nil => exact ⟨[], .nil, fun saved => rfl⟩
  | cons entry paths ih =>
    obtain ⟨name, path⟩ := entry
    rw [List.forall_mem_cons] at hshort
    obtain ⟨part, hfound⟩ := exists_found hshort.1 status body
    obtain ⟨top, hfinds, hsaves⟩ := ih hshort.2
    cases part with
    | none =>
      refine ⟨top, .nothing ?_ hfinds, fun saved => ?_⟩
      · intro v hv
        cases hv.found_eq.symm.trans hfound
      · rw [Table.mapEntries_cons, saveEntries, hfound]
        exact hsaves saved
    | some v =>
      refine ⟨(name, v) :: top, .found (finds_of_found hfound) hfinds, fun saved => ?_⟩
      rw [Table.mapEntries_cons, saveEntries, hfound]
      exact hsaves ⟨saved.store.set name v, saved.bound.set name v⟩

theorem save_overlay (hnodup : paths.names.Nodup) (hshort : ∀ entry ∈ paths, Path.Short entry.2)
    (status : Int) (body : Value) : ∃ top, FindsAll status body paths top ∧ ∀ store,
      save (Value.textTable paths) status body store = (⟨store.overlay top, top⟩, none) := by
  obtain ⟨top, hfinds, hsaves⟩ := saveEntries_overlay hshort status body
  refine ⟨top, hfinds, fun store => ?_⟩
  have hbound : Table.overlay [] top = top := Table.ofList_of_nodup (hfinds.nodup hnodup)
  rw [Value.textTable, save, hsaves, hbound]

theorem get?_overlay_of_nodup (hnodup : top.names.Nodup) (store : Store) (name : String) :
    Table.get? name (store.overlay top) = (Table.get? name top).or (Table.get? name store) := by
  rw [Table.get?_overlay, Table.get?_reverse hnodup]

theorem FindsAll.saves (h : FindsAll status body paths top) (hnodup : paths.names.Nodup)
    (store : Store) : Saves status body paths store ⟨store.overlay top, top⟩ where
  found name path v hmem hfinds := by
    have hget := (h.get?_eq_some_iff hnodup).2 ⟨path, hmem, hfinds⟩
    rw [get?_overlay_of_nodup (h.nodup hnodup), hget, Option.some_or]
  kept name hnothing := by
    have hget : Table.get? name top = none := by
      rw [Option.eq_none_iff_forall_ne_some]
      intro v hv
      obtain ⟨path, hmem, hfinds⟩ := (h.get?_eq_some_iff hnodup).1 hv
      exact hnothing path v hmem hfinds
    rw [get?_overlay_of_nodup (h.nodup hnodup), hget, Option.none_or]
  bound _ _ := h.mem_iff
  order := h.names_sublist
  names := Table.names_overlay store (h.nodup hnodup)

/-- What is found is there once it was saved, so that saving it again changes nothing. -/
theorem overlay_overlay (hnodup : top.names.Nodup) (store : Store) :
    (store.overlay top).overlay top = store.overlay top := by
  apply Table.overlay_of_get?
  intro p hp
  rw [get?_overlay_of_nodup hnodup, Table.get?_of_mem hnodup hp, Option.some_or]

/-- A mapping of names to paths saves under each name what its path finds, and leaves every other
variable as it is. Saving again changes nothing, and another order of the mapping gives the same
variables the same values. -/
theorem save_binds (hnodup : paths.names.Nodup) (hshort : ∀ entry ∈ paths, Path.Short entry.2)
    (status : Int) (body : Value) (store : Store) :
    ∃ saved, save (Value.textTable paths) status body store = (saved, none) ∧
      Saves status body paths store saved ∧
      save (Value.textTable paths) status body saved.store = (saved, none) ∧
      ∀ paths', paths'.Perm paths →
        ∃ saved', save (Value.textTable paths') status body store = (saved', none) ∧
          ∀ name, Table.get? name saved'.store = Table.get? name saved.store ∧
            Table.get? name saved'.bound = Table.get? name saved.bound := by
  obtain ⟨top, hfinds, hsaves⟩ := save_overlay hnodup hshort status body
  refine ⟨_, hsaves store, hfinds.saves hnodup store, ?_, ?_⟩
  · rw [hsaves, overlay_overlay (hfinds.nodup hnodup)]
  · intro paths' hperm
    have hnodup' : paths'.names.Nodup := (hperm.map Prod.fst).nodup_iff.2 hnodup
    obtain ⟨top', hfinds', hsaves'⟩ := save_overlay hnodup'
      (fun entry hentry => hshort entry (hperm.mem_iff.1 hentry)) status body
    refine ⟨_, hsaves' store, fun name => ?_⟩
    have hsame := hfinds.get?_eq_of_perm hfinds' hnodup hperm name
    refine ⟨?_, hsame⟩
    rw [get?_overlay_of_nodup (hfinds'.nodup hnodup'), get?_overlay_of_nodup (hfinds.nodup hnodup),
      hsame]

/-- A mapping with the word for the status, with a path to nothing and with one that is malformed. -/
def jobPaths : Table String :=
  [("result", "job.result"), ("code", "_status"), ("owner", "job.owner"), ("id", "job[")]

def jobBody : Value := .object [("job", .object [("result", .null)])]

def jobStore : Store := [("id", .int 5), ("code", .int 0)]

/-- The status takes the place of the old one, and nothing is saved as the result. -/
theorem save_binds_job :
    jobPaths.names.Nodup ∧ (∀ entry ∈ jobPaths, Path.Short entry.2) ∧
      save (Value.textTable jobPaths) 202 jobBody jobStore =
        (⟨[("id", .int 5), ("code", .int 202), ("result", .null)],
          [("result", .null), ("code", .int 202)]⟩, none) ∧
      Saves 202 jobBody jobPaths jobStore
        ⟨[("id", .int 5), ("code", .int 202), ("result", .null)],
          [("result", .null), ("code", .int 202)]⟩ := by
  have hnodup : jobPaths.names.Nodup := by decide
  have hresult : Path.parse? "job.result" = some [.name "job", .name "result"] := rfl
  have hcode : Path.parse? "_status" = some [.name "_status"] := rfl
  have howner : Path.parse? "job.owner" = some [.name "job", .name "owner"] := rfl
  have hmalformed : Path.Short "job[" := fun _ hparse => nomatch hparse
  have hshort : ∀ entry ∈ jobPaths, Path.Short entry.2 := by
    simp only [jobPaths, List.forall_mem_cons]
    refine ⟨?_, ?_, ?_, hmalformed, List.forall_mem_nil _⟩
    · exact Path.short_of_parse? hresult (by simp [Number.maxDigits])
    · exact Path.short_of_parse? hcode (by simp [Number.maxDigits])
    · exact Path.short_of_parse? howner (by simp [Number.maxDigits])
  obtain ⟨saved, hsave, hsaves, -⟩ := save_binds hnodup hshort 202 jobBody jobStore
  have hbound : save (Value.textTable jobPaths) 202 jobBody jobStore =
      (⟨[("id", .int 5), ("code", .int 202), ("result", .null)],
        [("result", .null), ("code", .int 202)]⟩, none) := rfl
  obtain rfl := congrArg Prod.fst (hsave.symm.trans hbound)
  exact ⟨hnodup, hshort, hbound, hsaves⟩

end RestDemo.Binding
