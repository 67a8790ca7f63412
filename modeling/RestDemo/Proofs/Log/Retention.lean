import Mathlib.Data.List.DropRight
import RestDemo.Proofs.Log.Store

/-!
# What is kept of a history of appends

An append is an opening if its run is not there just before it (`openings`). A store keeps the runs
of its latest openings, each with what was appended since (`Keeps`); one append preserves that
(`Keeps.append`), and so every history comes to it (`keeps_appendAll`). What was appended to a run
before its latest opening is gone: a log is whole exactly if the run was opened once
(`whole_iff_opened_once`).
-/

namespace RestDemo.LogStore

variable {limit : Nat} {run : String} {e : Event} {s t : LogStore}
  {appends more : List (String × Event)}

/-! ## Histories -/

/-- Appends the events to their runs, one after another. -/
def appendAll : List (String × Event) → LogStore → Except Fault LogStore
  | [], s => .ok s
  | (run, e) :: more, s => s.append run e >>= appendAll more

/-- The runs of the appends that find their run absent, in order. -/
def openings : List (String × Event) → LogStore → List String
  | [], _ => []
  | (run, e) :: more, s =>
    let later :=
      match s.append run e with
      | .ok t => openings more t
      | .error _ => []
    if s.has run then later else run :: later

/-- The events that are appended to a run, in order. -/
def eventsFor (run : String) (appends : List (String × Event)) : List Event :=
  (appends.filter fun p => p.1 == run).map Prod.snd

theorem appendAll_append (h : appendAll appends s = .ok t) (more : List (String × Event)) :
    appendAll (appends ++ more) s = appendAll more t := by
  induction appends generalizing s with
  | nil =>
    cases h
    rfl
  | cons p appends ih =>
    rw [appendAll] at h
    rw [List.cons_append, appendAll]
    cases hp : s.append p.1 p.2 with
    | error f =>
      rw [hp] at h
      cases h
    | ok u =>
      rw [hp] at h
      exact ih h

theorem openings_append (h : appendAll appends s = .ok t) (more : List (String × Event)) :
    openings (appends ++ more) s = openings appends s ++ openings more t := by
  induction appends generalizing s with
  | nil =>
    cases h
    rfl
  | cons p appends ih =>
    rw [appendAll] at h
    rw [List.cons_append, openings, openings]
    cases hp : s.append p.1 p.2 with
    | error f =>
      rw [hp] at h
      cases h
    | ok u =>
      rw [hp] at h
      have hrest : openings (appends ++ more) u = openings appends u ++ openings more t := ih h
      dsimp only
      rw [hrest]
      split <;> rfl

theorem openings_singleton (run : String) (e : Event) (s : LogStore) :
    openings [(run, e)] s = if s.has run then [] else [run] := by
  rw [openings]
  cases s.append run e <;> rfl

theorem eventsFor_append (run : String) (appends more : List (String × Event)) :
    eventsFor run (appends ++ more) = eventsFor run appends ++ eventsFor run more := by
  simp [eventsFor]

theorem eventsFor_cons_self (run : String) (e : Event) (more : List (String × Event)) :
    eventsFor run ((run, e) :: more) = e :: eventsFor run more := by
  simp [eventsFor]

theorem eventsFor_cons_of_ne {other : String} (h : run ≠ other) (e : Event)
    (more : List (String × Event)) : eventsFor other ((run, e) :: more) = eventsFor other more := by
  simp [eventsFor, h]

/-! ## What one append does -/

theorem has_iff_mem_ids : s.has run ↔ run ∈ s.ids :=
  Table.has_iff_mem_names

theorem ids_extend_of_has (h : s.has run) (e : Event) : (s.extend run [e]).ids = s.ids := by
  rw [extend, if_pos h, ids, ids, Table.names_set, if_pos (Table.has_iff_mem_names.1 h)]

theorem events_extend_of_ne (h : s.has run) {other : String} (hne : run ≠ other) (e : Event) :
    (s.extend run [e]).events other = s.events other := by
  rw [extend, if_pos h, events, Table.get?_set, if_neg hne]
  rfl

theorem extend_of_not_has (hlimit : 0 < s.limit) (h : ¬ s.has run) (e : Event) :
    s.extend run [e] =
      ⟨s.limit, s.runs.drop (s.runs.length + 1 - s.limit) ++ [(run, [e])]⟩ := by
  rw [extend, if_neg h, latest_append_singleton hlimit]

theorem ids_extend_of_not_has (hlimit : 0 < s.limit) (h : ¬ s.has run) (e : Event) :
    (s.extend run [e]).ids = s.ids.drop (s.ids.length + 1 - s.limit) ++ [run] := by
  rw [extend_of_not_has hlimit h]
  simp [ids, Table.names, List.map_drop]

/-- The runs that stay when another one is opened keep their logs. -/
theorem events_extend_of_kept (hlimit : 0 < s.limit) (h : ¬ s.has run) (hnodup : s.ids.Nodup)
    {other : String} (hne : run ≠ other) (hkept : (s.extend run [e]).has other) :
    s.has other ∧ (s.extend run [e]).events other = s.events other := by
  rw [extend_of_not_has hlimit h] at hkept ⊢
  generalize s.runs.length + 1 - s.limit = n at hkept ⊢
  have hmem : other ∈ Table.names (s.runs.drop n) := by
    have hnames := Table.has_iff_mem_names.1 hkept
    rw [Table.names_append, List.mem_append] at hnames
    refine hnames.resolve_right fun hlast => ?_
    exact hne (List.mem_singleton.1 hlast).symm
  obtain ⟨p, hp, rfl⟩ := List.mem_map.1 hmem
  have hmem : p ∈ s.runs := List.drop_subset _ _ hp
  have hstay : (Table.names (s.runs.drop n)).Nodup := by
    rw [Table.names, List.map_drop]
    exact hnodup.sublist (List.drop_sublist _ _)
  have hget : Table.get? p.1 s.runs = some p.2 := Table.get?_of_mem hnodup hmem
  have hget' : Table.get? p.1 (s.runs.drop n) = some p.2 := Table.get?_of_mem hstay hp
  constructor
  · exact Table.has_iff_mem_names.2 (List.mem_map_of_mem hmem)
  · rw [events, events, Table.get?_append, hget', hget, Option.some_or]

/-! ## What is kept -/

/-- The log of a run holds what was appended to it since its latest opening. -/
def SinceOpening (limit : Nat) (appends : List (String × Event)) (run : String)
    (log : List Event) : Prop :=
  ∃ before e after s t, appends = before ++ (run, e) :: after ∧
    appendAll before (empty limit) = .ok s ∧ ¬ s.has run ∧ s.append run e = .ok t ∧
    run ∉ openings after t ∧ log = e :: eventsFor run after

/-- What a store keeps of a history: the runs of the latest openings, each with what was appended
since. -/
structure Keeps (limit : Nat) (appends : List (String × Event)) (s : LogStore) : Prop where
  room : s.limit = limit
  once : s.ids.Nodup
  latest : s.ids = (openings appends (empty limit)).rtake
    (min limit (openings appends (empty limit)).length)
  logs : ∀ run, s.has run → SinceOpening limit appends run (s.events run)

theorem keeps_empty (limit : Nat) : Keeps limit [] (empty limit) where
  room := rfl
  once := List.nodup_nil
  latest := by simp [openings, ids, empty, List.rtake]
  logs _ h := nomatch h

/-- More appends leave a log as it is, but for those to its run. -/
theorem SinceOpening.append {log : List Event} (h : SinceOpening limit appends run log)
    (hs : appendAll appends (empty limit) = .ok s) (hmore : run ∉ openings more s) :
    SinceOpening limit (appends ++ more) run (log ++ eventsFor run more) := by
  obtain ⟨before, e, after, u, v, rfl, hbefore, habsent, hopens, honce, rfl⟩ := h
  have hafter : appendAll after v = .ok s := by
    rw [appendAll_append hbefore, appendAll, hopens] at hs
    exact hs
  refine ⟨before, e, after ++ more, u, v, by simp, hbefore, habsent, hopens, ?_, ?_⟩
  · rw [openings_append hafter, List.mem_append]
    exact not_or.2 ⟨honce, hmore⟩
  · rw [eventsFor_append, List.cons_append]

theorem rtake_concat {ids opened : List String} (hlimit : 0 < limit)
    (h : ids = opened.rtake (min limit opened.length)) (run : String) :
    ids.drop (ids.length + 1 - limit) ++ [run] =
      (opened ++ [run]).rtake (min limit (opened ++ [run]).length) := by
  simp only [List.rtake, List.length_append, List.length_singleton] at h ⊢
  have hle : opened.length + 1 - min limit (opened.length + 1) ≤ opened.length := by omega
  have hlength : ids.length = min limit opened.length := by
    rw [h, List.length_drop]
    omega
  rw [List.drop_append_of_le_length hle, hlength, h, List.drop_drop]
  congr 2
  omega

/-- An append to a run that is there makes its log longer, and nothing else. -/
theorem Keeps.append_present (h : Keeps limit appends s) (hlimit : 0 < limit)
    (hs : appendAll appends (empty limit) = .ok s) (hhas : s.has run) (e : Event) :
    Keeps limit (appends ++ [(run, e)]) (s.extend run [e]) := by
  have hroom : 0 < s.limit := h.room ▸ hlimit
  have hids := ids_extend_of_has hhas e
  have hsame : openings [(run, e)] s = [] := by
    rw [openings_singleton, if_pos hhas]
  have hopened := openings_append hs [(run, e)]
  rw [hsame, List.append_nil] at hopened
  refine ⟨(limit_extend ..).trans h.room, hids ▸ h.once, ?_, ?_⟩
  · rw [hids, hopened]
    exact h.latest
  · intro other hother
    rw [has_iff_mem_ids, hids, ← has_iff_mem_ids] at hother
    have hnone : other ∉ openings [(run, e)] s := by simp [hsame]
    have hlog := (h.logs other hother).append hs hnone
    by_cases hne : run = other
    · subst hne
      rw [events_extend hroom]
      simpa [eventsFor] using hlog
    · rw [events_extend_of_ne hhas hne]
      simpa [eventsFor, hne] using hlog

/-- An append to a run that is not there opens it, and the oldest runs make room. -/
theorem Keeps.append_absent (h : Keeps limit appends s) (hlimit : 0 < limit)
    (hs : appendAll appends (empty limit) = .ok s) (hhas : ¬ s.has run) (e : Event) :
    Keeps limit (appends ++ [(run, e)]) (s.extend run [e]) := by
  have hroom : 0 < s.limit := h.room ▸ hlimit
  have hids := ids_extend_of_not_has hroom hhas e
  rw [h.room] at hids
  have hone : openings [(run, e)] s = [run] := by
    rw [openings_singleton, if_neg hhas]
  have hopened := openings_append hs [(run, e)]
  rw [hone] at hopened
  refine ⟨(limit_extend ..).trans h.room, ?_, ?_, ?_⟩
  · rw [hids, List.nodup_append]
    refine ⟨h.once.sublist (List.drop_sublist _ _), by simp, ?_⟩
    rintro id hid _ hrun rfl
    rw [List.mem_singleton] at hrun
    exact hhas (has_iff_mem_ids.2 (hrun ▸ List.drop_subset _ _ hid))
  · rw [hids, hopened]
    exact rtake_concat hlimit h.latest run
  · intro other hother
    by_cases hne : run = other
    · subst hne
      refine ⟨appends, e, [], s, s.extend run [e], rfl, hs, hhas, append_eq_extend hroom run e,
        List.not_mem_nil, ?_⟩
      rw [events_extend hroom, events_of_not_has hhas]
      rfl
    · obtain ⟨hbefore, hevents⟩ := events_extend_of_kept hroom hhas h.once hne hother
      have hnone : other ∉ openings [(run, e)] s := by simp [hone, Ne.symm hne]
      have hlog := (h.logs other hbefore).append hs hnone
      rw [hevents]
      simpa [eventsFor, hne] using hlog

/-- One append preserves what a store keeps. -/
theorem Keeps.append (h : Keeps limit appends s) (hlimit : 0 < limit)
    (hs : appendAll appends (empty limit) = .ok s) (run : String) (e : Event) :
    Keeps limit (appends ++ [(run, e)]) (s.extend run [e]) := by
  by_cases hhas : s.has run
  · exact h.append_present hlimit hs hhas e
  · exact h.append_absent hlimit hs hhas e

/-- Every history of appends comes to a store that keeps the latest openings. -/
theorem keeps_appendAll (hlimit : 0 < limit) (appends : List (String × Event)) :
    ∃ s, appendAll appends (empty limit) = .ok s ∧ Keeps limit appends s := by
  induction appends using List.reverseRecOn with
  | nil => exact ⟨empty limit, rfl, keeps_empty limit⟩
  | append_singleton appends p ih =>
    obtain ⟨s, hs, hkeeps⟩ := ih
    have hroom : 0 < s.limit := hkeeps.room ▸ hlimit
    refine ⟨s.extend p.1 [p.2], ?_, hkeeps.append hlimit hs p.1 p.2⟩
    rw [appendAll_append hs, appendAll, append_eq_extend hroom]
    rfl

/-! ## Whole logs -/

theorem has_of_has_extend (hroom : 0 < s.limit) {other : String} (hne : run ≠ other)
    (h : (s.extend run [e]).has other) : s.has other := by
  rw [has_iff_mem_ids] at h ⊢
  by_cases hhas : s.has run
  · rwa [ids_extend_of_has hhas] at h
  · rw [ids_extend_of_not_has hroom hhas, List.mem_append] at h
    have hkept := h.resolve_right fun hlast => hne (List.mem_singleton.1 hlast).symm
    exact List.drop_subset _ _ hkept

/-- A run that is not there is opened by what is appended to it. -/
theorem mem_openings_iff (hroom : 0 < s.limit) (h : ¬ s.has run)
    (appends : List (String × Event)) :
    run ∈ openings appends s ↔ eventsFor run appends ≠ [] := by
  induction appends generalizing s with
  | nil => simp [openings, eventsFor]
  | cons p appends ih =>
    obtain ⟨other, e⟩ := p
    rw [openings, append_eq_extend hroom]
    dsimp only
    by_cases hne : other = run
    · subst hne
      simp [h, eventsFor_cons_self]
    · have habsent : ¬ (s.extend other [e]).has run :=
        fun hhas => h (has_of_has_extend hroom hne hhas)
      have hrest := ih ((limit_extend other [e] s).symm ▸ hroom) habsent
      rw [eventsFor_cons_of_ne hne, ← hrest]
      split
      · rfl
      · simp [Ne.symm hne]

/-- A log is the end of what was appended to its run, and all of it exactly if the run was opened
once. -/
theorem whole_iff_opened_once (hlimit : 0 < limit) (appends : List (String × Event)) :
    ∃ s, appendAll appends (empty limit) = .ok s ∧ ∀ run, s.has run →
      s.events run <:+ eventsFor run appends ∧
      (s.events run = eventsFor run appends ↔
        (openings appends (empty limit)).count run = 1) := by
  obtain ⟨s, hs, hkeeps⟩ := keeps_appendAll hlimit appends
  refine ⟨s, hs, fun run hrun => ?_⟩
  obtain ⟨before, e, after, u, v, rfl, hbefore, habsent, hopens, honce, hlog⟩ :=
    hkeeps.logs run hrun
  have hall : eventsFor run (before ++ (run, e) :: after) =
      eventsFor run before ++ s.events run := by
    rw [eventsFor_append, eventsFor_cons_self, hlog]
  have hcount : (openings (before ++ (run, e) :: after) (empty limit)).count run =
      (openings before (empty limit)).count run + 1 := by
    have hafter : (openings after v).count run = 0 := List.count_eq_zero.2 honce
    rw [openings_append hbefore, openings, hopens, if_neg habsent, List.count_append,
      List.count_cons_self, hafter]
  constructor
  · rw [hall]
    exact List.suffix_append _ _
  · have hnothing : eventsFor run before = [] ↔ run ∉ openings before (empty limit) := by
      have hempty : ¬ (empty limit).has run := Bool.false_ne_true
      have hroom : 0 < (empty limit).limit := hlimit
      rw [mem_openings_iff hroom hempty, not_not]
    rw [hall, hcount, List.self_eq_append_left, hnothing, ← List.count_eq_zero]
    omega

/-- Two runs take turns. -/
def turns : List (String × Event) :=
  [("a", ⟨.info, "run.start", []⟩), ("b", ⟨.info, "run.start", []⟩), ("a", ⟨.info, "run.end", []⟩)]

theorem whole_iff_opened_once_turns :
    ∃ s, appendAll turns (empty 1) = .ok s ∧ ∀ run, s.has run →
      s.events run <:+ eventsFor run turns ∧
      (s.events run = eventsFor run turns ↔ (openings turns (empty 1)).count run = 1) :=
  whole_iff_opened_once Nat.one_pos turns

/-- A run that goes on after it made room for another one is there again, without what it told
before. -/
theorem not_whole_of_turns :
    ∃ s, appendAll turns (empty 1) = .ok s ∧ s.has "a" ∧
      s.events "a" ≠ eventsFor "a" turns := by
  refine ⟨_, rfl, rfl, fun h => ?_⟩
  have hlength := congrArg List.length h
  exact absurd hlength (by decide)

end RestDemo.LogStore
