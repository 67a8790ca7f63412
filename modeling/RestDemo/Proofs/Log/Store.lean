import RestDemo.Log.Store

/-!
# What a store of logs keeps

What a store keeps of a history of runs is its end: keeping the latest runs of what was kept is
keeping the latest of all (`latest_append`). A store with room for a run takes every event
(`append_eq_extend`), and appending events to a log one after another is appending them at once
(`extend_extend`). Of a log, the events of a step are those with its name in the field for it
(`Event.belongsTo_iff`).
-/

namespace RestDemo

namespace Event

/-- The event names the step that is asked for, if one is. -/
def OfStep (step : Option String) (e : Event) : Prop :=
  ∀ id, step = some id → Table.get? "step_id" e.fields = some (.text id)

theorem belongsTo_iff {step : Option String} {e : Event} : e.belongsTo step ↔ e.OfStep step := by
  unfold belongsTo OfStep stepId Value.field
  cases step with
  | none => exact iff_of_true rfl nofun
  | some id =>
    rcases Table.get? "step_id" e.fields with _ | v
    · simp [Value.ofOption]
    · cases v <;> simp [Value.ofOption]

instance (step : Option String) (e : Event) : Decidable (e.OfStep step) :=
  decidable_of_iff _ belongsTo_iff

theorem filter_belongsTo (step : Option String) (log : List Event) :
    log.filter (belongsTo step) = log.filter fun e => e.OfStep step := by
  refine List.filter_congr fun e _ => ?_
  rw [Bool.eq_iff_iff, belongsTo_iff, decide_eq_true_iff]

end Event

namespace LogStore

variable {run : String} {e : Event} {es fs : List Event} {s : LogStore} {limit : Nat}
  {runs : Table (List Event)}

/-! ## The latest runs -/

theorem latest_append_singleton (hlimit : 0 < limit) (runs : Table (List Event))
    (r : String × List Event) :
    latest limit (runs ++ [r]) = runs.drop (runs.length + 1 - limit) ++ [r] := by
  have hle : runs.length + 1 - limit ≤ runs.length := by omega
  rw [latest, List.length_append, List.length_singleton, List.drop_append_of_le_length hle]

theorem latest_append (limit : Nat) (runs more : Table (List Event)) :
    latest limit (latest limit runs ++ more) = latest limit (runs ++ more) := by
  have hle : runs.length - limit ≤ runs.length := Nat.sub_le _ _
  simp only [latest]
  rw [← List.drop_append_of_le_length hle, List.drop_drop, List.length_drop, List.length_append]
  congr 1
  omega

/-! ## Events appended at once -/

/-- The store with events appended to the log of a run. -/
def extend (run : String) (es : List Event) (s : LogStore) : LogStore :=
  if s.has run then { s with runs := s.runs.set run (s.events run ++ es) }
  else { s with runs := latest s.limit (s.runs ++ [(run, es)]) }

@[simp] theorem limit_extend (run : String) (es : List Event) (s : LogStore) :
    (s.extend run es).limit = s.limit := by
  unfold extend
  by_cases h : s.has run
  · rw [if_pos h]
  · rw [if_neg h]

theorem append_eq_extend (hlimit : 0 < s.limit) (run : String) (e : Event) :
    s.append run e = .ok (s.extend run [e]) := by
  unfold append extend
  by_cases h : s.has run
  · rw [if_pos h, if_pos h]
  · rw [if_neg h, if_neg h, if_neg (Nat.ne_of_gt hlimit)]

theorem not_mem_names_of_not_has (h : ¬ s.has run) : run ∉ s.runs.names :=
  fun hmem => h (Table.has_iff_mem_names.2 hmem)

theorem events_of_not_has (h : ¬ s.has run) : s.events run = [] := by
  rw [events, Table.get?_eq_none_iff.2 (not_mem_names_of_not_has h)]
  rfl

/-- A run that is not there becomes the last one. -/
theorem runs_extend_of_not_has (hlimit : 0 < s.limit) (h : ¬ s.has run) :
    ∃ kept, run ∉ kept.names ∧ ∀ es, s.extend run es = ⟨s.limit, kept ++ [(run, es)]⟩ := by
  refine ⟨s.runs.drop (s.runs.length + 1 - s.limit), fun hmem => ?_, fun es => ?_⟩
  · exact not_mem_names_of_not_has h (List.map_subset _ (List.drop_subset _ _) hmem)
  · rw [extend, if_neg h, latest_append_singleton hlimit]

theorem get?_extend (hlimit : 0 < s.limit) (run : String) (es : List Event) :
    (s.extend run es).runs.get? run = some (s.events run ++ es) := by
  by_cases h : s.has run
  · rw [extend, if_pos h]
    exact (Table.get?_set ..).trans (if_pos rfl)
  · obtain ⟨kept, hnot, hextend⟩ := runs_extend_of_not_has hlimit h
    rw [hextend, Table.get?_append, Table.get?_eq_none_iff.2 hnot, events_of_not_has h]
    simp [Table.get?]

theorem has_extend (hlimit : 0 < s.limit) (run : String) (es : List Event) :
    (s.extend run es).has run := by
  rw [has, Table.has, get?_extend hlimit]
  rfl

theorem events_extend (hlimit : 0 < s.limit) (run : String) (es : List Event) :
    (s.extend run es).events run = s.events run ++ es := by
  rw [events, get?_extend hlimit]
  rfl

theorem extend_extend (hlimit : 0 < s.limit) (run : String) (es fs : List Event) :
    (s.extend run es).extend run fs = s.extend run (es ++ fs) := by
  rw [extend, if_pos (has_extend hlimit run es), events_extend hlimit, List.append_assoc]
  by_cases h : s.has run
  · rw [extend, if_pos h, extend, if_pos h]
    dsimp only
    rw [Table.set_set]
  · obtain ⟨kept, hnot, hextend⟩ := runs_extend_of_not_has hlimit h
    rw [hextend, hextend, events_of_not_has h, Table.set_append_of_not_mem hnot]
    simp [Table.set]

end LogStore

end RestDemo
