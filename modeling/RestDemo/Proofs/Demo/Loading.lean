import RestDemo.Demo.Loading
import RestDemo.Proofs.Json.Read
import RestDemo.Proofs.Value.Spelling

/-!
# What is loaded
-/

namespace RestDemo.Demo

variable {members : Table Value} {demo : Demo}

theorem exists_of_load (h : load members = .ok demo) :
    ∃ settings entries,
      mappingField "settings" members = .ok settings ∧ loadSettings settings = .ok demo.settings ∧
      parts ((Value.field "steps" members).orElse (.list [])) = .ok entries ∧
      loadSteps 1 entries = .ok demo.steps ∧ demo.title = textField "title" members := by
  unfold load at h
  obtain ⟨settings, hsettings, h⟩ := ok_of_bind h
  obtain ⟨loaded, hloaded, h⟩ := ok_of_bind h
  obtain ⟨entries, hentries, h⟩ := ok_of_bind h
  obtain ⟨steps, hsteps, h⟩ := ok_of_bind h
  cases h
  exact ⟨settings, entries, hsettings, hloaded, hentries, hsteps, rfl⟩

theorem loadSteps_cons_ok {place : Nat} {v : Value} {entries : List Value} {steps : List Step}
    (h : loadSteps place (v :: entries) = .ok steps) :
    ∃ members, v = .object members ∧
      ((Table.has "rest" members ∧ ∃ step rest, loadStep members (Step.defaultId place) = .ok step ∧
          loadSteps (place + 1) entries = .ok rest ∧ steps = step :: rest) ∨
        ¬ Table.has "rest" members ∧ loadSteps (place + 1) entries = .ok steps) := by
  cases v with
  | object members =>
    refine ⟨members, rfl, ?_⟩
    unfold loadSteps at h
    by_cases hrest : Table.has "rest" members
    · rw [if_pos hrest] at h
      obtain ⟨step, hstep, h⟩ := ok_of_bind h
      obtain ⟨rest, hrest', h⟩ := ok_of_bind h
      cases h
      exact .inl ⟨hrest, step, rest, hstep, hrest', rfl⟩
    · rw [if_neg hrest] at h
      exact .inr ⟨hrest, h⟩
  | _ => cases h

theorem length_le_of_loadSteps {place : Nat} {entries : List Value} {steps : List Step}
    (h : loadSteps place entries = .ok steps) : steps.length ≤ entries.length := by
  induction entries generalizing place steps with
  | nil =>
    cases h
    exact Nat.le_refl 0
  | cons v entries ih =>
    obtain ⟨members, -, ⟨-, step, rest, -, hrest, rfl⟩ | ⟨-, hrest⟩⟩ := loadSteps_cons_ok h
    · exact Nat.succ_le_succ (ih hrest)
    · exact Nat.le_succ_of_le (ih hrest)

/-- There are no more steps than items in the longest list of the document. -/
theorem length_steps_le {limit : Nat} (h : load members = .ok demo)
    (hmembers : ∀ p ∈ members, Json.Within limit p.2) : demo.steps.length ≤ limit := by
  obtain ⟨-, entries, -, -, hentries, hsteps, -⟩ := exists_of_load h
  refine Nat.le_trans (length_le_of_loadSteps hsteps) ?_
  have hfield := Json.of_field .null hmembers "steps"
  -- Only the entries of a list are mappings; what else can be gone through must be empty.
  have hempty : ∀ {α : Type} (xs : List α) (f : α → String),
      entries = xs.map (fun x => .text (f x)) → entries.length ≤ limit := by
    rintro α (_ | ⟨x, xs⟩) f rfl
    · exact Nat.zero_le limit
    · obtain ⟨_, hobject, -⟩ := loadSteps_cons_ok hsteps
      cases hobject
  unfold Value.orElse at hentries
  by_cases hgiven : (Value.field "steps" members).isTruthy
  · rw [if_pos hgiven] at hentries
    cases hfield' : Value.field "steps" members with
    | list items =>
      rw [hfield'] at hentries hfield
      cases hentries
      cases hfield with
      | list _ short _ => exact short
    | text s =>
      rw [hfield'] at hentries
      cases hentries
      exact hempty _ (fun c => String.ofList [c]) rfl
    | object ms =>
      rw [hfield'] at hentries
      cases hentries
      exact hempty _ (fun name => name) rfl
    | _ =>
      rw [hfield'] at hentries
      cases hentries
  · rw [if_neg hgiven] at hentries
    cases hentries
    exact Nat.zero_le limit

theorem writable_title (h : load members = .ok demo)
    (hmembers : ∀ p ∈ members, Json.Writable p.2) : Json.Writable demo.title := by
  obtain ⟨-, -, -, -, -, -, htitle⟩ := exists_of_load h
  rw [htitle, textField]
  cases hget : Table.get? "title" members with
  | none => exact Json.writable_text ""
  | some v => exact hmembers _ (Table.mem_of_get? hget)

/-! ## Names -/

theorem defaultId_ne_empty (place : Nat) : Step.defaultId place ≠ "" := by
  simp [Step.defaultId]

theorem stepId_ne_empty {own : Value} {default id : String} (h : stepId own default = .ok id)
    (hdefault : default ≠ "") : id ≠ "" := by
  unfold stepId at h
  by_cases hown : own.isTruthy
  · rw [if_pos hown] at h
    cases hshown : own.shown with
    | error f =>
      rw [hshown] at h
      cases h
    | ok text =>
      rw [hshown] at h
      cases h
      exact Value.shown_ne_empty hown hshown
  · rw [if_neg hown] at h
    cases h
    exact hdefault

/-- What a loaded step is put together of. -/
theorem parts_of_loadStep {step : Step} {default : String}
    (h : loadStep members default = .ok step) :
    requestLine (textField "rest" members) = .ok step.rest ∧
      form (Value.field "form" members) = .ok step.form ∧
      stepId (Value.field "id" members) default = .ok step.id ∧
      pollSpec (Value.field "poll" members) = .ok step.poll := by
  unfold loadStep at h
  obtain ⟨rest, hrest, h⟩ := ok_of_bind h
  obtain ⟨form, hform, h⟩ := ok_of_bind h
  obtain ⟨id, hid, h⟩ := ok_of_bind h
  obtain ⟨poll, hpoll, h⟩ := ok_of_bind h
  cases h
  exact ⟨hrest, hform, hid, hpoll⟩

theorem id_of_loadStep {step : Step} {default : String} (h : loadStep members default = .ok step) :
    stepId (Value.field "id" members) default = .ok step.id :=
  (parts_of_loadStep h).2.2.1

theorem ids_ne_empty_of_loadSteps {place : Nat} {entries : List Value} {steps : List Step}
    (h : loadSteps place entries = .ok steps) : ∀ step ∈ steps, step.id ≠ "" := by
  induction entries generalizing place steps with
  | nil =>
    cases h
    exact fun _ hmem => nomatch hmem
  | cons v entries ih =>
    obtain ⟨members, -, ⟨-, step, rest, hstep, hrest, rfl⟩ | ⟨-, hrest⟩⟩ := loadSteps_cons_ok h
    · have hid := stepId_ne_empty (id_of_loadStep hstep) (defaultId_ne_empty place)
      exact List.forall_mem_cons.2 ⟨hid, ih hrest⟩
    · exact ih hrest

/-- Every step of a demo that was loaded has a name of its own. -/
theorem ids_ne_empty (h : load members = .ok demo) : ∀ step ∈ demo.steps, step.id ≠ "" := by
  obtain ⟨_, _, -, -, -, hsteps, -⟩ := exists_of_load h
  exact ids_ne_empty_of_loadSteps hsteps

end RestDemo.Demo
