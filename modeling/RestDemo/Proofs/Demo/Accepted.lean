import RestDemo.Proofs.Demo.Acceptable
import RestDemo.Proofs.Json.Integer

/-!
# Documents that are accepted

The steps of a demo are those of the entries that have a request line, in their order, and each entry
is numbered by its place among all of them (`restSteps`, `loadSteps_ok_iff`). A document whose parts
are of the kinds that are looked into (`Shaped`) is loaded exactly if it is `Acceptable` and the names
of its steps can be spelled out. One that is not loaded is rejected, unless something has to be
spelled out that cannot be (`load_accepted`).
-/

namespace RestDemo.Demo

variable {v : Value} {members step : Table Value} {entries : List Value} {place : Nat}
  {name : String}

/-! ## The steps of a document -/

/-- The mapping that an entry is and its place, if it has a request line. -/
def restStep? : Value × Nat → Option (Nat × Table Value)
  | (.object step, place) => if Table.has "rest" step then some (place, step) else none
  | _ => none

/-- The entries with a request line, each with its place among all entries, of which the first has
the given one. -/
def restSteps (place : Nat) (entries : List Value) : List (Nat × Table Value) :=
  (entries.zipIdx place).filterMap restStep?

@[simp] theorem restSteps_nil (place : Nat) : restSteps place [] = [] := rfl

theorem restSteps_of_rest (h : Table.has "rest" step) (place : Nat) (entries : List Value) :
    restSteps place (.object step :: entries) = (place, step) :: restSteps (place + 1) entries := by
  rw [restSteps, List.zipIdx_cons, List.filterMap_cons, restStep?, if_pos h]
  rfl

theorem restSteps_of_no_rest (h : ¬ Table.has "rest" step) (place : Nat) (entries : List Value) :
    restSteps place (.object step :: entries) = restSteps (place + 1) entries := by
  rw [restSteps, List.zipIdx_cons, List.filterMap_cons, restStep?, if_neg h]
  rfl

/-- The steps that are loaded are those of the entries with a request line, in their order. -/
theorem loadSteps_ok_iff {steps : List Step} : loadSteps place entries = .ok steps ↔
    (∀ v ∈ entries, ∃ step, v = .object step) ∧
      List.Forall₂ (fun p step => loadStep p.2 (Step.defaultId p.1) = .ok step)
        (restSteps place entries) steps := by
  -- The place goes up at every entry, also where no step is loaded.
  induction entries generalizing place steps with
  | nil =>
    rw [restSteps_nil, List.forall₂_nil_left_iff, loadSteps]
    simp [eq_comm]
  | cons v entries ih =>
    by_cases hobject : ∃ members, v = .object members
    · obtain ⟨members, rfl⟩ := hobject
      by_cases hrest : Table.has "rest" members
      · rw [loadSteps_of_rest hrest, restSteps_of_rest hrest, List.forall_mem_cons]
        simp only [bind_ok_iff, ih, List.forall₂_cons_left_iff]
        constructor
        · rintro ⟨step, hstep, others, ⟨hmappings, hothers⟩, h⟩
          cases h
          exact ⟨⟨⟨members, rfl⟩, hmappings⟩, step, others, hstep, hothers, rfl⟩
        · rintro ⟨⟨-, hmappings⟩, step, others, hstep, hothers, rfl⟩
          exact ⟨step, hstep, others, ⟨hmappings, hothers⟩, rfl⟩
      · rw [loadSteps_of_no_rest hrest, restSteps_of_no_rest hrest, List.forall_mem_cons, ih]
        simp
    · have hloaded : loadSteps place (v :: entries) = reject (.stepNoMapping place) := by
        cases v with
        | object members => exact absurd ⟨members, rfl⟩ hobject
        | _ => rfl
      rw [hloaded]
      constructor
      · intro h
        cases h
      · exact fun h => absurd (h.1 v List.mem_cons_self) hobject

theorem mem_restSteps_iff {entry : Nat × Table Value} : entry ∈ restSteps place entries ↔
    place ≤ entry.1 ∧ entries[entry.1 - place]? = some (.object entry.2) ∧
      Table.has "rest" entry.2 := by
  obtain ⟨n, step⟩ := entry
  rw [restSteps, List.mem_filterMap]
  constructor
  · rintro ⟨⟨v, n'⟩, hmem, h⟩
    cases v with
    | object members =>
      rw [restStep?] at h
      split at h
      · next hrest =>
        cases h
        rw [List.mk_mem_zipIdx_iff_le_and_getElem?_sub] at hmem
        exact ⟨hmem.1, hmem.2, hrest⟩
      · cases h
    | _ => cases h
  · rintro ⟨hle, hget, hrest⟩
    have hmem := List.mk_mem_zipIdx_iff_le_and_getElem?_sub.2 ⟨hle, hget⟩
    exact ⟨(.object step, n), hmem, if_pos hrest⟩

theorem mem_restSteps_append (h : Table.has "rest" step) (place : Nat)
    (before after : List Value) :
    (place + before.length, step) ∈ restSteps place (before ++ .object step :: after) := by
  refine mem_restSteps_iff.2 ⟨Nat.le_add_right _ _, ?_, h⟩
  rw [Nat.add_sub_cancel_left, List.getElem?_append_right (Nat.le_refl _), Nat.sub_self]
  rfl

theorem place_of_restStep? {n : Nat} {entry : Nat × Table Value}
    (h : restStep? (v, n) = some entry) : entry.1 = n := by
  cases v with
  | object members =>
    rw [restStep?] at h
    split at h
    · cases h
      rfl
    · cases h
  | _ => cases h

theorem defaultId_inj {m n : Nat} : Step.defaultId m = Step.defaultId n ↔ m = n := by
  refine ⟨fun h => ?_, congrArg Step.defaultId⟩
  have hrepr : Nat.repr m = Nat.repr n := (String.append_right_inj _).1 h
  have hdigits : Nat.toDigits 10 m = Nat.toDigits 10 n := String.ofList_injective hrepr
  rw [← Text.digitsValue_toDigits m, hdigits, Text.digitsValue_toDigits]

/-- No two entries are given the same default name. -/
theorem nodup_defaultIds (place : Nat) (entries : List Value) :
    ((restSteps place entries).map fun entry => Step.defaultId entry.1).Nodup := by
  have hplaces : (entries.zipIdx place).Pairwise fun a b => a.2 ≠ b.2 := by
    rw [← List.pairwise_map, List.zipIdx_map_snd]
    exact List.nodup_range'
  refine List.pairwise_map.2 (hplaces.filterMap restStep? ?_)
  intro a b hab entry hentry entry' hentry'
  rwa [Ne, defaultId_inj, place_of_restStep? hentry, place_of_restStep? hentry']

/-! ## A document -/

/-- The entries of a value that is a mapping. -/
def membersOf : Value → Table Value
  | .object members => members
  | _ => []

/-- The defaults for polling that a document gives. -/
def pollingOf (members : Table Value) : Table Value :=
  membersOf (Value.field "polling" (membersOf (Value.field "settings" members)))

/-- The steps of the document are a list of these entries, and its other parts are of the kinds that
are looked into. -/
structure Shaped (members : Table Value) (entries : List Value) : Prop where
  list : Value.field "steps" members = .list entries
  settings : ¬ NoMapping (Value.field "settings" members)
  polling : ¬ NoMapping (Value.field "polling" (membersOf (Value.field "settings" members)))
  steps : ∀ entry ∈ restSteps 1 entries, StepShaped entry.2

/-- Every entry is a mapping, those with a request line are as they must be, and so are the defaults
for polling. -/
structure Acceptable (members : Table Value) (entries : List Value) : Prop where
  interval : Whole (Value.field "interval" (pollingOf members))
  maxAttempts : Whole (Value.field "max_attempts" (pollingOf members))
  mappings : ∀ v ∈ entries, ∃ step, v = .object step
  steps : ∀ entry ∈ restSteps 1 entries, StepAcceptable entry.2

theorem mappingField_eq (h : ¬ NoMapping (Value.field name members)) :
    mappingField name members = .ok (membersOf (Value.field name members)) := by
  unfold mappingField Value.orElse
  by_cases hgiven : (Value.field name members).isTruthy
  · obtain ⟨inner, hinner⟩ := exists_object h hgiven
    rw [if_pos hgiven, hinner]
    rfl
  · rw [if_neg hgiven]
    cases hfield : Value.field name members with
    | object inner =>
      rw [hfield] at hgiven
      obtain rfl : inner = [] := by simpa [Value.isTruthy] using hgiven
      rfl
    | _ => rfl

theorem loadSettings_ok_iff (h : ¬ NoMapping (Value.field "polling" members)) :
    (∃ settings, loadSettings members = .ok settings) ↔
      Whole (Value.field "interval" (membersOf (Value.field "polling" members))) ∧
        Whole (Value.field "max_attempts" (membersOf (Value.field "polling" members))) := by
  unfold loadSettings
  simp only [bind_ok_iff, mappingField_eq h]
  constructor
  · rintro ⟨settings, polling, ⟨⟩, interval, hinterval, maxAttempts, hmaxAttempts, -⟩
    exact ⟨integer?_ok_iff.1 ⟨_, hinterval⟩, integer?_ok_iff.1 ⟨_, hmaxAttempts⟩⟩
  · rintro ⟨hinterval, hmaxAttempts⟩
    obtain ⟨interval, hinterval⟩ := integer?_ok_iff.2 hinterval
    obtain ⟨maxAttempts, hmaxAttempts⟩ := integer?_ok_iff.2 hmaxAttempts
    exact ⟨_, _, rfl, interval, hinterval, maxAttempts, hmaxAttempts, rfl⟩

theorem parts_eq (h : Value.field "steps" members = .list entries) :
    parts ((Value.field "steps" members).orElse (.list [])) = .ok entries := by
  rw [h, Value.orElse]
  by_cases hgiven : (Value.list entries).isTruthy
  · rw [if_pos hgiven]
    rfl
  · obtain rfl : entries = [] := by simpa [Value.isTruthy] using hgiven
    rfl

theorem load_ok_iff (h : Shaped members entries) {demo : Demo} : load members = .ok demo ↔
    loadSettings (membersOf (Value.field "settings" members)) = .ok demo.settings ∧
      loadSteps 1 entries = .ok demo.steps ∧ textField "title" members = demo.title := by
  unfold load
  simp only [bind_ok_iff, mappingField_eq h.settings, parts_eq h.list]
  constructor
  · rintro ⟨own, ⟨⟩, settings, hsettings, list, ⟨⟩, steps, hsteps, ⟨⟩⟩
    exact ⟨hsettings, hsteps, rfl⟩
  · rintro ⟨hsettings, hsteps, htitle⟩
    exact ⟨_, rfl, _, hsettings, _, rfl, _, hsteps, by rw [htitle]; rfl⟩

theorem exists_load_iff (h : Shaped members entries) : (∃ demo, load members = .ok demo) ↔
    Acceptable members entries ∧
      ∀ entry ∈ restSteps 1 entries, Json.Writable (Value.field "id" entry.2) := by
  have hstep : ∀ entry ∈ restSteps 1 entries,
      ((∃ step, loadStep entry.2 (Step.defaultId entry.1) = .ok step) ↔
        StepAcceptable entry.2 ∧ Json.Writable (Value.field "id" entry.2)) :=
    fun entry hmem => loadStep_ok_iff (mem_restSteps_iff.1 hmem).2.2 (h.steps entry hmem)
  constructor
  · rintro ⟨demo, hload⟩
    obtain ⟨hsettings, hsteps, -⟩ := (load_ok_iff h).1 hload
    obtain ⟨hinterval, hmaxAttempts⟩ := (loadSettings_ok_iff h.polling).1 ⟨_, hsettings⟩
    obtain ⟨hmappings, hforall⟩ := loadSteps_ok_iff.1 hsteps
    have hloaded := exists_forall₂_iff.1 ⟨_, hforall⟩
    exact ⟨⟨hinterval, hmaxAttempts, hmappings,
      fun entry hmem => ((hstep entry hmem).1 (hloaded entry hmem)).1⟩,
      fun entry hmem => ((hstep entry hmem).1 (hloaded entry hmem)).2⟩
  · rintro ⟨hacceptable, hwritable⟩
    obtain ⟨settings, hsettings⟩ := (loadSettings_ok_iff h.polling).2
      ⟨hacceptable.interval, hacceptable.maxAttempts⟩
    obtain ⟨steps, hforall⟩ := exists_forall₂_iff.2 fun entry hmem =>
      (hstep entry hmem).2 ⟨hacceptable.steps entry hmem, hwritable entry hmem⟩
    have hsteps := loadSteps_ok_iff.2 ⟨hacceptable.mappings, hforall⟩
    exact ⟨⟨textField "title" members, steps, settings⟩,
      (load_ok_iff h).2 ⟨hsettings, hsteps, rfl⟩⟩

theorem loadedFrom_of_load (h : Shaped members entries) {demo : Demo}
    (hload : load members = .ok demo) :
    List.Forall₂ LoadedFrom (restSteps 1 entries) demo.steps := by
  obtain ⟨-, hsteps, -⟩ := (load_ok_iff h).1 hload
  have hforall := (List.forall₂_and_left _ _).2
    ⟨fun entry hmem => (mem_restSteps_iff.1 hmem).2.2, (loadSteps_ok_iff.1 hsteps).2⟩
  exact hforall.imp fun _ _ h => loadedFrom_of_loadStep h.1 h.2

/-! ## Why a document is not loaded -/

/-- A value that a loaded step takes its name from, or that the message of an error would show. -/
inductive SpelledOut (members : Table Value) (entries : List Value) : Value → Prop
  | interval (noWhole : ¬ Whole (Value.field "interval" (pollingOf members))) :
    SpelledOut members entries (Value.field "interval" (pollingOf members))
  | maxAttempts (noWhole : ¬ Whole (Value.field "max_attempts" (pollingOf members))) :
    SpelledOut members entries (Value.field "max_attempts" (pollingOf members))
  | id {entry : Nat × Table Value} (step : entry ∈ restSteps 1 entries) :
    SpelledOut members entries (Value.field "id" entry.2)
  | formField {entry : Nat × Table Value} {items : List Value} {item : Value}
    (step : entry ∈ restSteps 1 entries) (form : Value.field "form" entry.2 = .list items)
    (part : item ∈ items) (unnamed : ¬ Named item) : SpelledOut members entries item
  | pollInterval {entry : Nat × Table Value} {poll : Table Value}
    (step : entry ∈ restSteps 1 entries) (given : Value.field "poll" entry.2 = .object poll)
    (noWhole : ¬ Whole (Value.field "interval" poll)) :
    SpelledOut members entries (Value.field "interval" poll)
  | pollMaxAttempts {entry : Nat × Table Value} {poll : Table Value}
    (step : entry ∈ restSteps 1 entries) (given : Value.field "poll" entry.2 = .object poll)
    (noWhole : ¬ Whole (Value.field "max_attempts" poll)) :
    SpelledOut members entries (Value.field "max_attempts" poll)

theorem spelledOut_of_pollFault {entry : Nat × Table Value} {f : Fault}
    (hstep : entry ∈ restSteps 1 entries) (hshape : StepShaped entry.2)
    (h : PollFault (Value.field "poll" entry.2) f) :
    f = .tooLong ∧ ∃ v, SpelledOut members entries v ∧ ¬ Json.Writable v := by
  generalize hpoll : Value.field "poll" entry.2 = poll at h
  cases h with
  | noMapping hnone =>
    rw [← hpoll] at hnone
    exact absurd hnone hshape.poll
  | interval _ _ hides =>
    exact ⟨rfl, _, .pollInterval hstep hpoll hides.not_whole, hides.unwritable⟩
  | maxAttempts _ _ _ hides =>
    exact ⟨rfl, _, .pollMaxAttempts hstep hpoll hides.not_whole, hides.unwritable⟩

theorem spelledOut_of_formFault {entry : Nat × Table Value} {f : Fault}
    (hstep : entry ∈ restSteps 1 entries) (hshape : StepShaped entry.2)
    (h : FormFault (Value.field "form" entry.2) f) :
    f = .tooLong ∧ ∃ v, SpelledOut members entries v ∧ ¬ Json.Writable v := by
  generalize hform : Value.field "form" entry.2 = form at h
  cases h with
  | single hsingle =>
    exfalso
    rcases hshape.form with hnull | ⟨items, hitems⟩
    · rw [← hform, hnull] at hsingle
      cases hsingle
    · rw [← hform, hitems] at hsingle
      cases hsingle
  | @field before after item fields _ hunnamed hwritable =>
    have hitem : item ∈ before ++ item :: after := by simp
    exact ⟨rfl, item, .formField hstep hform hitem (not_named_iff.2 hunnamed), hwritable⟩

theorem spelledOut_of_stepFault {entry : Nat × Table Value} {f : Fault}
    (hstep : entry ∈ restSteps 1 entries) (hshape : StepShaped entry.2)
    (h : StepFault entry.2 f) :
    f = .tooLong ∧ ∃ v, SpelledOut members entries v ∧ ¬ Json.Writable v := by
  cases h with
  | rest _ noText =>
    obtain ⟨line, hline⟩ := hshape.rest
    rw [textField_of_has (mem_restSteps_iff.1 hstep).2.2] at noText
    exact absurd hline (noText line)
  | form _ hfault => exact spelledOut_of_formFault hstep hshape hfault
  | id _ _ hunwritable => exact ⟨rfl, _, .id hstep, hunwritable⟩
  | poll _ _ _ hfault => exact spelledOut_of_pollFault hstep hshape hfault

/-- The only fault is a value that is spelled out and has too long an integer in it. -/
theorem spelledOut_of_fault (h : Shaped members entries) {f : Fault}
    (hload : load members = .error (.fault f)) :
    f = .tooLong ∧ ∃ v, SpelledOut members entries v ∧ ¬ Json.Writable v := by
  -- Of what a document may come to a fault by, its shape leaves only what is spelled out.
  cases load_fault_iff.1 hload with
  | noSettings hnone => exact absurd hnone h.settings
  | settings hown hfault =>
    rw [mappingField_eq h.settings] at hown
    cases hown
    cases hfault with
    | polling hnone => exact absurd hnone h.polling
    | interval hpolling hides =>
      rw [mappingField_eq h.polling] at hpolling
      cases hpolling
      exact ⟨rfl, _, .interval hides.not_whole, hides.unwritable⟩
    | maxAttempts hpolling _ hides =>
      rw [mappingField_eq h.polling] at hpolling
      cases hpolling
      exact ⟨rfl, _, .maxAttempts hides.not_whole, hides.unwritable⟩
  | noSteps _ _ _ hsingle =>
    rw [h.list] at hsingle
    cases hsingle
  | @step _ _ before after _ _ _ _ _ hentries _ hrest hfault =>
    obtain rfl := Value.list.inj (h.list.symm.trans hentries)
    have hmem := mem_restSteps_append hrest 1 before after
    exact spelledOut_of_stepFault hmem (h.steps _ hmem) hfault

/-- A document whose parts are of the right kinds is loaded exactly if it is acceptable and its steps
have no names of their own with too long an integer in them. The steps are then those of the entries
with a request line, in their order, and no step is without a name. A document that is not loaded is
rejected, unless it has too long an integer in a value that is spelled out. -/
theorem load_accepted (h : Shaped members entries) :
    ((∃ demo, load members = .ok demo) ↔ Acceptable members entries ∧
      ∀ entry ∈ restSteps 1 entries, Json.Writable (Value.field "id" entry.2)) ∧
    (∀ demo, load members = .ok demo →
      List.Forall₂ LoadedFrom (restSteps 1 entries) demo.steps ∧
      ∀ step ∈ demo.steps, step.id ≠ "") ∧
    ((restSteps 1 entries).map fun entry => Step.defaultId entry.1).Nodup ∧
    ∀ failure, load members = .error failure →
      (∃ e, failure = .error e) ∨
      failure = .fault .tooLong ∧ ∃ v, SpelledOut members entries v ∧ ¬ Json.Writable v := by
  refine ⟨exists_load_iff h, fun demo hload => ⟨loadedFrom_of_load h hload, ids_ne_empty hload⟩,
    nodup_defaultIds 1 entries, ?_⟩
  intro failure hload
  cases failure with
  | error e => exact .inl ⟨e, rfl⟩
  | fault f =>
    obtain ⟨rfl, hspelled⟩ := spelledOut_of_fault h hload
    exact .inr ⟨rfl, hspelled⟩

/-- A document with a slide before its only step. -/
def slideEntries : List Value :=
  [.object [("slide", .text "Intro")], .object [("rest", .text "GET /orders")]]

theorem restSteps_slideEntries :
    restSteps 1 slideEntries = [(2, [("rest", .text "GET /orders")])] := rfl

theorem shaped_slideEntries : Shaped [("steps", .list slideEntries)] slideEntries where
  list := rfl
  settings := fun h => nomatch h.1
  polling := fun h => nomatch h.1
  steps := by
    rw [restSteps_slideEntries, List.forall_mem_singleton]
    exact ⟨⟨_, rfl⟩, .inl rfl, fun h => nomatch h.1⟩

theorem load_accepted_slide : Shaped [("steps", .list slideEntries)] slideEntries ∧
    ∃ demo step, load [("steps", .list slideEntries)] = .ok demo ∧ demo.steps = [step] ∧
      step.id = "step-2" := by
  refine ⟨shaped_slideEntries, ?_⟩
  obtain ⟨hloaded, hsteps, -, -⟩ := load_accepted shaped_slideEntries
  have hacceptable : Acceptable [("steps", .list slideEntries)] slideEntries := by
    refine ⟨.null, .null, ?_, ?_⟩
    · simp [slideEntries]
    · rw [restSteps_slideEntries, List.forall_mem_singleton]
      refine ⟨?_, (fun _ h => nomatch h), (fun _ h => nomatch h)⟩
      rintro line ⟨⟩
      decide
  obtain ⟨demo, hdemo⟩ := hloaded.2 ⟨hacceptable, by
    rw [restSteps_slideEntries, List.forall_mem_singleton]
    exact Json.writable_null⟩
  have hforall := (hsteps demo hdemo).1
  rw [restSteps_slideEntries, List.forall₂_cons_left_iff] at hforall
  obtain ⟨step, rest, hstep, hrest, hdemoSteps⟩ := hforall
  rw [List.forall₂_nil_left_iff] at hrest
  subst hrest
  exact ⟨demo, step, hdemo, hdemoSteps, hstep.defaultId (by decide)⟩

/-- A step whose name is the least integer that is not written out. -/
def overlongStep : Table Value :=
  [("id", .int (10 ^ Number.maxDigits : Nat)), ("rest", .text "GET /orders")]

/-- Its name keeps a document from being loaded, though nothing else is wrong with it. -/
theorem no_load_of_overlong_id :
    Shaped [("steps", .list [.object overlongStep])] [.object overlongStep] ∧
    Acceptable [("steps", .list [.object overlongStep])] [.object overlongStep] ∧
    load [("steps", .list [.object overlongStep])] = .error (.fault .tooLong) := by
  have hsteps : restSteps 1 [.object overlongStep] = [(1, overlongStep)] := rfl
  have hid : ¬ Json.Writable (Value.field "id" overlongStep) := by
    have hfield : Value.field "id" overlongStep = .int (10 ^ Number.maxDigits : Nat) := rfl
    rw [hfield, Json.writable_int_iff, Int.natAbs_natCast]
    exact Nat.lt_irrefl _
  refine ⟨⟨rfl, (fun h => nomatch h.1), (fun h => nomatch h.1), ?_⟩, ⟨.null, .null, ?_, ?_⟩, ?_⟩
  · rw [hsteps, List.forall_mem_singleton]
    exact ⟨⟨_, rfl⟩, .inl rfl, fun h => nomatch h.1⟩
  · rw [List.forall_mem_singleton]
    exact ⟨_, rfl⟩
  · rw [hsteps, List.forall_mem_singleton]
    refine ⟨?_, (fun _ h => nomatch h), (fun _ h => nomatch h)⟩
    rintro line ⟨⟩
    decide
  · have hline : requestLine (textField "rest" overlongStep) = .ok "GET /orders" := rfl
    have hfault : StepFault overlongStep .tooLong := .id hline rfl hid
    have hentries : Value.field "steps" [("steps", .list [.object overlongStep])] =
        .list ([] ++ .object overlongStep :: []) := rfl
    exact load_fault_iff.2 (.step rfl rfl hentries rfl rfl hfault)

end RestDemo.Demo
