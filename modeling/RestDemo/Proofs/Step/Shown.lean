import RestDemo.Proofs.Masking.Filling
import RestDemo.Proofs.Step.Coupled
import RestDemo.Proofs.Step.Effect

/-!
# What a step shows of the variables

A step shows the values of the variables in its address, in headers and parts of its body or form
that are under no sensitive name, and in the endpoint that it polls (`Step.shownVariables`). From
stores that have the same variables and agree on these, its requests are shown alike
(`Step.pairing_shown`).
-/

namespace RestDemo

open Template Masking

variable {st st' : Store}

/-! ## Headers -/

namespace Headers

/-- The variables in headers whose names are not sensitive. -/
def shownVariables : Value → List String
  | .object members =>
    members.flatMap fun (name, v) => if isSensitive name then [] else variablesIn v
  | _ => []

def masked (headers : Table String) : Table Value :=
  headers.mapEntries fun name s => maskEntry name (.text s)

theorem maskTable_eq_masked (headers : Table String) :
    maskTable (headers.mapEntries fun _ s => .text s) = masked headers := by
  rw [maskTable, masked, Table.mapEntries, Table.mapEntries, Table.mapEntries, List.map_map]
  rfl

theorem maskEntry_of_embed {name : String} {v a a' : Value} {cs cs' : List Char}
    (h : AgreeOn (if isSensitive name then [] else variablesIn v) st st')
    (ha : fillValue st v = .ok a) (ha' : fillValue st' v = .ok a') (hcs : embed a = .ok cs)
    (hcs' : embed a' = .ok cs') :
    maskEntry name (.text (String.ofList cs')) = maskEntry name (.text (String.ofList cs)) := by
  by_cases hname : isSensitive name
  · exact maskEntry_of_sensitive hname (by simp)
  · rw [if_neg hname] at h
    rw [fillValue_congr v h, ha] at ha'
    cases ha'
    rw [hcs] at hcs'
    cases hcs'
    rfl

theorem masked_entries : ∀ (members : List (String × Value)) {filled filled' : List (String × Value)}
    {t t' : Table String}, AgreeOn (shownVariables (.object members)) st st' →
    fillMembers st members = .ok filled → fillMembers st' members = .ok filled' →
    entries filled = .ok t → entries filled' = .ok t' → masked t' = masked t
  | [], _, _, _, _, _, hfilled, hfilled', ht, ht' => by
    cases hfilled
    cases hfilled'
    cases ht
    cases ht'
    rfl
  | (name, v) :: members, _, _, t, t', h, hfilled, hfilled', ht, ht' => by
    obtain ⟨hfirst, hrest⟩ := agreeOn_append.1 h
    obtain ⟨a, ha, hfilled⟩ := ok_of_bind hfilled
    obtain ⟨as, has, hfilled⟩ := ok_of_bind hfilled
    obtain ⟨a', ha', hfilled'⟩ := ok_of_bind hfilled'
    obtain ⟨as', has', hfilled'⟩ := ok_of_bind hfilled'
    cases hfilled
    cases hfilled'
    obtain ⟨cs, hcs, ht⟩ := ok_of_bind ht
    obtain ⟨others, hothers, ht⟩ := ok_of_bind ht
    obtain ⟨cs', hcs', ht'⟩ := ok_of_bind ht'
    obtain ⟨others', hothers', ht'⟩ := ok_of_bind ht'
    cases ht
    cases ht'
    have hentry := maskEntry_of_embed hfirst ha ha' hcs hcs'
    have hothers := masked_entries members hrest has has' hothers hothers'
    rw [masked, masked, Table.mapEntries_cons, Table.mapEntries_cons]
    exact List.cons_eq_cons.2 ⟨Prod.ext rfl hentry, hothers⟩

theorem masked_overDefaults {t t' : Table String} (h : masked t' = masked t) :
    masked (overDefaults t') = masked (overDefaults t) := by
  have hnames : t'.names = t.names := by
    have hmasked := congrArg Table.names h
    rwa [masked, masked, Table.names_mapEntries, Table.names_mapEntries] at hmasked
  have hover (t : Table String) : masked (overDefaults t) =
      Table.overlay (masked (defaults.filter fun p =>
        !(t.names.map Text.lower).contains (Text.lower p.1))) (masked t) :=
    Table.mapEntries_overlay _ _ _
  rw [hover, hover, hnames, h]

theorem exists_of_build {given : Value} {t : Table String} (h : build given st = .ok t) :
    ∃ members filled overrides, given.orElse (.object []) = .object members ∧
      fillMembers st members = .ok filled ∧ entries filled = .ok overrides ∧
      overDefaults overrides = t := by
  unfold build at h
  obtain ⟨v, hv, h⟩ := ok_of_bind h
  rw [fillValue.eq_def] at hv
  cases hgiven : given.orElse (.object []) with
  | object members =>
    rw [hgiven] at hv
    obtain ⟨filled, hfilled, rfl⟩ := ok_of_map hv
    obtain ⟨overrides, hoverrides, h⟩ := ok_of_bind h
    exact ⟨members, filled, overrides, rfl, hfilled, hoverrides, Except.ok.inj h⟩
  | text s =>
    rw [hgiven] at hv
    obtain ⟨filled, -, rfl⟩ := ok_of_map hv
    cases h
  | list items =>
    rw [hgiven] at hv
    obtain ⟨filled, -, rfl⟩ := ok_of_map hv
    cases h
  | _ =>
    rw [hgiven] at hv
    cases hv
    cases h

theorem agreeOn_members {given : Value} {members : List (String × Value)}
    (hgiven : given.orElse (.object []) = .object members)
    (h : AgreeOn (shownVariables given) st st') :
    AgreeOn (shownVariables (.object members)) st st' := by
  unfold Value.orElse at hgiven
  by_cases htruthy : given.isTruthy
  · rw [if_pos htruthy] at hgiven
    rwa [hgiven] at h
  · rw [if_neg htruthy] at hgiven
    cases hgiven
    exact fun _ hname => nomatch hname

theorem masked_build {given : Value} {t t' : Table String}
    (h : AgreeOn (shownVariables given) st st') (ht : build given st = .ok t)
    (ht' : build given st' = .ok t') : masked t' = masked t := by
  obtain ⟨members, filled, overrides, hgiven, hfilled, hoverrides, rfl⟩ := exists_of_build ht
  obtain ⟨members', filled', overrides', hgiven', hfilled', hoverrides', rfl⟩ := exists_of_build ht'
  obtain rfl := Value.object.inj (hgiven.symm.trans hgiven')
  have hmembers := agreeOn_members hgiven h
  exact masked_overDefaults (masked_entries members hmembers hfilled hfilled' hoverrides hoverrides')

end Headers

/-! ## Forms and bodies -/

/-- The variables in what a field of a form holds, unless its name is sensitive. -/
def FormField.shownVariables (field : FormField) : List String :=
  match field.name with
  | .text name => if isSensitive name then [] else Masking.shownVariables field.default
  | _ => Masking.shownVariables field.default

namespace Step

/-- The entries of a form, all of which are under names that are texts. -/
def NamedEntries (store : Store) (fields : List FormField) (named : List (String × Value)) : Prop :=
  ∃ entries, formEntries store fields = .ok entries ∧ textNames? entries = some named

theorem namedEntries_of_formBody {fields : List FormField} {body : Value}
    (h : formBody st fields = .ok body) :
    ∃ named, NamedEntries st fields named ∧ body = .object (Table.ofList named) := by
  unfold formBody at h
  obtain ⟨entries, hentries, h⟩ := ok_of_bind h
  cases hnamed : textNames? entries with
  | some named =>
    rw [hnamed] at h
    exact ⟨named, ⟨entries, hentries, hnamed⟩, (Except.ok.inj h).symm⟩
  | none =>
    rw [hnamed] at h
    obtain ⟨_, -, h⟩ := ok_of_bind h
    cases h

theorem NamedEntries.cons_inv {field : FormField} {fields : List FormField}
    {named : List (String × Value)} (h : NamedEntries st (field :: fields) named) :
    ∃ name a others, field.name = .text name ∧ fieldValue st field = .ok a ∧
      NamedEntries st fields others ∧ named = (name, a) :: others := by
  obtain ⟨entries, hentries, hnamed⟩ := h
  unfold formEntries at hentries
  obtain ⟨a, ha, hentries⟩ := ok_of_bind hentries
  cases hname : field.name with
  | text name =>
    rw [hname] at hentries
    obtain ⟨rest, hrest, hentries⟩ := ok_of_bind hentries
    cases hentries
    obtain ⟨others, hothers, rfl⟩ := Option.map_eq_some_iff.1 hnamed
    exact ⟨name, a, others, rfl, ha, ⟨rest, hrest, hothers⟩, rfl⟩
  | list | object =>
    rw [hname] at hentries
    cases hentries
  | null | bool | int | float =>
    rw [hname] at hentries
    obtain ⟨rest, -, hentries⟩ := ok_of_bind hentries
    cases hentries
    cases hnamed

theorem fieldValue_ne_null {field : FormField} {a : Value} (h : fieldValue st field = .ok a) :
    a ≠ .null := by
  unfold fieldValue at h
  cases hdefault : field.default with
  | text s =>
    rw [hdefault] at h
    obtain ⟨filled, -, rfl⟩ := ok_of_map h
    simp
  | _ =>
    rw [hdefault] at h
    cases h
    simp

/-- What a field holds depends on the variables of a default that is a text, and on no others. -/
theorem fieldValue_congr {field : FormField}
    (h : ∀ s, field.default = .text s → AgreeOn (variablesOf s) st st') :
    fieldValue st' field = fieldValue st field := by
  unfold fieldValue
  cases hdefault : field.default with
  | text s => exact congrArg (Except.map Value.text) (fill_congr (h s hdefault))
  | _ => rfl

theorem maskEntry_of_fieldValue {field : FormField} {name : String} {a a' : Value}
    (hname : field.name = .text name) (h : AgreeOn field.shownVariables st st')
    (ha : fieldValue st field = .ok a) (ha' : fieldValue st' field = .ok a') :
    maskEntry name (maskAll a') = maskEntry name (maskAll a) := by
  unfold FormField.shownVariables at h
  rw [hname] at h
  by_cases hsensitive : isSensitive name
  · refine maskEntry_of_sensitive hsensitive ?_
    rw [maskAll_eq_null_iff, maskAll_eq_null_iff]
    exact iff_of_false (fieldValue_ne_null ha') (fieldValue_ne_null ha)
  · dsimp only at h
    rw [if_neg hsensitive] at h
    have htext : ∀ s, field.default = .text s → AgreeOn (variablesOf s) st st' := by
      intro s hs
      rw [hs] at h
      exact h
    rw [fieldValue_congr htext, ha] at ha'
    cases ha'
    rfl

theorem maskMembers_of_namedEntries {fields : List FormField} {named named' : List (String × Value)}
    (h : AgreeOn (fields.flatMap FormField.shownVariables) st st')
    (hnamed : NamedEntries st fields named) (hnamed' : NamedEntries st' fields named') :
    maskMembers named' = maskMembers named := by
  induction fields generalizing named named' with
  | nil =>
    obtain ⟨_, ⟨⟩, ⟨⟩⟩ := hnamed
    obtain ⟨_, ⟨⟩, ⟨⟩⟩ := hnamed'
    rfl
  | cons field fields ih =>
    rw [List.flatMap_cons] at h
    obtain ⟨hfirst, hrest⟩ := agreeOn_append.1 h
    obtain ⟨name, a, others, hname, ha, hothers, rfl⟩ := hnamed.cons_inv
    obtain ⟨name', a', others', hname', ha', hothers', rfl⟩ := hnamed'.cons_inv
    obtain rfl := Value.text.inj (hname.symm.trans hname')
    rw [maskMembers, maskMembers, maskEntry_of_fieldValue hname hfirst ha ha',
      ih hrest hothers hothers']

theorem maskAll_of_formBody {fields : List FormField} {body body' : Value}
    (h : AgreeOn (fields.flatMap FormField.shownVariables) st st')
    (hbody : formBody st fields = .ok body) (hbody' : formBody st' fields = .ok body') :
    maskAll body' = maskAll body := by
  obtain ⟨named, hnamed, rfl⟩ := namedEntries_of_formBody hbody
  obtain ⟨named', hnamed', rfl⟩ := namedEntries_of_formBody hbody'
  exact maskAll_ofList (maskMembers_of_namedEntries h hnamed hnamed')

variable {step : Step} {bodyMethods : List String} {settings : Settings}

/-- What a step shows of the variables in its body, or else in its form. -/
def shownInBody (step : Step) : List String :=
  match step.form with
  | some fields => fields.flatMap FormField.shownVariables
  | none => Masking.shownVariables step.body

theorem maskAll_of_resolvedBody {method : String} {body body' : Value}
    (h : AgreeOn step.shownInBody st st')
    (hbody : resolvedBody step bodyMethods method st = .ok body)
    (hbody' : resolvedBody step bodyMethods method st' = .ok body') :
    maskAll body' = maskAll body := by
  unfold resolvedBody at hbody hbody'
  unfold shownInBody at h
  by_cases hmethod : RestLine.supportsBody bodyMethods method
  · rw [if_pos hmethod] at hbody hbody'
    cases hform : step.form with
    | some fields =>
      rw [hform] at h hbody hbody'
      exact maskAll_of_formBody h hbody hbody'
    | none =>
      rw [hform] at h hbody hbody'
      exact maskAll_of_fillValue step.body h hbody hbody'
  · rw [if_neg hmethod] at hbody hbody'
    cases hbody
    cases hbody'
    rfl

/-! ## Steps -/

/-- The variables whose values a step shows: those in its address, in headers and parts of its body
or form under no sensitive name, and in the endpoint that it polls. -/
def shownVariables (settings : Settings) (step : Step) : List String :=
  variablesOf (RestLine.split step.rest).2 ++
    (variablesIn ((step.baseUrl.orElse settings.baseUrl).orElse (.text "")) ++
      (Headers.shownVariables step.headers ++
        (step.shownInBody ++ step.poll.elim [] fun spec => variablesIn spec.endpoint)))

/-- The stores have the same variables, and the same values for those that are shown. -/
structure StoresAlike (shown : List String) (st st' : Store) : Prop where
  names : Table.names st' = Table.names st
  agree : AgreeOn shown st st'

theorem StoresAlike.set {shown : List String} (h : StoresAlike shown st st') (name : String)
    (v : Value) : StoresAlike shown (Table.set name v st) (Table.set name v st') where
  names := by
    rw [Table.names_set, Table.names_set, h.names]
  agree := by
    intro other hother
    rw [Table.get?_set, Table.get?_set, h.agree other hother]

structure PartsAgree (settings : Settings) (step : Step) (st st' : Store) : Prop where
  endpoint : AgreeOn (variablesOf (RestLine.split step.rest).2) st st'
  baseUrl : AgreeOn (variablesIn ((step.baseUrl.orElse settings.baseUrl).orElse (.text ""))) st st'
  headers : AgreeOn (Headers.shownVariables step.headers) st st'
  body : AgreeOn step.shownInBody st st'
  poll : AgreeOn (step.poll.elim [] fun spec => variablesIn spec.endpoint) st st'

theorem agreeOn_shownVariables (h : AgreeOn (step.shownVariables settings) st st') :
    PartsAgree settings step st st' := by
  obtain ⟨hendpoint, h⟩ := agreeOn_append.1 h
  obtain ⟨hbase, h⟩ := agreeOn_append.1 h
  obtain ⟨hheaders, h⟩ := agreeOn_append.1 h
  obtain ⟨hbody, hpoll⟩ := agreeOn_append.1 h
  exact ⟨hendpoint, hbase, hheaders, hbody, hpoll⟩

/-- Requests that come from stores which agree on what is shown of them are shown alike. -/
theorem shownAlike_of_resolves {p p' : Prepared} (h : PartsAgree settings step st st')
    (hp : Resolves step bodyMethods settings st p)
    (hp' : Resolves step bodyMethods settings st' p') :
    p'.baseUrl = p.baseUrl ∧ ShownAlike p.request p'.request := by
  have hmethod := hp'.method.trans hp.method.symm
  have hbase : p'.baseUrl = p.baseUrl := by
    have hsame : resolvedBaseUrl step settings st' = resolvedBaseUrl step settings st := by
      rw [resolvedBaseUrl, resolvedBaseUrl, fillGiven_congr h.baseUrl]
    exact Except.ok.inj (hp'.baseUrl.symm.trans (hsame.trans hp.baseUrl))
  obtain ⟨endpoint, hendpoint, hurl⟩ := hp.url
  obtain ⟨endpoint', hendpoint', hurl'⟩ := hp'.url
  rw [fill_congr h.endpoint, hendpoint] at hendpoint'
  cases hendpoint'
  have hbody' := hp'.body
  rw [hmethod] at hbody'
  refine ⟨hbase, hmethod, ?_, ?_, maskAll_of_resolvedBody h.body hp.body hbody'⟩
  · rw [hurl', hurl, hbase]
  · rw [Headers.maskTable_eq_masked, Headers.maskTable_eq_masked]
    exact Headers.masked_build h.headers hp.headers hp'.headers

/-- Requests are taken for each other if they go to the same place in the same way. -/
def SameTarget (r r' : Request) : Prop :=
  r'.method = r.method ∧ r'.url = r.url

theorem pairing_shown {shown : List String} (bodyMethods : List String) (settings : Settings)
    (hshown : ∀ name ∈ step.shownVariables settings, name ∈ shown) :
    step.Pairing True (StoresAlike shown) SameTarget ShownAlike bodyMethods settings where
  unresolved h := missing_congr h.names _
  prepare := by
    intro st st' p h hp
    cases hp' : prepare step bodyMethods settings st' with
    | error f => exact .inr ⟨trivial, f, rfl⟩
    | ok p' =>
      obtain ⟨hbase, halike⟩ := shownAlike_of_resolves (agreeOn_shownVariables (h.agree.mono hshown))
        (resolves_of_prepare hp) (resolves_of_prepare hp')
      exact .inl ⟨p', rfl, hbase, halike, halike.method, halike.url⟩
  shown h := h
  polls _ _ := ⟨rfl, rfl⟩
  address := by
    intro st st' spec hpoll baseUrl h
    have hpart := (agreeOn_shownVariables (h.agree.mono hshown)).poll
    rw [hpoll] at hpart
    rw [Poll.address, Poll.address, fillGiven_congr hpart]

end Step

end RestDemo
