import RestDemo.Masking
import RestDemo.Proofs.Limits
import RestDemo.Proofs.Template.Agreement

/-!
# What masking shows of a filled value

The variables of a template that are under no sensitive name are the only ones whose values are shown
when it is filled and masked (`maskAll_of_fillValue`).
-/

namespace RestDemo.Masking

open Template

variable {st st' : Store} {k : String} {v v' : Value}

mutual

/-- The variables of a value that are under no sensitive name. -/
def shownVariables : Value → List String
  | .text s => variablesOf s
  | .list items => shownInItems items
  | .object members => shownInMembers members
  | _ => []

def shownInItems : List Value → List String
  | [] => []
  | v :: vs => shownVariables v ++ shownInItems vs

def shownInMembers : List (String × Value) → List String
  | [] => []
  | (k, v) :: ms => (if isSensitive k then [] else shownVariables v) ++ shownInMembers ms

end

/-! ## Single entries -/

/-- Of what is under a sensitive name nothing is shown but whether it is there. -/
theorem maskEntry_of_sensitive (h : isSensitive k) (hnull : v' = .null ↔ v = .null) :
    maskEntry k v' = maskEntry k v := by
  by_cases hv : v = .null
  · rw [hv, hnull.2 hv]
  · have hv' : v' ≠ .null := fun h => hv (hnull.1 h)
    have hmask {u : Value} (hu : u ≠ .null) : maskEntry k u = mask := by
      unfold maskEntry
      cases u with
      | null => exact absurd rfl hu
      | _ => exact if_pos h
    rw [hmask hv, hmask hv']

theorem maskAll_eq_null_iff : maskAll v = .null ↔ v = .null := by
  rw [maskAll.eq_def]
  cases v <;> simp

theorem null_iff_of_fillValue {a : Value} (h : fillValue st v = .ok a) : a = .null ↔ v = .null := by
  rw [fillValue.eq_def] at h
  cases v with
  | text s =>
    obtain ⟨filled, -, rfl⟩ := ok_of_map h
    simp
  | list items =>
    obtain ⟨filled, -, rfl⟩ := ok_of_map h
    simp
  | object members =>
    obtain ⟨filled, -, rfl⟩ := ok_of_map h
    simp
  | _ =>
    cases h
    exact Iff.rfl

/-! ## Values -/

mutual

/-- What is shown of a template that is filled depends on no variable under a sensitive name. -/
theorem maskAll_of_fillValue : ∀ (v : Value) {a a' : Value}, AgreeOn (shownVariables v) st st' →
    fillValue st v = .ok a → fillValue st' v = .ok a' → maskAll a' = maskAll a
  | .text s, a, a', h, ha, ha' => by
    have hsame : fillValue st' (.text s) = fillValue st (.text s) :=
      congrArg (Except.map Value.text) (fill_congr h)
    rw [hsame, ha] at ha'
    cases ha'
    rfl
  | .list items, a, a', h, ha, ha' => by
    obtain ⟨filled, hfilled, rfl⟩ := ok_of_map ha
    obtain ⟨filled', hfilled', rfl⟩ := ok_of_map ha'
    exact congrArg Value.list (maskItems_of_fillItems items h hfilled hfilled')
  | .object members, a, a', h, ha, ha' => by
    obtain ⟨filled, hfilled, rfl⟩ := ok_of_map ha
    obtain ⟨filled', hfilled', rfl⟩ := ok_of_map ha'
    exact congrArg Value.object (maskMembers_of_fillMembers members h hfilled hfilled')
  | .null, _, _, _, ha, ha' | .bool _, _, _, _, ha, ha' | .int _, _, _, _, ha, ha'
  | .float _, _, _, _, ha, ha' => by
    cases ha
    cases ha'
    rfl

theorem maskItems_of_fillItems : ∀ (vs : List Value) {as as' : List Value},
    AgreeOn (shownInItems vs) st st' → fillItems st vs = .ok as → fillItems st' vs = .ok as' →
    maskItems as' = maskItems as
  | [], _, _, _, ha, ha' => by
    cases ha
    cases ha'
    rfl
  | v :: vs, as, as', h, ha, ha' => by
    obtain ⟨hfirst, hrest⟩ := agreeOn_append.1 h
    obtain ⟨a, hv, ha⟩ := ok_of_bind ha
    obtain ⟨others, hvs, ha⟩ := ok_of_bind ha
    obtain ⟨a', hv', ha'⟩ := ok_of_bind ha'
    obtain ⟨others', hvs', ha'⟩ := ok_of_bind ha'
    cases ha
    cases ha'
    rw [maskItems, maskItems, maskAll_of_fillValue v hfirst hv hv',
      maskItems_of_fillItems vs hrest hvs hvs']

theorem maskMembers_of_fillMembers : ∀ (ms : List (String × Value)) {as as' : List (String × Value)},
    AgreeOn (shownInMembers ms) st st' → fillMembers st ms = .ok as → fillMembers st' ms = .ok as' →
    maskMembers as' = maskMembers as
  | [], _, _, _, ha, ha' => by
    cases ha
    cases ha'
    rfl
  | (k, v) :: ms, as, as', h, ha, ha' => by
    obtain ⟨hfirst, hrest⟩ := agreeOn_append.1 h
    obtain ⟨a, hv, ha⟩ := ok_of_bind ha
    obtain ⟨others, hms, ha⟩ := ok_of_bind ha
    obtain ⟨a', hv', ha'⟩ := ok_of_bind ha'
    obtain ⟨others', hms', ha'⟩ := ok_of_bind ha'
    cases ha
    cases ha'
    have hentry : maskEntry k (maskAll a') = maskEntry k (maskAll a) := by
      by_cases hk : isSensitive k
      · refine maskEntry_of_sensitive hk ?_
        rw [maskAll_eq_null_iff, maskAll_eq_null_iff, null_iff_of_fillValue hv',
          null_iff_of_fillValue hv]
      · rw [if_neg hk] at hfirst
        rw [maskAll_of_fillValue v hfirst hv hv']
    rw [maskMembers, maskMembers, hentry, maskMembers_of_fillMembers ms hrest hms hms']

end

/-! ## Tables -/

theorem maskMembers_eq_mapEntries (ms : List (String × Value)) :
    maskMembers ms = Table.mapEntries (fun k v => maskEntry k (maskAll v)) ms := by
  induction ms with
  | nil => rfl
  | cons m ms ih =>
    obtain ⟨k, v⟩ := m
    rw [maskMembers, ih]
    rfl

/-- Tables of entries that are shown alike are shown alike. -/
theorem maskAll_ofList {entries entries' : List (String × Value)}
    (h : maskMembers entries' = maskMembers entries) :
    maskAll (.object (Table.ofList entries')) = maskAll (.object (Table.ofList entries)) := by
  have hobject (entries : List (String × Value)) : maskAll (.object (Table.ofList entries)) =
      .object (Table.ofList (maskMembers entries)) := by
    rw [maskAll.eq_def]
    dsimp only
    rw [maskMembers_eq_mapEntries, maskMembers_eq_mapEntries, Table.ofList, Table.mapEntries_overlay]
    rfl
  rw [hobject, hobject, h]

end RestDemo.Masking
