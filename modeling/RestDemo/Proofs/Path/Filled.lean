import RestDemo.Proofs.Path.Composition
import RestDemo.Proofs.Template.Filled

/-!
# Paths in filled documents

Filling a document puts other texts in the place of its texts, and that is all it does
(`fillValue_eq_mapTexts`). Whatever texts are put in, a path leads to what has become of the part to
which it led before (`extract_mapTexts`), and the document has the locations that it had
(`located_mapTexts_iff`). So it does not matter whether a document is filled before a part of it is
looked up or the part is filled afterwards (`extract_filled`).
-/

namespace RestDemo

namespace Value

variable {f : String → String}

mutual

/-- The value with other texts in the place of its texts; the names of mappings stay. -/
def mapTexts (f : String → String) : Value → Value
  | text s => text (f s)
  | list items => list (mapTextsItems f items)
  | object members => object (mapTextsMembers f members)
  | v => v

def mapTextsItems (f : String → String) : List Value → List Value
  | [] => []
  | v :: vs => mapTexts f v :: mapTextsItems f vs

def mapTextsMembers (f : String → String) : List (String × Value) → List (String × Value)
  | [] => []
  | (k, v) :: ms => (k, mapTexts f v) :: mapTextsMembers f ms

end

theorem mapTexts_list (f : String → String) (items : List Value) :
    mapTexts f (.list items) = .list (items.map (mapTexts f)) := by
  have hitems : mapTextsItems f items = items.map (mapTexts f) := by
    induction items with
    | nil => rfl
    | cons v vs ih => rw [mapTextsItems, ih, List.map_cons]
  rw [mapTexts, hitems]

theorem mapTexts_object (f : String → String) (members : Table Value) :
    mapTexts f (.object members) = .object (members.mapEntries fun _ => mapTexts f) := by
  have hmembers : mapTextsMembers f members = members.mapEntries fun _ => mapTexts f := by
    induction members with
    | nil => rfl
    | cons p ms ih => rw [mapTextsMembers, ih, Table.mapEntries_cons]
  rw [mapTexts, hmembers]

end Value

open Value

/-! ## Filling -/

namespace Template

variable {store : Store} {f : String → String}

mutual

/-- A value is filled by putting filled texts in the place of its texts. -/
theorem fillValue_eq_mapTexts (hf : ∀ text, fill store text = .ok (f text)) :
    ∀ v, fillValue store v = .ok (v.mapTexts f)
  | .text s => by
    rw [fillValue, hf]
    rfl
  | .list items => by
    rw [fillValue, fillItems_eq_mapTexts hf items]
    rfl
  | .object members => by
    rw [fillValue, fillMembers_eq_mapTexts hf members]
    rfl
  | .null | .bool _ | .int _ | .float _ => rfl

theorem fillItems_eq_mapTexts (hf : ∀ text, fill store text = .ok (f text)) :
    ∀ vs, fillItems store vs = .ok (mapTextsItems f vs)
  | [] => rfl
  | v :: vs => by
    rw [fillItems, fillValue_eq_mapTexts hf v, fillItems_eq_mapTexts hf vs]
    rfl

theorem fillMembers_eq_mapTexts (hf : ∀ text, fill store text = .ok (f text)) :
    ∀ ms, fillMembers store ms = .ok (mapTextsMembers f ms)
  | [] => rfl
  | (k, v) :: ms => by
    rw [fillMembers, fillValue_eq_mapTexts hf v, fillMembers_eq_mapTexts hf ms]
    rfl

end

end Template

/-! ## Paths and locations -/

namespace Path

variable {f : String → String} {v result : Value} {location : List Segment}

/-- A text stays a text, so a step leads somewhere exactly where it did before. -/
theorem follow_mapTexts (f : String → String) (segment : Segment) (v : Value) :
    follow segment (v.mapTexts f) = (follow segment v).map (Option.map (mapTexts f)) := by
  have hitem (items : List Value) (i : Int) :
      item? (items.map (mapTexts f)) i = (item? items i).map (mapTexts f) := by
    unfold item?
    split
    · rfl
    · exact List.getElem?_map
  cases v with
  | list items =>
    rw [mapTexts_list]
    cases segment with
    | place i => exact congrArg Except.ok (hitem items i)
    | name s =>
      unfold follow
      dsimp only
      split
      · split
        · exact congrArg Except.ok (hitem items _)
        · rfl
      · rfl
  | object members =>
    rw [mapTexts_object]
    cases segment with
    | place i => rfl
    | name s => exact congrArg Except.ok (Table.get?_mapEntries _ members s)
  | _ => cases segment <;> rfl

theorem followAll_mapTexts (f : String → String) (segments : List Segment)
    (document : Option Value) : followAll segments (document.map (mapTexts f)) =
      (followAll segments document).map (Option.map (mapTexts f)) := by
  induction segments generalizing document with
  | nil => rfl
  | cons segment rest ih =>
    cases document with
    | none => rfl
    | some v =>
      rw [Option.map_some, followAll, followAll, follow_mapTexts]
      cases follow segment v with
      | error e => rfl
      | ok part => exact ih part

theorem extract_mapTexts (f : String → String) (document : Option Value) (path : String) :
    extract (document.map (mapTexts f)) path =
      (extract document path).map (Option.map (mapTexts f)) := by
  unfold extract
  cases parse? path with
  | none => rfl
  | some segments => exact followAll_mapTexts f segments document

theorem Located.mapTexts (h : Located v location result) (f : String → String) :
    Located (v.mapTexts f) location (result.mapTexts f) := by
  induction h with
  | here v => exact .here _
  | entry plain found _ ih =>
    rw [mapTexts_object]
    refine .entry plain ?_ ih
    rw [Table.get?_mapEntries, found]
    rfl
  | item found _ ih =>
    rw [mapTexts_list]
    refine .item ?_ ih
    rw [List.getElem?_map, found]
    rfl

/-- The locations of the new value are those of the old one. -/
theorem located_mapTexts_iff : Located (v.mapTexts f) location result ↔
    ∃ part, Located v location part ∧ result = part.mapTexts f := by
  constructor
  · intro h
    induction location generalizing v with
    | nil =>
      generalize hwhole : v.mapTexts f = whole at h
      cases h
      exact ⟨v, .here v, hwhole.symm⟩
    | cons segment rest ih =>
      cases v with
      | list items =>
        rw [mapTexts_list] at h
        cases h with
        | item found onward =>
          obtain ⟨next, hnext, rfl⟩ := Option.map_eq_some_iff.1 (List.getElem?_map ▸ found)
          obtain ⟨part, hpart, rfl⟩ := ih onward
          exact ⟨part, .item hnext hpart, rfl⟩
      | object members =>
        rw [mapTexts_object] at h
        cases h with
        | entry plain found onward =>
          rw [Table.get?_mapEntries] at found
          obtain ⟨next, hnext, rfl⟩ := Option.map_eq_some_iff.1 found
          obtain ⟨part, hpart, rfl⟩ := ih onward
          exact ⟨part, .entry plain hnext hpart, rfl⟩
      | _ => cases h
  · rintro ⟨part, hpart, rfl⟩
    exact hpart.mapTexts f

/-- Filling puts filled texts in the place of the texts of a document. Looking up a part of the
filled document is filling the part that is looked up, at every path, and a part that is not there
stays away; and the locations of the filled document are those of the document. -/
theorem extract_filled {store : Store} (hstore : Store.Embeds store) :
    ∃ f, (∀ text, Template.fill store text = .ok (f text)) ∧ ∀ document,
      Template.fillValue store document = .ok (document.mapTexts f) ∧
      (∀ path, Short path → ∃ part, extract (some document) path = .ok part ∧
        extract (some (document.mapTexts f)) path = .ok (part.map (mapTexts f))) ∧
      ∀ location result, Located (document.mapTexts f) location result ↔
        ∃ part, Located document location part ∧ result = part.mapTexts f := by
  choose f hf using Template.exists_fill hstore
  refine ⟨f, hf, fun document => ⟨Template.fillValue_eq_mapTexts hf document, ?_, ?_⟩⟩
  · intro path hpath
    obtain ⟨part, hpart⟩ := hpath.exists_extract (some document)
    refine ⟨part, hpart, ?_⟩
    have hfilled := extract_mapTexts f (some document) path
    rw [hpart] at hfilled
    exact hfilled
  · intro location result
    exact located_mapTexts_iff

/-- An order for a customer whose name is put in, with a name that looks like a variable. -/
def orderDocument : Value :=
  .object [("$customer", .text "to $customer"), ("items", .list [.null, .text "$count pieces"])]

/-- The text that is put in looks like a path and like a variable. -/
def orderStore : Store := [("customer", .text "items[0].$count"), ("count", .int 2)]

/-- The second item is filled at its place, and the first one has no parts that could be. -/
theorem extract_filled_order :
    Store.Embeds orderStore ∧ Short "items.1" ∧ Short "items[0].$count" ∧ ∃ filled,
      Template.fillValue orderStore orderDocument = .ok filled ∧
      extract (some filled) "items.1" = .ok (some (.text "2 pieces")) ∧
      extract (some filled) "items[0].$count" = .ok none := by
  have hembeds : Store.Embeds orderStore := by
    intro name v hv
    rcases List.mem_cons.1 (Table.mem_of_get? hv) with heq | hv
    · cases heq
      exact ⟨_, rfl⟩
    · cases List.mem_singleton.1 hv
      exact ⟨_, rfl⟩
  have hplace : parse? "items.1" = some [.name "items", .name "1"] := rfl
  have hnull : parse? "items[0].$count" = some [.name "items", .place 0, .name "$count"] := rfl
  have hplaceShort : Short "items.1" := short_of_parse? hplace (by simp [Number.maxDigits])
  have hnullShort : Short "items[0].$count" := short_of_parse? hnull (by simp [Number.maxDigits])
  obtain ⟨f, hf, hfilled⟩ := extract_filled hembeds
  obtain ⟨hfills, hparts, -⟩ := hfilled orderDocument
  obtain ⟨part, hpart, hpart'⟩ := hparts "items.1" hplaceShort
  obtain ⟨part', hnone, hnone'⟩ := hparts "items[0].$count" hnullShort
  refine ⟨hembeds, hplaceShort, hnullShort, _, hfills, ?_, ?_⟩
  · obtain rfl := Except.ok.inj hpart
    have htext : f "$count pieces" = "2 pieces" := Except.ok.inj ((hf _).symm.trans rfl)
    rw [hpart', ← htext]
    rfl
  · obtain rfl := Except.ok.inj hnone
    exact hnone'

end Path

end RestDemo
