import RestDemo.Proofs.Path.Reading

/-!
# Locations

A location leads from a document to one of its parts, through mappings by names and through lists
by places. `extract_locations` says that paths are as good as locations: a location that is written
as a path leads to its part, with the places in brackets or as names of digits, and what is found at
a path is the document itself or the part at some location.
-/

namespace RestDemo.Path

variable {v w next result : Value} {segment : Segment} {location more written : List Segment}

/-- The location leads from the first value to the second one, by names that can be written in a
path. -/
inductive Located : Value → List Segment → Value → Prop where
  | here (v : Value) : Located v [] v
  | entry {name : String} {members : Table Value} {next result : Value} {rest : List Segment}
      (plain : PlainName name) (found : Table.get? name members = some next)
      (onward : Located next rest result) : Located (.object members) (.name name :: rest) result
  | item {n : Nat} {items : List Value} {next result : Value} {rest : List Segment}
      (found : items[n]? = some next) (onward : Located next rest result) :
      Located (.list items) (.place n :: rest) result

theorem Located.append (h : Located v location w) (hmore : Located w more result) :
    Located v (location ++ more) result := by
  induction h with
  | here v => exact hmore
  | entry plain found _ ih => exact .entry plain found (ih hmore)
  | item found _ ih => exact .item found (ih hmore)

/-- Every place in a list of the document can be written with `maxDigits` digits, as in every list
that a machine can hold. -/
def Addressable (v : Value) : Prop :=
  ∀ location items, Located v location (.list items) → items.length ≤ 10 ^ Number.maxDigits

theorem Addressable.of_located (h : Addressable v) (hlocated : Located v location w) :
    Addressable w := by
  intro more items hitems
  exact h (location ++ more) items (hlocated.append hitems)

theorem addressable_list {items : List Value} (hsize : items.length ≤ 10 ^ Number.maxDigits)
    (h : ∀ v ∈ items, Addressable v) : Addressable (.list items) := by
  intro location inner hlocated
  cases hlocated with
  | here => exact hsize
  | item found onward => exact h _ (List.mem_of_getElem? found) _ inner onward

theorem addressable_object {members : Table Value} (h : ∀ p ∈ members, Addressable p.2) :
    Addressable (.object members) := by
  intro location inner hlocated
  cases hlocated with
  | entry plain found onward => exact h _ (Table.mem_of_get? found) _ inner onward

theorem addressable_of_no_parts (hlist : ∀ items, v ≠ .list items)
    (hobject : ∀ members, v ≠ .object members) : Addressable v := by
  intro location inner hlocated
  cases hlocated with
  | here => exact absurd rfl (hlist inner)
  | entry => exact absurd rfl (hobject _)
  | item => exact absurd rfl (hlist _)

theorem Addressable.lt {n : Nat} {items : List Value} (h : Addressable (.list items))
    (hfound : items[n]? = some next) : n < 10 ^ Number.maxDigits := by
  obtain ⟨hn, -⟩ := List.getElem?_eq_some_iff.1 hfound
  have hsize := h [] items (.here _)
  omega

/-- How a step of a location is written: as it is, or a place as the name of its digits. -/
inductive Spells : Segment → Segment → Prop where
  | same (segment : Segment) : Spells segment segment
  | digits (n : Nat) : Spells (.place n) (.name (String.ofList (Nat.toDigits 10 n)))

/-! ## From locations to parts -/

theorem item?_natCast (items : List Value) (n : Nat) : item? items n = items[n]? := by
  rw [item?, if_neg (by omega), Int.toNat_natCast]

theorem isAsciiDigit_of_mem_toDigits {n : Nat} {d : Char} (h : d ∈ Nat.toDigits 10 n) :
    Text.isAsciiDigit d :=
  Text.isAsciiDigit_of_isDigit (Number.isDigit_of_mem_toDigits h)

theorem plainName_toDigits (n : Nat) : PlainName (String.ofList (Nat.toDigits 10 n)) :=
  plainName_digits (fun _ => isAsciiDigit_of_mem_toDigits) Nat.toDigits_ne_nil

/-- A name of digits leads to a place in a list. -/
theorem follow_digits {n : Nat} (hn : n < 10 ^ Number.maxDigits) (items : List Value) :
    follow (.name (String.ofList (Nat.toDigits 10 n))) (.list items) = .ok items[n]? := by
  have hdigits : (Nat.toDigits 10 n).all Text.isAsciiDigit := by
    rw [List.all_eq_true]
    intro d hd
    exact isAsciiDigit_of_mem_toDigits hd
  have hlength : (Nat.toDigits 10 n).length ≤ Number.maxDigits :=
    (Nat.length_toDigits_le_iff (by decide) (by decide)).2 hn
  rw [follow, String.toList_ofList, if_pos ⟨(plainName_toDigits n).1, hdigits⟩,
    if_pos hlength, Text.digitsValue_toDigits, item?_natCast]

/-- A spelled location can be written, and it leads to the part. -/
theorem written_of_located (h : Located v location result) (haddressable : Addressable v)
    (hspelled : List.Forall₂ Spells location written) :
    (∀ segment ∈ written, segment.Writable) ∧
      followAll written (some v) = .ok (some result) := by
  induction h generalizing written with
  | here v =>
    cases hspelled
    exact ⟨List.forall_mem_nil _, rfl⟩
  | @entry name members next result rest plain found onward ih =>
    obtain _ | ⟨hstep, hrest⟩ := hspelled
    have hnext := haddressable.of_located (.entry plain found (.here next))
    obtain ⟨hwritable, hleads⟩ := ih hnext hrest
    cases hstep
    refine ⟨List.forall_mem_cons.2 ⟨plain, hwritable⟩, ?_⟩
    rw [followAll, follow, found]
    exact hleads
  | @item n items next result rest found onward ih =>
    obtain _ | ⟨hstep, hrest⟩ := hspelled
    have hnext := haddressable.of_located (.item found (.here next))
    obtain ⟨hwritable, hleads⟩ := ih hnext hrest
    have hn : n < 10 ^ Number.maxDigits := haddressable.lt found
    cases hstep with
    | same =>
      refine ⟨List.forall_mem_cons.2 ⟨hn, hwritable⟩, ?_⟩
      rw [followAll, follow, item?_natCast, found]
      exact hleads
    | digits =>
      refine ⟨List.forall_mem_cons.2 ⟨plainName_toDigits n, hwritable⟩, ?_⟩
      rw [followAll, follow_digits hn, found]
      exact hleads

/-! ## From paths to locations -/

theorem exists_of_item? {items : List Value} {i : Int} (h : item? items i = some w) :
    ∃ n : Nat, items[n]? = some w := by
  unfold item? at h
  split at h
  · cases h
  · exact ⟨i.toNat, h⟩

/-- A segment leads by one step, if it leads anywhere. -/
theorem exists_step_of_follow (hplain : ∀ name, segment = .name name → PlainName name)
    (h : follow segment v = .ok (some w)) : ∃ step, Located v [step] w := by
  unfold follow at h
  split at h
  · obtain ⟨n, hn⟩ := exists_of_item? (Except.ok.inj h)
    exact ⟨.place n, .item hn (.here w)⟩
  · next name members => exact ⟨.name name, .entry (hplain name rfl) (Except.ok.inj h) (.here w)⟩
  · split at h
    · split at h
      · obtain ⟨n, hn⟩ := exists_of_item? (Except.ok.inj h)
        exact ⟨.place n, .item hn (.here w)⟩
      · cases h
    · cases h
  · cases h

theorem exists_located_of_followAll {segments : List Segment}
    (hplain : ∀ name, .name name ∈ segments → PlainName name)
    (h : followAll segments (some v) = .ok (some result)) :
    ∃ location, Located v location result := by
  induction segments generalizing v with
  | nil =>
    cases h
    exact ⟨[], .here _⟩
  | cons segment rest ih =>
    unfold followAll at h
    rcases hfollow : follow segment v with f | _ | next
    · rw [hfollow] at h
      cases h
    · rw [hfollow] at h
      cases rest <;> cases h
    · rw [hfollow] at h
      obtain ⟨step, hstep⟩ :=
        exists_step_of_follow (fun name hname => hplain name (hname ▸ List.mem_cons_self)) hfollow
      obtain ⟨location, hlocated⟩ :=
        ih (fun name hname => hplain name (List.mem_cons_of_mem _ hname)) h
      exact ⟨step :: location, hstep.append hlocated⟩

/-- What is found at a path is at a location. -/
theorem exists_located_of_extract {path : String} (h : extract (some v) path = .ok (some result)) :
    ∃ location, Located v location result := by
  unfold extract at h
  cases hparse : parse? path with
  | none =>
    rw [hparse] at h
    cases h
  | some segments =>
    rw [hparse] at h
    exact exists_located_of_followAll (fun _ => plainName_of_parse? hparse) h

/-! ## Paths and locations -/

/-- A location that is written as a path leads to its part, and every part that a path leads to is
the document or at a location. -/
theorem extract_locations (document : Value) :
    (∀ location written part, Addressable document → Located document location part →
      List.Forall₂ Spells location written →
      extract (some document) (String.ofList (render written)) = .ok (some part)) ∧
    ∀ path part, extract (some document) path = .ok (some part) →
      part = document ∨ ∃ location, location ≠ [] ∧ Located document location part := by
  constructor
  · intro location written part haddressable hlocated hspelled
    obtain ⟨hwritable, hleads⟩ := written_of_located hlocated haddressable hspelled
    rw [extract, parse?_render hwritable]
    exact hleads
  · intro path part hextract
    obtain ⟨location, hlocated⟩ := exists_located_of_extract hextract
    by_cases hhere : location = []
    · subst hhere
      cases hlocated
      exact .inl rfl
    · exact .inr ⟨location, hhere, hlocated⟩

/-- Jobs under a name with a closing bracket, with a name of digits and one with a blank in them. -/
def bracketDocument : Value :=
  .object [("jobs]", .list [
    .object [("0", .null)],
    .object [("0", .object [("last run", .int 7)])]])]

theorem addressable_bracketDocument : Addressable bracketDocument := by
  have hnull : Addressable .null := addressable_of_no_parts (by simp) (by simp)
  have hint : Addressable (.int 7) := addressable_of_no_parts (by simp) (by simp)
  have hrun : Addressable (.object [("last run", .int 7)]) :=
    addressable_object (by simpa using hint)
  have hmost : Number.maxDigits < 10 ^ Number.maxDigits := Nat.lt_pow_self (by decide)
  apply addressable_object
  intro p hp
  obtain rfl := List.mem_singleton.1 hp
  apply addressable_list (Nat.le_trans (by decide) (Nat.le_of_lt hmost))
  intro v hv
  rcases List.mem_cons.1 hv with rfl | hv
  · exact addressable_object (by simpa using hnull)
  · obtain rfl := List.mem_singleton.1 hv
    exact addressable_object (by simpa using hrun)

theorem extract_locations_bracket :
    Addressable bracketDocument ∧
      extract (some bracketDocument) "jobs].1.0.last run" = .ok (some (.int 7)) ∧
      (Value.int 7 = bracketDocument ∨
        ∃ location, location ≠ [] ∧ Located bracketDocument location (.int 7)) := by
  have hname (name : String) (h : name.toList.all fun c => c ≠ '[' ∧ c ≠ '.') (hgiven : name ≠ "") :
      PlainName name := ⟨hgiven, by simpa using h⟩
  have hlocated : Located bracketDocument
      [.name "jobs]", .place 1, .name "0", .name "last run"] (.int 7) :=
    .entry (hname _ (by decide) (by decide)) rfl <| .item rfl <|
      .entry (hname _ (by decide) (by decide)) rfl <|
      .entry (hname _ (by decide) (by decide)) rfl (.here _)
  have hspelled : List.Forall₂ Spells [.name "jobs]", .place 1, .name "0", .name "last run"]
      [.name "jobs]", .name "1", .name "0", .name "last run"] :=
    .cons (.same _) (.cons (.digits 1) (.cons (.same _) (.cons (.same _) .nil)))
  obtain ⟨hfound, hlocations⟩ := extract_locations bracketDocument
  have hextract := hfound _ _ _ addressable_bracketDocument hlocated hspelled
  exact ⟨addressable_bracketDocument, hextract, hlocations _ _ hextract⟩

end RestDemo.Path
