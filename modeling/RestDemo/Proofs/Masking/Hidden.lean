import RestDemo.Proofs.Masking.Filling
import RestDemo.Proofs.Value.Position

/-!
# What masking hides

Masking hides the values under sensitive names and nothing else. Two values are shown alike just if
the one is the other with such values replaced, where what is nothing stays nothing
(`maskAll_eq_iff`). At a position that no sensitive name leads to, a value and what is shown of it
have the same frame (`frame_part?_maskAll`).
-/

namespace RestDemo.Masking

open Value (Index child? part?)

variable {v w : Value} {i : Index} {position : List Index} {name : String}

/-- The first value with some of what is under sensitive names, at any depth, replaced. Only what is
there is replaced, and by something that is there. -/
inductive Replaced : Value → Value → Prop where
  | refl (v : Value) : Replaced v v
  | trans {u v w : Value} (first : Replaced u v) (second : Replaced v w) : Replaced u w
  | secret (before after : Table Value) {name : String} {v w : Value}
      (sensitive : isSensitive name) (given : v ≠ .null) (put : w ≠ .null) :
    Replaced (.object (before ++ (name, v) :: after)) (.object (before ++ (name, w) :: after))
  | item (before after : List Value) {v w : Value} (inside : Replaced v w) :
    Replaced (.list (before ++ v :: after)) (.list (before ++ w :: after))
  | entry (before after : Table Value) (name : String) {v w : Value} (inside : Replaced v w) :
    Replaced (.object (before ++ (name, v) :: after)) (.object (before ++ (name, w) :: after))

/-- A value as it is shown under a sensitive name. -/
def hidden : Value → Value
  | .null => .null
  | _ => mask

/-! ## Single entries -/

theorem maskEntry_of_shown (h : ¬ isSensitive name) (v : Value) : maskEntry name v = v := by
  unfold maskEntry
  cases v with
  | null => rfl
  | _ => exact if_neg h

theorem maskEntry_eq_hidden (h : isSensitive name) (v : Value) : maskEntry name v = hidden v := by
  unfold maskEntry hidden
  cases v with
  | null => rfl
  | _ => exact if_pos h

theorem hidden_of_ne_null (h : v ≠ .null) : hidden v = mask := by
  cases v with
  | null => exact absurd rfl h
  | _ => rfl

theorem hidden_eq_null_iff : hidden v = .null ↔ v = .null := by
  cases v <;> simp [hidden, mask]

theorem hidden_maskAll (v : Value) : hidden (maskAll v) = hidden v := by
  rw [maskAll.eq_def]
  cases v <;> rfl

theorem maskAll_hidden (v : Value) : maskAll (hidden v) = hidden v := by
  cases v <;> rfl

theorem hidden_hidden (v : Value) : hidden (hidden v) = hidden v := by
  cases v <;> rfl

theorem maskItems_eq_map (vs : List Value) : maskItems vs = vs.map maskAll := by
  induction vs with
  | nil => rfl
  | cons v vs ih => rw [maskItems, ih, List.map_cons]

theorem maskAll_list (items : List Value) : maskAll (.list items) = .list (maskItems items) := by
  rw [maskAll.eq_def]

theorem maskAll_object (members : Table Value) :
    maskAll (.object members) = .object (maskMembers members) := by
  rw [maskAll.eq_def]

theorem maskMembers_append (ms ns : Table Value) :
    maskMembers (ms ++ ns) = maskMembers ms ++ maskMembers ns := by
  rw [maskMembers_eq_mapEntries, maskMembers_eq_mapEntries, maskMembers_eq_mapEntries,
    Table.mapEntries_append]

/-! ## Values that are shown alike -/

theorem Replaced.maskAll_eq (h : Replaced v w) : maskAll v = maskAll w := by
  induction h with
  | refl v => rfl
  | trans _ _ ih ih' => exact ih.trans ih'
  | secret before after sensitive given put =>
    rw [maskAll_object, maskAll_object, maskMembers_append, maskMembers_append, maskMembers,
      maskMembers, maskEntry_eq_hidden sensitive, maskEntry_eq_hidden sensitive, hidden_maskAll,
      hidden_maskAll, hidden_of_ne_null given, hidden_of_ne_null put]
  | item before after _ ih =>
    rw [maskAll_list, maskAll_list, maskItems_eq_map, maskItems_eq_map, List.map_append,
      List.map_append, List.map_cons, List.map_cons, ih]
  | entry before after name _ ih =>
    rw [maskAll_object, maskAll_object, maskMembers_append, maskMembers_append, maskMembers,
      maskMembers, ih]

/-- Entries under one name that are shown alike are the same but for a secret. -/
theorem Replaced.of_maskEntry (before after : Table Value)
    (h : maskEntry name (maskAll v) = maskEntry name (maskAll w))
    (hinside : maskAll v = maskAll w → Replaced v w) :
    Replaced (.object (before ++ (name, v) :: after)) (.object (before ++ (name, w) :: after)) := by
  by_cases hsensitive : isSensitive name
  · rw [maskEntry_eq_hidden hsensitive, maskEntry_eq_hidden hsensitive, hidden_maskAll,
      hidden_maskAll] at h
    by_cases hv : v = .null
    · have hw : w = .null := by rw [← hidden_eq_null_iff, ← h, hidden_eq_null_iff, hv]
      rw [hv, hw]
      exact .refl _
    · have hw : w ≠ .null := by rwa [Ne, ← hidden_eq_null_iff, ← h, hidden_eq_null_iff]
      exact .secret before after hsensitive hv hw
  · rw [maskEntry_of_shown hsensitive, maskEntry_of_shown hsensitive] at h
    exact .entry before after name (hinside h)

mutual

theorem replaced_of_maskAll : ∀ (v : Value) {w : Value}, maskAll v = maskAll w → Replaced v w
  | .list vs, w, h => by
    rw [maskAll_list] at h
    cases w with
    | list ws =>
      rw [maskAll_list] at h
      exact replaced_of_maskItems vs [] (Value.list.inj h)
    | object => rw [maskAll_object] at h; cases h
    | _ => cases h
  | .object ms, w, h => by
    rw [maskAll_object] at h
    cases w with
    | object ns =>
      rw [maskAll_object] at h
      exact replaced_of_maskMembers ms [] (Value.object.inj h)
    | list => rw [maskAll_list] at h; cases h
    | _ => cases h
  | .null, w, h | .bool _, w, h | .int _, w, h | .float _, w, h | .text _, w, h => by
    cases w with
    | list => rw [maskAll_list] at h; cases h
    | object => rw [maskAll_object] at h; cases h
    | _ => cases h <;> exact .refl _

-- What stands before the items, and before the entries below, has been dealt with.
theorem replaced_of_maskItems : ∀ (vs : List Value) {ws : List Value} (before : List Value),
    maskItems vs = maskItems ws → Replaced (.list (before ++ vs)) (.list (before ++ ws))
  | [], [], _, _ => .refl _
  | v :: vs, w :: ws, before, h => by
    obtain ⟨hfirst, hrest⟩ := List.cons.inj h
    have hnext := replaced_of_maskItems vs (before ++ [w]) hrest
    rw [List.append_assoc, List.append_assoc] at hnext
    exact .trans (.item before vs (replaced_of_maskAll v hfirst)) hnext

theorem replaced_of_maskMembers : ∀ (ms : List (String × Value)) {ns : List (String × Value)}
    (before : List (String × Value)),
    maskMembers ms = maskMembers ns → Replaced (.object (before ++ ms)) (.object (before ++ ns))
  | [], [], _, _ => .refl _
  | (k, v) :: ms, (k', w) :: ns, before, h => by
    obtain ⟨hfirst, hrest⟩ := List.cons.inj h
    obtain ⟨rfl, hentry⟩ := Prod.mk.inj hfirst
    have hnext := replaced_of_maskMembers ms (before ++ [(k, w)]) hrest
    rw [List.append_assoc, List.append_assoc] at hnext
    exact .trans (.of_maskEntry before ms hentry (replaced_of_maskAll v)) hnext

end

theorem maskAll_eq_iff : maskAll v = maskAll w ↔ Replaced v w :=
  ⟨replaced_of_maskAll v, Replaced.maskAll_eq⟩

/-! ## Masking what is masked -/

theorem maskEntry_maskEntry (h : maskAll (maskAll v) = maskAll v) :
    maskEntry name (maskAll (maskEntry name (maskAll v))) = maskEntry name (maskAll v) := by
  by_cases hsensitive : isSensitive name
  · simp only [maskEntry_eq_hidden hsensitive, maskAll_hidden, hidden_hidden]
  · simp only [maskEntry_of_shown hsensitive, h]

mutual

theorem maskAll_maskAll : ∀ v : Value, maskAll (maskAll v) = maskAll v
  | .list vs => by
    rw [maskAll_list, maskAll_list, maskItems_maskItems vs]
  | .object ms => by
    rw [maskAll_object, maskAll_object, maskMembers_maskMembers ms]
  | .null | .bool _ | .int _ | .float _ | .text _ => rfl

theorem maskItems_maskItems : ∀ vs : List Value, maskItems (maskItems vs) = maskItems vs
  | [] => rfl
  | v :: vs => by
    rw [maskItems, maskItems, maskAll_maskAll v, maskItems_maskItems vs]

theorem maskMembers_maskMembers : ∀ ms : List (String × Value),
    maskMembers (maskMembers ms) = maskMembers ms
  | [] => rfl
  | (k, v) :: ms => by
    rw [maskMembers, maskMembers, maskEntry_maskEntry (maskAll_maskAll v),
      maskMembers_maskMembers ms]

end

/-! ## Positions -/

/-- A way down that is under no sensitive name. -/
def isShown : Index → Bool
  | .item _ => true
  | .entry name => !isSensitive name

/-- A value without its parts: how many there are in a list, and which names, in their order, there
are in a mapping. -/
def frame : Value → Value
  | .list items => .list (items.map fun _ => .null)
  | .object members => .object (Table.mapEntries (fun _ _ => .null) members)
  | v => v

theorem mapEntries_maskMembers {α : Type} (f : String → α) (ms : Table Value) :
    Table.mapEntries (fun k _ => f k) (maskMembers ms) = Table.mapEntries (fun k _ => f k) ms := by
  rw [maskMembers_eq_mapEntries, Table.mapEntries, Table.mapEntries, Table.mapEntries, List.map_map]
  rfl

theorem frame_maskAll (v : Value) : frame (maskAll v) = frame v := by
  cases v with
  | list items =>
    rw [maskAll_list, maskItems_eq_map, frame, frame, List.map_map]
    rfl
  | object members =>
    rw [maskAll_object, frame, frame, mapEntries_maskMembers]
  | _ => rfl

theorem child?_entry_maskAll (name : String) (v : Value) : child? (.entry name) (maskAll v) =
    (child? (.entry name) v).map fun c => maskEntry name (maskAll c) := by
  cases v with
  | list items =>
    rw [maskAll_list]
    rfl
  | object members =>
    rw [maskAll_object, maskMembers_eq_mapEntries, child?, child?, Table.get?_mapEntries]
  | _ => rfl

theorem child?_item_maskAll (n : Nat) (v : Value) :
    child? (.item n) (maskAll v) = (child? (.item n) v).map maskAll := by
  cases v with
  | list items =>
    rw [maskAll_list, maskItems_eq_map, child?, child?, List.getElem?_map]
  | object members =>
    rw [maskAll_object]
    rfl
  | _ => rfl

theorem child?_maskAll (h : isShown i) (v : Value) :
    child? i (maskAll v) = (child? i v).map maskAll := by
  cases i with
  | item n => exact child?_item_maskAll n v
  | entry name =>
    have hname : ¬ isSensitive name := by simpa [isShown] using h
    simp only [child?_entry_maskAll, maskEntry_of_shown hname]

theorem part?_maskAll (h : ∀ i ∈ position, isShown i) (v : Value) :
    part? position (maskAll v) = (part? position v).map maskAll := by
  induction position generalizing v with
  | nil => rfl
  | cons i rest ih =>
    obtain ⟨hfirst, hrest⟩ := List.forall_mem_cons.1 h
    rw [part?, part?, child?_maskAll hfirst]
    cases child? i v with
    | none => rfl
    | some c => exact ih hrest c

/-- What no sensitive name leads to is shown where it is, and as it is but for its parts. -/
theorem frame_part?_maskAll (h : ∀ i ∈ position, isShown i) (v : Value) :
    (part? position (maskAll v)).map frame = (part? position v).map frame := by
  rw [part?_maskAll h, Option.map_map]
  exact congrArg (fun f => (part? position v).map f) (funext frame_maskAll)

/-- What the first sensitive name leads to is hidden. -/
theorem part?_entry_maskAll (h : ∀ i ∈ position, isShown i) (hname : isSensitive name)
    (v : Value) : part? (position ++ [.entry name]) (maskAll v) =
      (part? (position ++ [.entry name]) v).map hidden := by
  rw [Value.part?_append, Value.part?_append, part?_maskAll h]
  cases part? position v with
  | none => rfl
  | some u =>
    rw [Option.map_some, Option.bind_some, Option.bind_some, part?, part?, child?_entry_maskAll]
    cases child? (.entry name) u with
    | none => rfl
    | some c => exact congrArg some ((maskEntry_eq_hidden hname _).trans (hidden_maskAll c))

/-- Masking hides what is under sensitive names and nothing else. -/
theorem maskAll_hides :
    (∀ v w, maskAll v = maskAll w ↔ Replaced v w) ∧
    (∀ v position, (∀ i ∈ position, isShown i) →
      (part? position (maskAll v)).map frame = (part? position v).map frame) ∧
    (∀ v position name, (∀ i ∈ position, isShown i) → isSensitive name →
      part? (position ++ [.entry name]) (maskAll v) =
        (part? (position ++ [.entry name]) v).map hidden) ∧
    ∀ v, maskAll (maskAll v) = maskAll v :=
  ⟨fun _ _ => maskAll_eq_iff, fun v _ h => frame_part?_maskAll h v,
    fun v _ _ h hname => part?_entry_maskAll h hname v, maskAll_maskAll⟩

/-- Two tries to log in, the second without a password. -/
def tries : Value :=
  .list [.object [("user", .text "ann"), ("Password", .text "pw")],
    .object [("user", .text "ben"), ("Password", .null)]]

theorem maskAll_tries :
    (∀ i ∈ [Index.item 0], isShown i) ∧ (∀ i ∈ [Index.item 1], isShown i) ∧
    isSensitive "Password" ∧
    (part? [.item 0] (maskAll tries)).map frame =
      some (.object [("user", .null), ("Password", .null)]) ∧
    part? ([.item 0] ++ [.entry "Password"]) (maskAll tries) = some mask ∧
    part? ([.item 1] ++ [.entry "Password"]) (maskAll tries) = some .null := by
  have hfirst : ∀ i ∈ [Index.item 0], isShown i := by simp [isShown]
  have hsecond : ∀ i ∈ [Index.item 1], isShown i := by simp [isShown]
  have hname : isSensitive "Password" := by decide +kernel
  refine ⟨hfirst, hsecond, hname, ?_, ?_, ?_⟩
  · exact maskAll_hides.2.1 tries _ hfirst
  · exact maskAll_hides.2.2.1 tries _ _ hfirst hname
  · exact maskAll_hides.2.2.1 tries _ _ hsecond hname

end RestDemo.Masking
