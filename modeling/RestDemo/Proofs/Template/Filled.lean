import RestDemo.Proofs.Json.RoundTrip
import RestDemo.Proofs.Json.Writable
import RestDemo.Proofs.Limits
import RestDemo.Template

/-!
# What filling comes to

Where every variable has a value that can be put into a text, every template can be filled
(`exists_fill`), and so can every value with templates in it (`exists_fillValue`). Only texts
change: the filled value is nested as deep, it is nothing only if the value was, and it can be
written and read back if the value can (`Kept`).
-/

namespace RestDemo

/-- The value can be put into a text. -/
def Value.Embeds (v : Value) : Prop := ∃ cs, Template.embed v = .ok cs

/-- Every variable has a value that can be put into a text. -/
def Store.Embeds (store : Store) : Prop :=
  ∀ name v, Table.get? name store = some v → v.Embeds

namespace Template

variable {store : Store} {v w : Value}

/-! ## Templates -/

theorem exists_fillPieces (hstore : Store.Embeds store) (ps : List Piece) :
    ∃ cs, fillPieces store ps = .ok cs := by
  induction ps with
  | nil => exact ⟨[], rfl⟩
  | cons p ps ih =>
    obtain ⟨others, hothers⟩ := ih
    have hfirst : ∃ cs, fillPiece store p = .ok cs := by
      cases p with
      | char c => exact ⟨[c], rfl⟩
      | «variable» name =>
        rw [fillPiece]
        cases hvalue : Table.get? name store with
        | none => exact ⟨_, rfl⟩
        | some v => exact hstore name v hvalue
    obtain ⟨first, hfirst⟩ := hfirst
    refine ⟨first ++ others, ?_⟩
    rw [fillPieces, hfirst, hothers]
    rfl

theorem exists_fill (hstore : Store.Embeds store) (text : String) :
    ∃ filled, fill store text = .ok filled := by
  obtain ⟨cs, hcs⟩ := exists_fillPieces hstore (pieces text)
  refine ⟨String.ofList cs, ?_⟩
  rw [fill, hcs]
  rfl

/-! ## Values -/

/-- The second value is like the first one but for its texts. -/
structure Kept (v w : Value) : Prop where
  depth : w.depth = v.depth
  null : w = .null ↔ v = .null
  writes : ∀ sep, (∃ cs, Json.write sep v = .ok cs) → ∃ cs, Json.write sep w = .ok cs
  exact : Json.Exact v → Json.Exact w

theorem Kept.refl (v : Value) : Kept v v := ⟨rfl, Iff.rfl, fun _ h => h, fun h => h⟩

theorem kept_text (s t : String) : Kept (.text s) (.text t) where
  depth := rfl
  null := by simp
  writes _ _ := ⟨_, rfl⟩
  exact _ := .text t

theorem kept_list {vs ws : List Value} (h : List.Forall₂ Kept vs ws) :
    Kept (.list vs) (.list ws) where
  depth := by
    have hitems : Value.depthItems ws = Value.depthItems vs := by
      induction h with
      | nil => rfl
      | cons hfirst _ ih => rw [Value.depthItems, Value.depthItems, hfirst.depth, ih]
    rw [Value.depth, Value.depth, hitems]
  null := by simp
  writes sep := by
    rw [Json.write_list_ok_iff, Json.write_list_ok_iff]
    induction h with
    | nil => exact id
    | cons hfirst _ ih =>
      rw [List.forall_mem_cons, List.forall_mem_cons]
      exact And.imp (hfirst.writes sep) ih
  exact hlist := by
    cases hlist with
    | list _ parts =>
      refine .list ws ?_
      induction h with
      | nil => exact parts
      | cons hfirst _ ih =>
        rw [List.forall_mem_cons] at parts ⊢
        exact parts.imp hfirst.exact ih

/-- The second entry is under the name of the first one, and like it but for the texts. -/
def KeptEntry (p q : String × Value) : Prop := q.1 = p.1 ∧ Kept p.2 q.2

theorem kept_object {ms ns : Table Value} (h : List.Forall₂ KeptEntry ms ns) :
    Kept (.object ms) (.object ns) where
  depth := by
    have hmembers : Value.depthMembers ns = Value.depthMembers ms := by
      induction h with
      | nil => rfl
      | cons hfirst _ ih => rw [Value.depthMembers, Value.depthMembers, hfirst.2.depth, ih]
    rw [Value.depth, Value.depth, hmembers]
  null := by simp
  writes sep := by
    rw [Json.write_object_ok_iff, Json.write_object_ok_iff]
    induction h with
    | nil => exact id
    | cons hfirst _ ih =>
      rw [List.forall_mem_cons, List.forall_mem_cons]
      exact And.imp (hfirst.2.writes sep) ih
  exact hobject := by
    cases hobject with
    | object _ once parts =>
      have hnames : Table.names ns = Table.names ms := by
        clear once parts
        induction h with
        | nil => rfl
        | cons hfirst _ ih => rw [Table.names_cons, Table.names_cons, hfirst.1, ih]
      refine .object ns (hnames ▸ once) ?_
      clear once hnames
      induction h with
      | nil => exact parts
      | cons hfirst _ ih =>
        rw [List.forall_mem_cons] at parts ⊢
        exact parts.imp hfirst.2.exact ih

mutual

/-- Every value can be filled, and is kept but for its texts. -/
theorem exists_fillValue (hstore : Store.Embeds store) :
    ∀ v, ∃ w, fillValue store v = .ok w ∧ Kept v w
  | .text s => by
    obtain ⟨filled, hfilled⟩ := exists_fill hstore s
    refine ⟨.text filled, ?_, kept_text s filled⟩
    rw [fillValue, hfilled]
    rfl
  | .list items => by
    obtain ⟨filled, hfilled, hkept⟩ := exists_fillItems hstore items
    refine ⟨.list filled, ?_, kept_list hkept⟩
    rw [fillValue, hfilled]
    rfl
  | .object members => by
    obtain ⟨filled, hfilled, hkept⟩ := exists_fillMembers hstore members
    refine ⟨.object filled, ?_, kept_object hkept⟩
    rw [fillValue, hfilled]
    rfl
  | .null => ⟨.null, rfl, .refl _⟩
  | .bool b => ⟨.bool b, rfl, .refl _⟩
  | .int n => ⟨.int n, rfl, .refl _⟩
  | .float x => ⟨.float x, rfl, .refl _⟩

theorem exists_fillItems (hstore : Store.Embeds store) :
    ∀ vs, ∃ ws, fillItems store vs = .ok ws ∧ List.Forall₂ Kept vs ws
  | [] => ⟨[], rfl, .nil⟩
  | v :: vs => by
    obtain ⟨first, hfirst, hkept⟩ := exists_fillValue hstore v
    obtain ⟨others, hothers, hall⟩ := exists_fillItems hstore vs
    refine ⟨first :: others, ?_, .cons hkept hall⟩
    rw [fillItems, hfirst, hothers]
    rfl

theorem exists_fillMembers (hstore : Store.Embeds store) :
    ∀ ms, ∃ ns, fillMembers store ms = .ok ns ∧ List.Forall₂ KeptEntry ms ns
  | [] => ⟨[], rfl, .nil⟩
  | (k, v) :: ms => by
    obtain ⟨entry, hentry, hkept⟩ := exists_fillValue hstore v
    obtain ⟨others, hothers, hall⟩ := exists_fillMembers hstore ms
    refine ⟨(k, entry) :: others, ?_, .cons ⟨rfl, hkept⟩ hall⟩
    rw [fillMembers, hentry, hothers]
    rfl

end

/-- What can be put into a text can be so once it is filled. -/
theorem embeds_fillValue (hstore : Store.Embeds store) (hv : v.Embeds)
    (hfilled : fillValue store v = .ok w) : w.Embeds := by
  obtain ⟨w', hw', hkept⟩ := exists_fillValue hstore v
  obtain rfl : w' = w := Except.ok.inj (hw'.symm.trans hfilled)
  cases v with
  | text s =>
    obtain ⟨filled, -, rfl⟩ := ok_of_map hfilled
    exact ⟨filled.toList, rfl⟩
  | list items =>
    obtain ⟨ws, -, rfl⟩ := ok_of_map hfilled
    exact hkept.writes Json.compact hv
  | object members =>
    obtain ⟨ns, -, rfl⟩ := ok_of_map hfilled
    exact hkept.writes Json.compact hv
  | null | bool | int | float =>
    cases hfilled
    exact hv

end Template

end RestDemo
