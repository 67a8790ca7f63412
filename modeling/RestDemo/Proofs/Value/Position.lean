import Mathlib.Data.List.Perm.Subperm
import RestDemo.Value.Equality

/-!
# Values position by position

A position leads into a value by places in lists and by names in mappings. Two values agree exactly
if they have the same positions and what stands at each is alike: both lists, both mappings, or two
leaves that count as equal (`agrees_iff`). So what there is to know about agreement at any depth is
told by `Alike`, which looks at no parts.
-/

namespace RestDemo

namespace Value

/-- A step into a value: to an item of a list, or to the entry of a mapping under a name. -/
inductive Index where
  | item (n : Nat)
  | entry (name : String)

def child? : Index → Value → Option Value
  | .item n, .list items => items[n]?
  | .entry name, .object members => Table.get? name members
  | _, _ => none

/-- The part of a value at a position, if the position leads anywhere in it. -/
def part? : List Index → Value → Option Value
  | [], v => some v
  | i :: rest, v => (child? i v).bind (part? rest)

variable {v w c d : Value} {i : Index} {position : List Index}

theorem part?_cons_of_some (h : child? i v = some c) (rest : List Index) :
    part? (i :: rest) v = part? rest c := by
  rw [part?, h, Option.bind_some]

theorem part?_cons_of_none (h : child? i v = none) (rest : List Index) :
    part? (i :: rest) v = none := by
  rw [part?, h, Option.bind_none]

theorem part?_append (position rest : List Index) (v : Value) :
    part? (position ++ rest) v = (part? position v).bind (part? rest) := by
  induction position generalizing v with
  | nil => rfl
  | cons i position ih =>
    rw [List.cons_append, part?, part?, Option.bind_assoc]
    exact Option.bind_congr fun c _ => ih c

theorem mem_of_child?_list {items : List Value} (h : child? i (.list items) = some c) :
    c ∈ items := by
  cases i with
  | item n => exact List.mem_of_getElem? h
  | entry name => cases h

theorem mem_of_child?_object {members : Table Value} (h : child? i (.object members) = some c) :
    ∃ name, (name, c) ∈ members := by
  cases i with
  | item n => cases h
  | entry name => exact ⟨name, Table.mem_of_get? h⟩

section Related

variable {α β γ : Type} {R : α → β → Prop} {S : β → γ → Prop}

theorem rel_mono {R' : α → β → Prop} {a : Option α} {b : Option β} (h : Option.Rel R a b)
    (himp : ∀ x y, a = some x → b = some y → R x y → R' x y) : Option.Rel R' a b := by
  cases h with
  | none => exact .none
  | some hxy => exact .some (himp _ _ rfl rfl hxy)

theorem rel_symm {R' : β → α → Prop} {a : Option α} {b : Option β} (h : Option.Rel R a b)
    (himp : ∀ x y, a = some x → b = some y → R x y → R' y x) : Option.Rel R' b a := by
  cases h with
  | none => exact .none
  | some hxy => exact .some (himp _ _ rfl rfl hxy)

theorem rel_trans {T : α → γ → Prop} {a : Option α} {b : Option β} {c : Option γ}
    (h : Option.Rel R a b) (h' : Option.Rel S b c)
    (htrans : ∀ x y z, a = some x → b = some y → c = some z → R x y → S y z → T x z) :
    Option.Rel T a c := by
  cases h with
  | none =>
    cases h' with
    | none => exact .none
  | some hxy =>
    cases h' with
    | some hyz => exact .some (htrans _ _ _ rfl rfl rfl hxy hyz)

end Related

/-- No name comes twice in a mapping, neither in the value itself nor in a part of it. -/
inductive Distinct : Value → Prop where
  | intro {v : Value} (here : ∀ members, v = .object members → (Table.names members).Nodup)
      (parts : ∀ i c, child? i v = some c → Distinct c) : Distinct v

theorem Distinct.here {members : Table Value} (h : Distinct (.object members)) :
    (Table.names members).Nodup := by
  cases h with
  | intro here _ => exact here members rfl

theorem Distinct.child (h : Distinct v) (hchild : child? i v = some c) : Distinct c := by
  cases h with
  | intro _ parts => exact parts i c hchild

theorem Distinct.list {items : List Value} (h : ∀ v ∈ items, Distinct v) :
    Distinct (.list items) :=
  .intro (fun _ => nofun) fun _ c hc => h c (mem_of_child?_list hc)

theorem Distinct.object {members : Table Value} (hnames : (Table.names members).Nodup)
    (h : ∀ p ∈ members, Distinct p.2) : Distinct (.object members) := by
  refine .intro ?_ fun i c hc => ?_
  · rintro _ ⟨⟩
    exact hnames
  · obtain ⟨name, hmem⟩ := mem_of_child?_object hc
    exact h _ hmem

/-! ## What is alike without its parts -/

/-- The values are both null, the same text, both lists or both mappings, or they are numbers or
truth values that count as the same number. -/
inductive Alike : Value → Value → Prop where
  | null : Alike .null .null
  | text (s : String) : Alike (.text s) (.text s)
  | list (vs ws : List Value) : Alike (.list vs) (.list ws)
  | object (ms ns : Table Value) : Alike (.object ms) (.object ns)
  | counts {v w : Value} {a b : Amount} (left : v.count? = some a) (right : w.count? = some b)
      (agree : a.agrees b) : Alike v w

theorem countsAs_iff {a : Amount} :
    countsAs a w ↔ ∃ b, w.count? = some b ∧ a.agrees b := by
  rw [countsAs]
  cases w.count? <;> simp

theorem alike_iff_of_count {a : Amount} (h : v.count? = some a) :
    Alike v w ↔ countsAs a w := by
  rw [countsAs_iff]
  constructor
  · intro halike
    cases halike with
    | counts left right agree =>
      obtain rfl := Option.some.inj (h.symm.trans left)
      exact ⟨_, right, agree⟩
    | _ => cases h
  · rintro ⟨b, hb, hagree⟩
    exact .counts h hb hagree

/-- What counts as a number is alike only to what does, and has no parts. -/
theorem child?_of_count {a : Amount} (h : v.count? = some a) (i : Index) : child? i v = none := by
  cases v with
  | list items => cases h
  | object members => cases h
  | _ => cases i <;> rfl

theorem Distinct.of_count {a : Amount} (h : v.count? = some a) : Distinct v := by
  refine .intro ?_ fun i c hc => ?_
  · rintro members rfl
    cases h
  · rw [child?_of_count h] at hc
    cases hc

theorem agrees_of_count {a : Amount} (h : v.count? = some a) : agrees v w = countsAs a w := by
  cases v with
  | bool b =>
    cases h
    rfl
  | int n =>
    cases h
    rfl
  | float x =>
    cases h
    rfl
  | _ => cases h

theorem alike_iff_eq_of_null : Alike .null w ↔ w = .null := by
  constructor
  · rintro ⟨⟩
    · rfl
    · contradiction
  · rintro rfl
    exact .null

theorem alike_iff_eq_of_text {s : String} : Alike (.text s) w ↔ w = .text s := by
  constructor
  · rintro ⟨⟩
    · rfl
    · contradiction
  · rintro rfl
    exact .text s

theorem alike_list_iff {vs : List Value} : Alike (.list vs) w ↔ ∃ ws, w = .list ws := by
  constructor
  · rintro ⟨⟩
    · exact ⟨_, rfl⟩
    · contradiction
  · rintro ⟨ws, rfl⟩
    exact .list vs ws

theorem alike_object_iff {ms : Table Value} : Alike (.object ms) w ↔ ∃ ns, w = .object ns := by
  constructor
  · rintro ⟨⟩
    · exact ⟨_, rfl⟩
    · contradiction
  · rintro ⟨ns, rfl⟩
    exact .object ms ns

/-! ## Agreement by one step -/

theorem agreesItems_iff {vs ws : List Value} :
    agreesItems vs ws ↔ ∀ n : Nat, Option.Rel (fun v w => agrees v w) vs[n]? ws[n]? := by
  induction vs generalizing ws with
  | nil =>
    cases ws with
    | nil => simp [agreesItems]
    | cons w ws =>
      refine iff_of_false (fun h => nomatch h) fun h => ?_
      cases h 0
  | cons v vs ih =>
    cases ws with
    | nil =>
      refine iff_of_false (fun h => nomatch h) fun h => ?_
      cases h 0
    | cons w ws =>
      rw [agreesItems, Bool.and_eq_true, ih]
      constructor
      · rintro ⟨hfirst, hrest⟩ n
        cases n with
        | zero => exact .some hfirst
        | succ n => exact hrest n
      · intro h
        refine ⟨?_, fun n => h (n + 1)⟩
        cases h 0 with
        | some hfirst => exact hfirst

theorem agreesMembers_iff {ms ns : Table Value} :
    agreesMembers ms ns ↔ ∀ p ∈ ms, ∃ w, Table.get? p.1 ns = some w ∧ agrees p.2 w := by
  induction ms with
  | nil => simp [agreesMembers]
  | cons p ms ih =>
    obtain ⟨k, v⟩ := p
    rw [agreesMembers, Bool.and_eq_true, ih, List.forall_mem_cons]
    refine and_congr ?_ Iff.rfl
    cases Table.get? k ns <;> simp

/-- A table that has all names of another one of the same size has no others. -/
theorem mem_names_of_length {ms ns : Table Value} (hms : (Table.names ms).Nodup)
    (hlength : ms.length = ns.length) (hsub : ∀ name ∈ Table.names ms, name ∈ Table.names ns)
    {name : String} (h : name ∈ Table.names ns) : name ∈ Table.names ms := by
  have hle : (Table.names ns).length ≤ (Table.names ms).length := by
    rw [Table.names, Table.names, List.length_map, List.length_map]
    exact Nat.le_of_eq hlength.symm
  exact ((List.subperm_of_subset hms hsub).perm_of_length_le hle).mem_iff.2 h

theorem agrees_object_iff {ms ns : Table Value} (hms : (Table.names ms).Nodup)
    (hns : (Table.names ns).Nodup) : agrees (.object ms) (.object ns) ↔
      ∀ name, Option.Rel (fun v w => agrees v w) (Table.get? name ms) (Table.get? name ns) := by
  rw [agrees, Bool.and_eq_true, beq_iff_eq, agreesMembers_iff]
  constructor
  · rintro ⟨hlength, hentries⟩ name
    cases hv : Table.get? name ms with
    | some v =>
      obtain ⟨w, hw, hagrees⟩ := hentries _ (Table.mem_of_get? hv)
      rw [hw]
      exact .some hagrees
    | none =>
      -- A name of the second mapping alone would make it longer.
      have hsub : ∀ name ∈ Table.names ms, name ∈ Table.names ns := by
        intro name hname
        obtain ⟨p, hp, rfl⟩ := List.mem_map.1 hname
        obtain ⟨w, hw, -⟩ := hentries p hp
        exact List.mem_map.2 ⟨_, Table.mem_of_get? hw, rfl⟩
      have hnone : Table.get? name ns = none := by
        rw [Table.get?_eq_none_iff] at hv ⊢
        exact fun hname => hv (mem_names_of_length hms hlength hsub hname)
      rw [hnone]
      exact .none
  · intro h
    have hnames : ∀ name, name ∈ Table.names ms ↔ name ∈ Table.names ns := by
      intro name
      have hname := h name
      rw [← not_iff_not, ← Table.get?_eq_none_iff, ← Table.get?_eq_none_iff]
      cases hv : Table.get? name ms <;> cases hw : Table.get? name ns <;> simp_all
    constructor
    · have hperm := (List.perm_ext_iff_of_nodup hms hns).2 hnames
      simpa [Table.names] using hperm.length_eq
    · rintro ⟨name, v⟩ hp
      have hname := h name
      rw [Table.get?_of_mem hms hp] at hname
      cases hw : Table.get? name ns with
      | none =>
        rw [hw] at hname
        cases hname
      | some w =>
        rw [hw] at hname
        cases hname with
        | some hagrees => exact ⟨w, rfl, hagrees⟩

/-- Values agree if they are alike and their parts, one step down, agree. -/
theorem agrees_step (hv : Distinct v) (hw : Distinct w) : agrees v w ↔
    Alike v w ∧ ∀ i, Option.Rel (fun v w => agrees v w) (child? i v) (child? i w) := by
  by_cases hcount : ∃ a, v.count? = some a
  · obtain ⟨a, ha⟩ := hcount
    rw [agrees_of_count ha, ← alike_iff_of_count ha]
    refine (and_iff_left_of_imp fun halike i => ?_).symm
    cases halike with
    | counts left right _ =>
      rw [child?_of_count left, child?_of_count right]
      exact .none
    | _ => cases ha
  · rw [not_exists] at hcount
    cases v with
    | null =>
      rw [alike_iff_eq_of_null]
      cases w <;> simp [agrees, child?]
    | text s =>
      rw [alike_iff_eq_of_text]
      cases w with
      | text t => simp [agrees, child?, @eq_comm _ s t]
      | _ => simp [agrees]
    | list vs =>
      rw [alike_list_iff]
      cases w with
      | list ws =>
        rw [agrees, agreesItems_iff]
        refine ⟨fun h => ⟨⟨ws, rfl⟩, fun i => ?_⟩, fun h n => h.2 (.item n)⟩
        cases i with
        | item n => exact h n
        | entry name => exact .none
      | _ => simp [agrees]
    | object ms =>
      rw [alike_object_iff]
      cases w with
      | object ns =>
        rw [agrees_object_iff hv.here hw.here]
        refine ⟨fun h => ⟨⟨ns, rfl⟩, fun i => ?_⟩, fun h name => h.2 (.entry name)⟩
        cases i with
        | item n => exact .none
        | entry name => exact h name
      | _ => simp [agrees]
    | bool b => exact absurd rfl (hcount _)
    | int n => exact absurd rfl (hcount _)
    | float x => exact absurd rfl (hcount _)

/-! ## Agreement at all positions -/

/-- Values agree exactly if they have the same positions, and what stands there is alike. -/
theorem agrees_iff (hv : Distinct v) (hw : Distinct w) :
    agrees v w ↔ ∀ position, Option.Rel Alike (part? position v) (part? position w) := by
  -- Along the parts of the first value; a part that only one of the two has settles it here.
  induction hv generalizing w with
  | @intro v here parts ih =>
    rw [agrees_step (.intro here parts) hw]
    constructor
    · rintro ⟨halike, hchildren⟩ position
      cases position with
      | nil => exact .some halike
      | cons i rest =>
        have hi := hchildren i
        cases hc : child? i v with
        | none =>
          cases hd : child? i w with
          | none =>
            rw [part?_cons_of_none hc, part?_cons_of_none hd]
            exact .none
          | some d =>
            rw [hc, hd] at hi
            cases hi
        | some c =>
          cases hd : child? i w with
          | none =>
            rw [hc, hd] at hi
            cases hi
          | some d =>
            rw [hc, hd, Option.rel_some_some] at hi
            rw [part?_cons_of_some hc, part?_cons_of_some hd]
            exact (ih i c hc (hw.child hd)).1 hi rest
    · intro h
      refine ⟨Option.rel_some_some.1 (h []), fun i => ?_⟩
      have hi (rest : List Index) := h (i :: rest)
      cases hc : child? i v with
      | none =>
        cases hd : child? i w with
        | none => exact .none
        | some d =>
          have hhere := hi []
          rw [part?_cons_of_none hc, part?_cons_of_some hd] at hhere
          cases hhere
      | some c =>
        cases hd : child? i w with
        | none =>
          have hhere := hi []
          rw [part?_cons_of_some hc, part?_cons_of_none hd] at hhere
          cases hhere
        | some d =>
          simp only [part?_cons_of_some hc, part?_cons_of_some hd] at hi
          exact .some ((ih i c hc (hw.child hd)).2 hi)

end Value

end RestDemo
