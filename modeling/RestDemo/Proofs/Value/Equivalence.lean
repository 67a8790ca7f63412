import RestDemo.Proofs.Value.Equality

/-!
# The comparison as an equivalence

Among values without floating-point numbers, being alike is an equivalence, and so are agreement,
which is being alike at every position, and equality, which is agreement of values of one kind
(`equal_iff`). Floating-point numbers are left out because one that is not a number is not equal to
itself, and how two others compare is up to the machine. The order of the entries of mappings makes
no difference to any comparison, with such numbers or without them (`strictlyEqual_equivalence`).
-/

namespace RestDemo

namespace Value

variable {u v v' w w' : Value}

/-- No floating-point number is at any position. -/
def FloatFree (v : Value) : Prop :=
  ∀ position x, part? position v ≠ some (.float x)

theorem FloatFree.ne_float (h : FloatFree v) (x : Float) : v ≠ .float x := by
  rintro rfl
  exact h [] x rfl

theorem FloatFree.intro (hv : ∀ x, v ≠ .float x)
    (parts : ∀ i c, child? i v = some c → FloatFree c) : FloatFree v := by
  intro position x h
  cases position with
  | nil => exact hv x (Option.some.inj h)
  | cons i rest =>
    cases hc : child? i v with
    | none =>
      rw [part?_cons_of_none hc] at h
      cases h
    | some c =>
      rw [part?_cons_of_some hc] at h
      exact parts i c hc rest x h

theorem FloatFree.list {items : List Value} (h : ∀ v ∈ items, FloatFree v) :
    FloatFree (.list items) :=
  .intro (fun _ => nofun) fun _ c hc => h c (mem_of_child?_list hc)

theorem FloatFree.object {members : Table Value} (h : ∀ p ∈ members, FloatFree p.2) :
    FloatFree (.object members) := by
  refine .intro (fun _ => nofun) fun i c hc => ?_
  obtain ⟨name, hmem⟩ := mem_of_child?_object hc
  exact h _ hmem

theorem FloatFree.of_count {n : Int} (h : v.count? = some (.int n)) : FloatFree v := by
  refine .intro ?_ fun i c hc => ?_
  · rintro x rfl
    cases h
  · rw [child?_of_count h] at hc
    cases hc

/-! ## Being alike -/

theorem eq_int_of_count (hv : ∀ x, v ≠ .float x) {a : Amount} (h : v.count? = some a) :
    ∃ n, a = .int n := by
  cases v with
  | bool b => exact ⟨_, (Option.some.inj h).symm⟩
  | int n => exact ⟨n, (Option.some.inj h).symm⟩
  | float x => exact absurd rfl (hv x)
  | _ => cases h

theorem Alike.refl (hv : ∀ x, v ≠ .float x) : Alike v v := by
  cases v with
  | null => exact .null
  | text s => exact .text s
  | list vs => exact .list vs vs
  | object ms => exact .object ms ms
  | bool b => exact .counts rfl rfl (Amount.agrees_int_iff.2 rfl)
  | int n => exact .counts rfl rfl (Amount.agrees_int_iff.2 rfl)
  | float x => exact absurd rfl (hv x)

theorem Alike.symm (hv : ∀ x, v ≠ .float x) (h : Alike v w) : Alike w v := by
  cases h with
  | null => exact .null
  | text s => exact .text s
  | list vs ws => exact .list ws vs
  | object ms ns => exact .object ns ms
  | counts left right agree =>
    obtain ⟨n, rfl⟩ := eq_int_of_count hv left
    exact .counts right left (Amount.agrees_int_comm.trans agree)

theorem Alike.trans (hu : ∀ x, u ≠ .float x) (hv : ∀ x, v ≠ .float x) (h : Alike u v)
    (h' : Alike v w) : Alike u w := by
  cases h with
  | null => exact h'
  | text s => exact h'
  | list us vs => exact alike_list_iff.2 (alike_list_iff.1 h')
  | object ls ms => exact alike_object_iff.2 (alike_object_iff.1 h')
  | counts left right agree =>
    obtain ⟨m, rfl⟩ := eq_int_of_count hu left
    obtain ⟨n, rfl⟩ := eq_int_of_count hv right
    obtain rfl := Amount.agrees_int_iff.1 agree
    rw [alike_iff_of_count right] at h'
    exact (alike_iff_of_count left).2 h'

/-! ## Agreement -/

theorem agrees_refl (hv : Distinct v) (hf : FloatFree v) : agrees v v := by
  rw [agrees_iff hv hv]
  intro position
  cases hc : part? position v with
  | none => exact .none
  | some c => exact .some (.refl fun x hx => hf position x (hx ▸ hc))

theorem agrees_symm (hv : Distinct v) (hw : Distinct w) (hf : FloatFree v) (h : agrees v w) :
    agrees w v := by
  rw [agrees_iff hw hv]
  rw [agrees_iff hv hw] at h
  exact fun position => rel_symm (h position) fun c d hc _ hcd =>
    hcd.symm fun x hx => hf position x (hx ▸ hc)

theorem agrees_trans (hu : Distinct u) (hv : Distinct v) (hw : Distinct w) (hfu : FloatFree u)
    (hfv : FloatFree v) (h : agrees u v) (h' : agrees v w) : agrees u w := by
  rw [agrees_iff hu hw]
  rw [agrees_iff hu hv] at h
  rw [agrees_iff hv hw] at h'
  refine fun position => rel_trans (h position) (h' position) fun b c d hb hc _ hbc hcd => ?_
  exact hbc.trans (fun x hx => hfu position x (hx ▸ hb)) (fun x hx => hfv position x (hx ▸ hc)) hcd

/-! ## Equality -/

/-- Equality is agreement of values of one kind. -/
theorem equal_iff (hv : ∀ x, v ≠ .float x) : v.equal w ↔ v.kind = w.kind ∧ v.agrees w := by
  refine ⟨fun h => ⟨kind_of_equal h, agrees_of_equal h⟩, ?_⟩
  rintro ⟨hkind, hagrees⟩
  cases hcount : v.count? with
  | none => rwa [equal_eq_agrees hcount]
  | some a =>
    rw [agrees_of_count hcount, countsAs_iff] at hagrees
    obtain ⟨a', hcount', hagree⟩ := hagrees
    rcases eq_bool_or_amount hcount with ⟨b, rfl, rfl⟩ | ⟨ha, hnumber, -⟩
    · rcases eq_bool_or_amount hcount' with ⟨b', rfl, rfl⟩ | ⟨-, hnumber', -⟩
      · rw [equal_bool_iff, Amount.eq_of_agrees hagree]
      · cases hkind.trans hnumber'
    · rcases eq_bool_or_amount hcount' with ⟨b', rfl, -⟩ | ⟨ha', -, -⟩
      · cases hnumber.symm.trans hkind
      · obtain ⟨n, rfl⟩ := eq_int_of_count hv hcount
        exact (equal_amount_iff ha).2 ⟨a', ha', hagree⟩

theorem equal_refl (hv : Distinct v) (hf : FloatFree v) : v.equal v :=
  (equal_iff hf.ne_float).2 ⟨rfl, agrees_refl hv hf⟩

theorem equal_symm (hv : Distinct v) (hw : Distinct w) (hfv : FloatFree v) (hfw : FloatFree w)
    (h : v.equal w) : w.equal v := by
  obtain ⟨hkind, hagrees⟩ := (equal_iff hfv.ne_float).1 h
  exact (equal_iff hfw.ne_float).2 ⟨hkind.symm, agrees_symm hv hw hfv hagrees⟩

theorem equal_trans (hu : Distinct u) (hv : Distinct v) (hw : Distinct w) (hfu : FloatFree u)
    (hfv : FloatFree v) (h : u.equal v) (h' : v.equal w) : u.equal w := by
  obtain ⟨hkind, hagrees⟩ := (equal_iff hfu.ne_float).1 h
  obtain ⟨hkind', hagrees'⟩ := (equal_iff hfv.ne_float).1 h'
  exact (equal_iff hfu.ne_float).2
    ⟨hkind.trans hkind', agrees_trans hu hv hw hfu hfv hagrees hagrees'⟩

/-! ## Entries in another order -/

theorem not_equal_of_count {a : Amount} (hv : v.count? = some a) (hw : w.count? = none) :
    v.equal w = false := by
  rw [Bool.eq_false_iff]
  intro h
  have hagrees := agrees_of_equal h
  rw [agrees_of_count hv, countsAs_iff, hw] at hagrees
  obtain ⟨b, hb, -⟩ := hagrees
  cases hb

theorem equal_congr (hv : Distinct v) (hw : Distinct w) (h : Reordered v v')
    (h' : Reordered w w') : v.equal w = v'.equal w' := by
  cases hcount : v.count? with
  | none =>
    have hcount' : v'.count? = none := by rw [← count?_outline, ← h.outline, count?_outline, hcount]
    rw [equal_eq_agrees hcount, equal_eq_agrees hcount', agrees_congr hv hw h h']
  | some a =>
    -- A number or truth value has no parts to reorder.
    obtain rfl := eq_of_outline hcount h.outline
    cases hw' : w.count? with
    | none =>
      have hcount' : w'.count? = none := by rw [← count?_outline, ← h'.outline, count?_outline, hw']
      rw [not_equal_of_count hcount hw', not_equal_of_count hcount hcount']
    | some b => rw [eq_of_outline hw' h'.outline]

/-! ## The comparison -/

/-- Absent, or a value in which no name of a mapping comes twice. -/
def Comparand (a : Option Value) : Prop :=
  ∀ v, a = some v → Distinct v

/-- Absent, or such a value without floating-point numbers. -/
def Exact (a : Option Value) : Prop :=
  ∀ v, a = some v → Distinct v ∧ FloatFree v

theorem strictlyEqual_none_iff {a : Option Value} : strictlyEqual a none = true ↔ a = none := by
  cases a <;> simp [strictlyEqual]

theorem strictlyEqual_none_left_iff {a : Option Value} :
    strictlyEqual none a = true ↔ a = none := by
  cases a <;> simp [strictlyEqual]

theorem strictlyEqual_refl {a : Option Value} (ha : Exact a) : strictlyEqual a a = true := by
  cases a with
  | none => rfl
  | some v => exact equal_refl (ha v rfl).1 (ha v rfl).2

theorem strictlyEqual_symm {a b : Option Value} (ha : Exact a) (hb : Exact b)
    (h : strictlyEqual a b = true) : strictlyEqual b a = true := by
  cases a with
  | none => rw [strictlyEqual_none_left_iff.1 h, strictlyEqual]
  | some v =>
    cases b with
    | none => cases h
    | some w => exact equal_symm (ha v rfl).1 (hb w rfl).1 (ha v rfl).2 (hb w rfl).2 h

theorem strictlyEqual_trans {a b c : Option Value} (ha : Exact a) (hb : Exact b) (hc : Exact c)
    (h : strictlyEqual a b = true) (h' : strictlyEqual b c = true) : strictlyEqual a c = true := by
  cases a with
  | none => rwa [strictlyEqual_none_left_iff.1 h] at h'
  | some v =>
    cases b with
    | none => cases h
    | some w =>
      cases c with
      | none => cases h'
      | some u =>
        obtain ⟨hv, hfv⟩ := ha v rfl
        obtain ⟨hw, hfw⟩ := hb w rfl
        exact equal_trans hv hw (hc u rfl).1 hfv hfw h h'

theorem strictlyEqual_reordered {b : Option Value} (hv : Distinct v) (hb : Comparand b)
    (h : Reordered v w) : strictlyEqual (some v) b = strictlyEqual (some w) b ∧
      strictlyEqual b (some v) = strictlyEqual b (some w) := by
  cases b with
  | none => exact ⟨rfl, rfl⟩
  | some u => exact ⟨equal_congr hv (hb u rfl) h (.refl u), equal_congr (hb u rfl) hv (.refl u) h⟩

/-- Without floating-point numbers the comparison is an equivalence; the order of the entries of
mappings, at any depth, makes no difference to it on either side; and only what is absent is equal
to what is absent. -/
theorem strictlyEqual_equivalence :
    Equivalence (fun a b : {a // Exact a} => strictlyEqual a.1 b.1 = true) ∧
    (∀ v w b, Distinct v → Reordered v w → Comparand b →
      strictlyEqual (some v) b = strictlyEqual (some w) b ∧
      strictlyEqual b (some v) = strictlyEqual b (some w)) ∧
    ∀ a, (strictlyEqual a none = true ↔ a = none) ∧ (strictlyEqual none a = true ↔ a = none) := by
  refine ⟨⟨?_, ?_, ?_⟩, ?_, ?_⟩
  · intro a
    exact strictlyEqual_refl a.2
  · intro a b
    exact strictlyEqual_symm a.2 b.2
  · intro a b c
    exact strictlyEqual_trans a.2 b.2 c.2
  · intro v w b hv hvw hb
    exact strictlyEqual_reordered hv hb hvw
  · intro a
    exact ⟨strictlyEqual_none_iff, strictlyEqual_none_left_iff⟩

theorem strictlyEqual_equivalence_swapped :
    strictlyEqual (some (.list [.object [("a", .int 1), ("b", .bool true)]]))
      (some (.list [.object [("b", .bool true), ("a", .int 1)]])) = true := by
  have hswap : Reordered (.list [.object [("a", .int 1), ("b", .bool true)]])
      (.list [.object [("b", .bool true), ("a", .int 1)]]) :=
    .item [] [] (.entries (.swap _ _ _))
  have hv : Distinct (.list [.object [("a", .int 1), ("b", .bool true)]]) :=
    .list (List.forall_mem_singleton.2 (.object (by decide) (List.forall_mem_cons.2
      ⟨.of_count rfl, List.forall_mem_singleton.2 (.of_count rfl)⟩)))
  have hf : FloatFree (.list [.object [("a", .int 1), ("b", .bool true)]]) :=
    .list (List.forall_mem_singleton.2 (.object (List.forall_mem_cons.2
      ⟨.of_count rfl, List.forall_mem_singleton.2 (.of_count rfl)⟩)))
  have hexact : Exact (some (.list [.object [("a", .int 1), ("b", .bool true)]])) := by
    rintro _ ⟨⟩
    exact ⟨hv, hf⟩
  have hcomparand : Comparand (some (.list [.object [("a", .int 1), ("b", .bool true)]])) := by
    rintro _ ⟨⟩
    exact hv
  obtain ⟨hequivalence, hreordered, -⟩ := strictlyEqual_equivalence
  have hsame := (hreordered _ _ _ hv hswap hcomparand).2
  exact hsame.symm.trans (hequivalence.refl ⟨_, hexact⟩)

end Value

end RestDemo
