import RestDemo.Proofs.Value.Reordered

/-!
# The comparison of conditions

The comparison looks at the kinds of two values before it looks at their parts, and within lists and
mappings it is the looser agreement of values. So equal values have the same positions, and the
kinds there are the same except that, below the top, a truth value may stand beside the number that
it counts as (`strictlyEqual_kinds`).
-/

namespace RestDemo

namespace Amount

theorem agrees_of_equal {a b : Amount} (h : a.equal b) : a.agrees b := by
  cases a with
  | int m => exact h
  | float x =>
    cases b with
    | int n => exact h
    | float y => exact Bool.or_eq_true_iff.2 (.inl h)

theorem agrees_int_iff {m n : Int} : (int m).agrees (int n) ↔ m = n := by
  simp [agrees, equal]

/-- No two truth values count as the same number. -/
theorem eq_of_agrees {b b' : Bool}
    (h : (int (if b then 1 else 0)).agrees (int (if b' then 1 else 0))) : b = b' := by
  cases b <;> cases b' <;> first | rfl | exact absurd h (by decide)

theorem agrees_int_comm {n : Int} {a : Amount} : a.agrees (int n) = (int n).agrees a := by
  cases a with
  | int m => simp [agrees, equal, Bool.beq_comm]
  | float x => rfl

end Amount

namespace Value

variable {v w : Value}

/-! ## Kinds -/

/-- The kinds of values. Integers and floating-point numbers are of one kind. -/
inductive Kind where
  | null
  | truth
  | number
  | text
  | list
  | mapping
  deriving DecidableEq, Repr

def kind : Value → Kind
  | null => .null
  | bool _ => .truth
  | int _ => .number
  | float _ => .number
  | text _ => .text
  | list _ => .list
  | object _ => .mapping

/-- The number that a truth value counts as. -/
inductive CountsFor : Bool → Value → Prop where
  | int (b : Bool) : CountsFor b (.int (if b then 1 else 0))
  | float {b : Bool} {x : Float} (whole : Number.whole? x = some (if b then 1 else 0)) :
    CountsFor b (.float x)

/-- One of the values is a truth value, and the other one is the number that it counts as. -/
inductive Confused : Value → Value → Prop where
  | left {b : Bool} {v : Value} (counts : CountsFor b v) : Confused (.bool b) v
  | right {b : Bool} {v : Value} (counts : CountsFor b v) : Confused v (.bool b)

/-- The values are of one kind, and a truth value stands only beside the same truth value. -/
structure SameKind (v w : Value) : Prop where
  kind : v.kind = w.kind
  truth : ∀ b, v = .bool b ↔ w = .bool b

theorem CountsFor.kind {b : Bool} (h : CountsFor b v) : v.kind = .number := by
  cases h <;> rfl

theorem Confused.not_sameKind (h : Confused v w) : ¬ SameKind v w := by
  intro hsame
  have hkind := hsame.kind
  cases h with
  | left counts => cases hkind.trans counts.kind
  | right counts => cases counts.kind.symm.trans hkind

theorem sameKind_of_ne_bool (hkind : v.kind = w.kind) (hv : ∀ b, v ≠ .bool b)
    (hw : ∀ b, w ≠ .bool b) : SameKind v w :=
  ⟨hkind, fun b => iff_of_false (hv b) (hw b)⟩

/-- A number that agrees with a truth value is the one that it counts as. -/
theorem countsFor_of_agrees {b : Bool} {a : Amount} (hv : v.amount? = some a)
    (h : Amount.agrees (.int (if b then 1 else 0)) a) : CountsFor b v := by
  cases v with
  | int n =>
    cases hv
    obtain rfl : (if b then 1 else 0) = n := by simpa [Amount.agrees, Amount.equal] using h
    exact .int b
  | float x =>
    cases hv
    exact .float (by simpa [Amount.agrees, Amount.equal] using h)
  | _ => cases hv

/-- What counts as a number is a truth value or a number. -/
theorem eq_bool_or_amount {a : Amount} (h : v.count? = some a) :
    (∃ b, v = .bool b ∧ a = .int (if b then 1 else 0)) ∨
      v.amount? = some a ∧ v.kind = .number ∧ ∀ b, v ≠ .bool b := by
  cases v with
  | bool b =>
    cases h
    exact .inl ⟨b, rfl, rfl⟩
  | int n => exact .inr ⟨h, rfl, fun b => nofun⟩
  | float x => exact .inr ⟨h, rfl, fun b => nofun⟩
  | _ => cases h

/-- What is alike is of one kind, but for a truth value beside its number. -/
theorem Alike.kinds (h : Alike v w) : SameKind v w ∨ Confused v w := by
  cases h with
  | null => exact .inl (sameKind_of_ne_bool rfl (fun _ => nofun) (fun _ => nofun))
  | text s => exact .inl (sameKind_of_ne_bool rfl (fun _ => nofun) (fun _ => nofun))
  | list vs ws => exact .inl (sameKind_of_ne_bool rfl (fun _ => nofun) (fun _ => nofun))
  | object ms ns => exact .inl (sameKind_of_ne_bool rfl (fun _ => nofun) (fun _ => nofun))
  | counts left right agree =>
    rcases eq_bool_or_amount left with ⟨b, rfl, rfl⟩ | ⟨hv, hvkind, hvbool⟩
    · rcases eq_bool_or_amount right with ⟨b', rfl, rfl⟩ | ⟨hw, -, -⟩
      · obtain rfl := Amount.eq_of_agrees agree
        exact .inl ⟨rfl, fun _ => Iff.rfl⟩
      · exact .inr (.left (countsFor_of_agrees hw agree))
    · rcases eq_bool_or_amount right with ⟨b, rfl, rfl⟩ | ⟨-, hwkind, hwbool⟩
      · rw [Amount.agrees_int_comm] at agree
        exact .inr (.right (countsFor_of_agrees hv agree))
      · exact .inl (sameKind_of_ne_bool (hvkind.trans hwkind.symm) hvbool hwbool)

/-! ## Equality and agreement -/

theorem equal_eq_agrees (h : v.count? = none) : v.equal w = v.agrees w := by
  cases v with
  | null => cases w <;> simp [equal, agrees, amount?]
  | text s => cases w <;> simp [equal, agrees, amount?]
  | list vs => cases w <;> simp [equal, agrees, amount?]
  | object ms => cases w <;> simp [equal, agrees, amount?]
  | bool b => cases h
  | int n => cases h
  | float x => cases h

/-- Numbers are equal to nothing but numbers. -/
theorem equal_amount_iff {a : Amount} (ha : v.amount? = some a) :
    v.equal w ↔ ∃ b, w.amount? = some b ∧ a.equal b := by
  cases v with
  | int n =>
    cases ha
    cases w <;> simp [equal, amount?]
  | float x =>
    cases ha
    cases w <;> simp [equal, amount?]
  | _ => cases ha

theorem equal_bool_iff {b : Bool} : (bool b).equal w ↔ w = .bool b := by
  cases w with
  | bool b' => simp [equal, @eq_comm _ b b']
  | _ => simp [equal, amount?]

theorem count?_of_amount? {a : Amount} (h : v.amount? = some a) : v.count? = some a := by
  cases v with
  | int n => exact h
  | float x => exact h
  | _ => cases h

theorem kind_of_amount? {a : Amount} (h : v.amount? = some a) : v.kind = .number := by
  cases v with
  | int n => rfl
  | float x => rfl
  | _ => cases h

/-- Equal values agree. -/
theorem agrees_of_equal (h : v.equal w) : v.agrees w := by
  cases hcount : v.count? with
  | none => rwa [← equal_eq_agrees hcount]
  | some a =>
    rw [agrees_of_count hcount, countsAs_iff]
    rcases eq_bool_or_amount hcount with ⟨b, rfl, rfl⟩ | ⟨ha, -, -⟩
    · rw [equal_bool_iff.1 h]
      exact ⟨_, rfl, by cases b <;> rfl⟩
    · obtain ⟨b, hb, hequal⟩ := (equal_amount_iff ha).1 h
      exact ⟨b, count?_of_amount? hb, Amount.agrees_of_equal hequal⟩

theorem kind_of_equal (h : v.equal w) : v.kind = w.kind := by
  cases hcount : v.count? with
  | none =>
    rw [equal_eq_agrees hcount] at h
    cases v with
    | null => cases w <;> first | rfl | cases h
    | text s => cases w <;> first | rfl | cases h
    | list vs => cases w <;> first | rfl | cases h
    | object ms => cases w <;> first | rfl | cases h
    | _ => cases hcount
  | some a =>
    rcases eq_bool_or_amount hcount with ⟨b, rfl, rfl⟩ | ⟨ha, hkind, -⟩
    · rw [equal_bool_iff.1 h]
    · obtain ⟨b, hb, -⟩ := (equal_amount_iff ha).1 h
      rw [hkind, kind_of_amount? hb]

theorem not_confused_of_equal (h : v.equal w) : ¬ Confused v w := by
  intro hconfused
  have hkind := kind_of_equal h
  cases hconfused with
  | left counts => cases hkind.trans counts.kind
  | right counts => cases counts.kind.symm.trans hkind

/-- Equal values have the same positions, and the kinds there are the same, except that below the
top a truth value may stand beside its number: the kinds are the same throughout exactly if it
does so nowhere. -/
theorem strictlyEqual_kinds (hv : Distinct v) (hw : Distinct w)
    (h : strictlyEqual (some v) (some w) = true) :
    (∀ position, Option.Rel (fun a b => SameKind a b ∨ position ≠ [] ∧ Confused a b)
      (part? position v) (part? position w)) ∧
    ((∀ position, Option.Rel SameKind (part? position v) (part? position w)) ↔
      ∀ position a b, part? position v = some a → part? position w = some b →
        ¬ Confused a b) := by
  have halike := (agrees_iff hv hw).1 (agrees_of_equal h)
  refine ⟨fun position => rel_mono (halike position) ?_, ?_, ?_⟩
  · intro a b ha hb hab
    rcases hab.kinds with hsame | hconfused
    · exact .inl hsame
    · -- The kinds of the values themselves have been looked at.
      refine .inr ⟨?_, hconfused⟩
      rintro rfl
      cases ha
      cases hb
      exact not_confused_of_equal h hconfused
  · intro hsame position a b ha hb hconfused
    have hab := hsame position
    rw [ha, hb, Option.rel_some_some] at hab
    exact hconfused.not_sameKind hab
  · intro hnot position
    exact rel_mono (halike position) fun a b ha hb hab =>
      hab.kinds.resolve_right (hnot position a b ha hb)

theorem strictlyEqual_kinds_nested :
    (∀ position, Option.Rel (fun a b => SameKind a b ∨ position ≠ [] ∧ Confused a b)
      (part? position (.object [("done", .list [.bool true]), ("n", .int 3)]))
      (part? position (.object [("n", .int 3), ("done", .list [.int 1])]))) ∧
    ¬ ∀ position, Option.Rel SameKind
      (part? position (.object [("done", .list [.bool true]), ("n", .int 3)]))
      (part? position (.object [("n", .int 3), ("done", .list [.int 1])])) := by
  have hleaf {c : Value} {a : Amount} (h : c.count? = some a) : ∀ d ∈ [c], Distinct d :=
    List.forall_mem_singleton.2 (.of_count h)
  have hv : Distinct (.object [("done", .list [.bool true]), ("n", .int 3)]) :=
    .object (by decide) (List.forall_mem_cons.2
      ⟨.list (hleaf rfl), List.forall_mem_singleton.2 (.of_count rfl)⟩)
  have hw : Distinct (.object [("n", .int 3), ("done", .list [.int 1])]) :=
    .object (by decide) (List.forall_mem_cons.2
      ⟨.of_count rfl, List.forall_mem_singleton.2 (.list (hleaf rfl))⟩)
  have h := strictlyEqual_kinds hv hw (by decide)
  refine ⟨h.1, fun hsame => ?_⟩
  exact h.2.1 hsame [.entry "done", .item 0] (.bool true) (.int 1) rfl rfl (.left (.int true))

/-- A truth value in a list is equal to its number. -/
theorem strictlyEqual_truth_in_list :
    strictlyEqual (some (.list [.bool true])) (some (.list [.int 1])) = true ∧
    ¬ Option.Rel SameKind (part? [.item 0] (.list [.bool true]))
      (part? [.item 0] (.list [.int 1])) := by
  refine ⟨by decide, fun hrel => ?_⟩
  have hsame : SameKind (.bool true) (.int 1) := Option.rel_some_some.1 hrel
  cases hsame.kind

end Value

end RestDemo
