import RestDemo.Proofs.Value.Position

/-!
# Mappings in another order

A value in which entries of mappings, at any depth, stand in another order. It has the same
positions, and what stands at each of them differs in its parts only (`outlines_of_reordered`).
Agreement looks at nothing else (`agrees_iff_outlines`), so it does not tell the two apart
(`agrees_congr`).
-/

namespace RestDemo

namespace Value

variable {u v v' w w' c : Value} {i : Index} {position : List Index}

/-- The first value with the entries of its mappings, at any depth, put in another order. -/
inductive Reordered : Value → Value → Prop where
  | refl (v : Value) : Reordered v v
  | trans {u v w : Value} (first : Reordered u v) (second : Reordered v w) : Reordered u w
  | entries {ms ns : Table Value} (perm : ms.Perm ns) : Reordered (.object ms) (.object ns)
  | item (before after : List Value) {v w : Value} (inside : Reordered v w) :
    Reordered (.list (before ++ v :: after)) (.list (before ++ w :: after))
  | entry (before after : Table Value) (name : String) {v w : Value} (inside : Reordered v w) :
    Reordered (.object (before ++ (name, v) :: after)) (.object (before ++ (name, w) :: after))

/-! ## What is left without the parts -/

/-- A value without its parts. -/
def outline : Value → Value
  | list _ => list []
  | object _ => object []
  | v => v

theorem alike_outline_left : Alike v.outline w ↔ Alike v w := by
  cases v with
  | list vs => exact alike_list_iff.trans alike_list_iff.symm
  | object ms => exact alike_object_iff.trans alike_object_iff.symm
  | _ => exact Iff.rfl

theorem alike_outline_right : Alike v w.outline ↔ Alike v w := by
  cases w with
  | list ws =>
    constructor
    · rintro ⟨⟩
      · exact .list _ ws
      · contradiction
    · rintro ⟨⟩
      · exact .list _ []
      · contradiction
  | object ns =>
    constructor
    · rintro ⟨⟩
      · exact .object _ ns
      · contradiction
    · rintro ⟨⟩
      · exact .object _ []
      · contradiction
  | _ => exact Iff.rfl

theorem agrees_iff_outlines (hv : Distinct v) (hw : Distinct w) :
    agrees v w ↔ ∀ position,
      Option.Rel Alike ((part? position v).map outline) ((part? position w).map outline) := by
  rw [agrees_iff hv hw]
  refine forall_congr' fun position => ?_
  cases part? position v <;> cases part? position w <;>
    simp [alike_outline_left, alike_outline_right]

/-- What counts as a number is its own outline, and the outline of nothing else. -/
theorem eq_of_outline {a : Amount} (ha : v.count? = some a) (h : v.outline = w.outline) :
    w = v := by
  cases v with
  | bool b => cases w <;> first | exact h.symm | cases h
  | int n => cases w <;> first | exact h.symm | cases h
  | float x => cases w <;> first | exact h.symm | cases h
  | _ => cases ha

theorem count?_outline (v : Value) : v.outline.count? = v.count? := by
  cases v <;> rfl

/-! ## Parts in another order -/

/-- The names of a value that is a mapping. -/
def entryNames : Value → List String
  | .object members => Table.names members
  | _ => []

theorem Distinct.nodup_entryNames (h : Distinct v) : (entryNames v).Nodup := by
  cases v with
  | object members => exact h.here
  | _ => exact List.nodup_nil

namespace Reordered

theorem outline (h : Reordered v w) : v.outline = w.outline := by
  induction h with
  | refl v => rfl
  | trans _ _ ih ih' => exact ih.trans ih'
  | entries perm => rfl
  | item before after _ _ => rfl
  | entry before after name _ _ => rfl

theorem entryNames_perm (h : Reordered v w) : (entryNames v).Perm (entryNames w) := by
  induction h with
  | refl v => exact .refl _
  | trans _ _ ih ih' => exact ih.trans ih'
  | entries perm => exact perm.map Prod.fst
  | item before after _ _ => exact .refl _
  | entry before after name _ _ => simp [entryNames]

theorem child (h : Reordered v w) (hnames : (entryNames v).Nodup) (i : Index) :
    Option.Rel Reordered (child? i v) (child? i w) := by
  have hrefl (o : Option Value) : Option.Rel Reordered o o := by
    cases o with
    | none => exact .none
    | some c => exact .some (.refl c)
  induction h with
  | refl v => exact hrefl _
  | @trans u v w hfirst _ ih ih' =>
    exact rel_trans (ih hnames) (ih' (hfirst.entryNames_perm.nodup_iff.1 hnames))
      fun _ _ _ _ _ _ => .trans
  | @entries ms ns perm =>
    cases i with
    | item n => exact .none
    | entry name =>
      have hget : Table.get? name ms = Table.get? name ns := by
        apply Option.ext
        intro c
        rw [Table.get?_eq_some_iff hnames,
          Table.get?_eq_some_iff ((perm.map Prod.fst).nodup_iff.1 hnames), perm.mem_iff]
      rw [child?, child?, hget]
      exact hrefl _
  | item before after inside _ =>
    cases i with
    | item n =>
      rw [child?, child?, List.getElem?_append, List.getElem?_append]
      by_cases hbefore : n < before.length
      · rw [if_pos hbefore, if_pos hbefore]
        exact hrefl _
      · rw [if_neg hbefore, if_neg hbefore]
        cases n - before.length with
        | zero => exact .some inside
        | succ m => exact hrefl _
    | entry name => exact .none
  | entry before after name inside _ =>
    cases i with
    | item n => exact .none
    | entry other =>
      rw [child?, child?, Table.get?_append, Table.get?_append]
      cases Table.get? other before with
      | some c => exact hrefl _
      | none =>
        rw [Option.none_or, Option.none_or, Table.get?, Table.get?]
        by_cases hname : name = other
        · rw [if_pos hname, if_pos hname]
          exact .some inside
        · rw [if_neg hname, if_neg hname]
          exact hrefl _

end Reordered

theorem Distinct.of_reordered (hv : Distinct v) (h : Reordered v w) : Distinct w := by
  -- Not by induction on the reordering, which passes through values of which nothing is known.
  induction hv generalizing w with
  | @intro v here parts ih =>
    have hnames := Distinct.nodup_entryNames (.intro here parts)
    refine .intro ?_ ?_
    · rintro members rfl
      exact h.entryNames_perm.nodup_iff.1 hnames
    · intro i d hd
      have hchild := h.child hnames i
      cases hc : child? i v with
      | none =>
        rw [hc, hd] at hchild
        cases hchild
      | some c =>
        rw [hc, hd, Option.rel_some_some] at hchild
        exact ih i c hc hchild

/-- The order of entries changes no position and no leaf. -/
theorem outlines_of_reordered (hv : Distinct v) (h : Reordered v w) (position : List Index) :
    (part? position v).map outline = (part? position w).map outline := by
  induction position generalizing v w with
  | nil => exact congrArg some h.outline
  | cons i rest ih =>
    have hchild := h.child hv.nodup_entryNames i
    cases hc : child? i v with
    | none =>
      cases hd : child? i w with
      | none => rw [part?_cons_of_none hc, part?_cons_of_none hd]
      | some d =>
        rw [hc, hd] at hchild
        cases hchild
    | some c =>
      cases hd : child? i w with
      | none =>
        rw [hc, hd] at hchild
        cases hchild
      | some d =>
        rw [hc, hd, Option.rel_some_some] at hchild
        rw [part?_cons_of_some hc, part?_cons_of_some hd]
        exact ih (hv.child hc) hchild

theorem agrees_congr (hv : Distinct v) (hw : Distinct w) (h : Reordered v v')
    (h' : Reordered w w') : agrees v w = agrees v' w' := by
  rw [Bool.eq_iff_iff, agrees_iff_outlines hv hw,
    agrees_iff_outlines (hv.of_reordered h) (hw.of_reordered h')]
  refine forall_congr' fun position => ?_
  rw [outlines_of_reordered hv h, outlines_of_reordered hw h']

end Value

end RestDemo
