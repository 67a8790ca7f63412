import RestDemo.Json.Reader
import RestDemo.Proofs.Json.Writable
import RestDemo.Proofs.Limits

/-!
# What can be read

A value that was read is put together from parts that were read, its integers have no more digits
than may be written, and its lists are no longer than its text allows (`of_read`). So it can be
written again (`writable_of_read`), and its lists can be counted (`within_of_read`).
-/

namespace RestDemo

namespace Text

theorem digitValue?_lt {c : Char} {n : Nat} (h : digitValue? c = some n) : n < 10 := by
  unfold digitValue? at h
  by_cases hascii : c.toNat < 0x80
  · rw [if_pos hascii] at h
    by_cases hdigit : '0' ≤ c ∧ c ≤ '9'
    · rw [if_pos hdigit] at h
      have hle : c.toNat ≤ 0x39 := hdigit.2
      have hn : c.toNat - 0x30 = n := Option.some.inj h
      omega
    · rw [if_neg hdigit] at h
      cases h
  · rw [if_neg hascii, Option.map_eq_some_iff] at h
    obtain ⟨z, hz, rfl⟩ := h
    have hrange := List.find?_some hz
    simp only [Bool.and_eq_true, decide_eq_true_eq] at hrange
    omega

theorem digitsValue_lt (cs : List Char) : digitsValue cs < 10 ^ cs.length := by
  -- The digits read so far are part of what the induction is about.
  have hfold : ∀ (cs : List Char) (n k : Nat), n < 10 ^ k →
      cs.foldl (fun n c => 10 * n + (digitValue? c).getD 0) n < 10 ^ (k + cs.length) := by
    intro cs
    induction cs with
    | nil => exact fun n k h => h
    | cons c cs ih =>
      intro n k h
      have hdigit : (digitValue? c).getD 0 < 10 := by
        cases hc : digitValue? c with
        | none => exact Nat.zero_lt_succ 9
        | some d => exact digitValue?_lt hc
      have hnext : 10 * n + (digitValue? c).getD 0 < 10 ^ (k + 1) := by
        rw [Nat.pow_succ]
        omega
      have hlength : k + (c :: cs).length = k + 1 + cs.length := by
        rw [List.length_cons]
        omega
      rw [hlength]
      exact ih _ _ hnext
  have h := hfold cs 0 0 Nat.one_pos
  rwa [Nat.zero_add] at h

end Text

namespace Json

/-- A property that passes on from parts to what the reader puts together of them, if no list has
more than so many items. -/
structure Readable (limit : Nat) (P : Value → Prop) : Prop where
  null : P .null
  bool (b : Bool) : P (.bool b)
  int (n : Int) (digits : n.natAbs < 10 ^ Number.maxDigits) : P (.int n)
  float (x : Float) : P (.float x)
  text (s : String) : P (.text s)
  list (items : List Value) (short : items.length ≤ limit) (parts : ∀ v ∈ items, P v) :
    P (.list items)
  object (members : Table Value) (parts : ∀ p ∈ members, P p.2) : P (.object members)

section

variable {limit : Nat} {P : Value → Prop} {cs rest : List Char} {v : Value}

theorem of_readUnsigned (hP : Readable limit P) {negative : Bool}
    (h : readUnsigned negative cs = some (.ok v, rest)) : P v := by
  unfold readUnsigned at h
  rw [Option.map_eq_some_iff] at h
  obtain ⟨⟨whole, after⟩, -, h⟩ := h
  dsimp only at h
  split at h
  · split at h <;> cases h <;> exact hP.float _
  · split at h
    · cases h
      exact hP.float _
    · by_cases hlength : whole.length ≤ Number.maxDigits
      · rw [if_pos hlength] at h
        cases h
        have hle : 10 ^ whole.length ≤ 10 ^ Number.maxDigits :=
          Nat.pow_le_pow_right (by decide) hlength
        have hlt := Nat.lt_of_lt_of_le (Text.digitsValue_lt whole) hle
        refine hP.int _ ?_
        unfold Number.ofSignDigits
        cases negative <;> simpa using hlt
      · rw [if_neg hlength] at h
        cases h

theorem of_readNumber (hP : Readable limit P) (h : readNumber cs = .ok (v, rest)) : P v := by
  unfold readNumber at h
  dsimp only at h
  split at h
  · cases h
  · rename_i hunsigned
    cases h
    split at hunsigned <;> exact of_readUnsigned hP hunsigned
  · cases h

theorem of_readAtom (hP : Readable limit P) (h : readAtom cs = .ok (v, rest)) : P v := by
  unfold readAtom at h
  split at h
  · cases h
    exact hP.null
  · cases h
    exact hP.bool true
  · cases h
    exact hP.bool false
  · cases h
    exact hP.float _
  · cases h
    exact hP.float _
  · cases h
    exact hP.float _
  · exact of_readNumber hP h

/-- What the readers of values, items and entries make with so much fuel; there are no more items
than the fuel allows. -/
structure Makes (P : Value → Prop) (fuel : Nat) : Prop where
  value {depth : Nat} {cs rest : List Char} {v : Value}
    (h : readValue fuel depth cs = .ok (v, rest)) : P v
  items {depth : Nat} {cs rest : List Char} {items : List Value}
    (h : readItems fuel depth cs = .ok (items, rest)) : items.length ≤ fuel ∧ ∀ v ∈ items, P v
  members {depth : Nat} {cs rest : List Char} {members : Table Value}
    (h : readMembers fuel depth cs = .ok (members, rest)) : ∀ p ∈ members, P p.2

namespace Makes

variable {fuel depth : Nat}

theorem readValue_succ (hP : Readable limit P) (hfuel : fuel ≤ limit) (made : Makes P fuel)
    (h : readValue (fuel + 1) depth cs = .ok (v, rest)) : P v := by
  rw [readValue.eq_def] at h
  dsimp only at h
  split at h
  · obtain ⟨⟨s, after⟩, -, h⟩ := ok_of_map h
    cases h
    exact hP.text _
  · split at h
    · cases h
    · cases h
      exact hP.list [] (Nat.zero_le limit) fun v hv => nomatch hv
    · obtain ⟨⟨items, after⟩, hitems, h⟩ := ok_of_map h
      cases h
      obtain ⟨hlength, hparts⟩ := made.items hitems
      exact hP.list items (Nat.le_trans hlength hfuel) hparts
  · split at h
    · cases h
    · cases h
      exact hP.object [] fun p hp => nomatch hp
    · obtain ⟨⟨members, after⟩, hmembers, h⟩ := ok_of_map h
      cases h
      refine hP.object _ fun p hp => ?_
      -- An entry under a name that comes again is gone; those that are left were all read.
      rcases Table.mem_of_mem_overlay hp with hp | hp
      · cases hp
      · exact made.members hmembers p hp
  · exact of_readAtom hP h

theorem readItems_succ {items : List Value} (made : Makes P fuel)
    (h : readItems (fuel + 1) depth cs = .ok (items, rest)) :
    items.length ≤ fuel + 1 ∧ ∀ v ∈ items, P v := by
  rw [readItems] at h
  split at h
  · cases h
  · rename_i item after hitem
    have hfirst := made.value hitem
    split at h
    · cases h
      exact ⟨Nat.le_add_left 1 fuel, List.forall_mem_singleton.2 hfirst⟩
    · obtain ⟨⟨others, after⟩, hothers, h⟩ := ok_of_map h
      cases h
      obtain ⟨hlength, hparts⟩ := made.items hothers
      exact ⟨Nat.succ_le_succ hlength, List.forall_mem_cons.2 ⟨hfirst, hparts⟩⟩
    · cases h

theorem readMembers_succ {members : Table Value} (made : Makes P fuel)
    (h : readMembers (fuel + 1) depth cs = .ok (members, rest)) : ∀ p ∈ members, P p.2 := by
  rw [readMembers.eq_def] at h
  dsimp only at h
  split at h
  · split at h
    · cases h
    · split at h
      · split at h
        · cases h
        · rename_i entry after hentry
          have hfirst := made.value hentry
          split at h
          · cases h
            exact List.forall_mem_singleton.2 hfirst
          · obtain ⟨⟨others, after⟩, hothers, h⟩ := ok_of_map h
            cases h
            exact List.forall_mem_cons.2 ⟨hfirst, made.members hothers⟩
          · cases h
      · cases h
  · cases h

end Makes

theorem makes_of_le (hP : Readable limit P) {fuel : Nat} (hfuel : fuel ≤ limit) : Makes P fuel := by
  induction fuel with
  | zero =>
    constructor
    · intro depth cs rest v h
      rw [readValue] at h
      cases h
    · intro depth cs rest items h
      rw [readItems] at h
      cases h
    · intro depth cs rest members h
      rw [readMembers] at h
      cases h
  | succ fuel ih =>
    have hle := Nat.le_of_succ_le hfuel
    have made := ih hle
    exact ⟨made.readValue_succ hP hle, made.readItems_succ, made.readMembers_succ⟩

theorem of_read (hP : Readable (2 * cs.length + 2) P) (h : read cs = .ok v) : P v := by
  unfold read at h
  split at h
  · cases h
  · split at h
    · cases h
    · rename_i v' rest hvalue
      split at h
      · cases h
        exact (makes_of_le hP (Nat.le_refl _)).value hvalue
      · cases h

end

variable {cs : List Char} {v : Value}

/-- What was read can be written. -/
theorem writable_of_read (h : read cs = .ok v) : Writable v :=
  of_read
    { null := writable_null
      bool := writable_bool
      int := fun _ => writable_int_iff.2
      float := writable_float
      text := writable_text
      list := fun _ _ => writable_list.2
      object := fun _ => writable_object.2 } h

/-- No list in a value has more than so many items. -/
inductive Within (limit : Nat) : Value → Prop
  | null : Within limit .null
  | bool (b : Bool) : Within limit (.bool b)
  | int (n : Int) : Within limit (.int n)
  | float (x : Float) : Within limit (.float x)
  | text (s : String) : Within limit (.text s)
  | list (items : List Value) (short : items.length ≤ limit) (parts : ∀ v ∈ items, Within limit v) :
    Within limit (.list items)
  | object (members : Table Value) (parts : ∀ p ∈ members, Within limit p.2) :
    Within limit (.object members)

theorem within_of_read (h : read cs = .ok v) : Within (2 * cs.length + 2) v :=
  of_read
    { null := .null
      bool := .bool
      int := fun n _ => .int n
      float := .float
      text := .text
      list := .list
      object := .object } h

/-- What a mapping holds under a name has a property that its entries have, if nothing has. -/
theorem of_field {P : Value → Prop} {members : Table Value} (hnull : P .null)
    (h : ∀ p ∈ members, P p.2) (name : String) : P (Value.field name members) := by
  unfold Value.field
  cases hget : Table.get? name members with
  | none => exact hnull
  | some v => exact h _ (Table.mem_of_get? hget)

end Json

end RestDemo
