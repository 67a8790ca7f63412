import RestDemo.Headers
import RestDemo.Proofs.Template.Filled

/-!
# The headers of a request

A request has the headers that are given for it, each once, in their order and as a text, and no
others but the default one. That comes first and gives way to a header of its name in any spelling
(`exists_build`). So names that differ in more than their spelling still do among the headers of the
request (`BuiltFrom.once`).
-/

namespace RestDemo.Headers

open Template

variable {store : Store} {members : Table Value} {own given headers : Table String}

/-- What a header comes to: a text is filled, and any other value is filled inside and then put into
a text. -/
inductive ComesTo (store : Store) : Value → String → Prop
  | text {s filled : String} (fills : fill store s = .ok filled) : ComesTo store (.text s) filled
  | other {v w : Value} {cs : List Char} (noText : ∀ s, v ≠ .text s)
      (fills : fillValue store v = .ok w) (embeds : embed w = .ok cs) :
    ComesTo store v (String.ofList cs)

/-- The second header has the name of the first and what it comes to. -/
def IsHeader (store : Store) (p : String × Value) (q : String × String) : Prop :=
  q.1 = p.1 ∧ ComesTo store p.2 q.2

/-! ## Given headers -/

theorem exists_comesTo (hstore : Store.Embeds store) {v : Value} (h : v.Embeds) :
    ∃ w cs, fillValue store v = .ok w ∧ embed w = .ok cs ∧ ComesTo store v (String.ofList cs) := by
  obtain ⟨w, hw, -⟩ := exists_fillValue hstore v
  obtain ⟨cs, hcs⟩ := embeds_fillValue hstore h hw
  refine ⟨w, cs, hw, hcs, ?_⟩
  by_cases htext : ∃ s, v = .text s
  · obtain ⟨s, rfl⟩ := htext
    obtain ⟨filled, hfilled, rfl⟩ := ok_of_map hw
    obtain rfl : filled.toList = cs := Except.ok.inj hcs
    rw [String.ofList_toList]
    exact .text hfilled
  · exact .other (fun s hs => htext ⟨s, hs⟩) hw hcs

/-- Headers that can be put into a text are filled and turned into texts, one for one. -/
theorem exists_entries (hstore : Store.Embeds store) (h : ∀ p ∈ members, p.2.Embeds) :
    ∃ filled own, fillMembers store members = .ok filled ∧ entries filled = .ok own ∧
      List.Forall₂ (IsHeader store) members own := by
  induction members with
  | nil => exact ⟨[], [], rfl, rfl, .nil⟩
  | cons p members ih =>
    rw [List.forall_mem_cons] at h
    obtain ⟨v, cs, hv, hcs, hcomes⟩ := exists_comesTo hstore h.1
    obtain ⟨filled, own, hfilled, hown, hall⟩ := ih h.2
    refine ⟨(p.1, v) :: filled, (p.1, String.ofList cs) :: own, ?_, ?_, .cons ⟨rfl, hcomes⟩ hall⟩
    · rw [fillMembers, hv, hfilled]
      rfl
    · rw [entries, hcs, hown]
      rfl

theorem names_of_isHeader (h : List.Forall₂ (IsHeader store) members own) :
    own.names = members.names := by
  induction h with
  | nil => rfl
  | cons hfirst _ ih => rw [Table.names_cons, Table.names_cons, ih, hfirst.1]

/-! ## The default header -/

theorem lower_contentType : Text.lower "Content-Type" = "content-type" := by
  decide +kernel

/-- The default header gives way to a header of its name in any spelling. -/
theorem overDefaults_eq (given : Table String) :
    overDefaults given =
      if ∃ name ∈ given.names, Text.lower name = "content-type" then Table.overlay [] given
      else Table.overlay defaults given := by
  have hcontains : (given.names.map Text.lower).contains "content-type" =
      decide (∃ name ∈ given.names, Text.lower name = "content-type") := by
    simp [List.contains_eq_mem]
  rw [overDefaults, defaults, List.filter_cons]
  simp only [lower_contentType, hcontains]
  by_cases h : ∃ name ∈ given.names, Text.lower name = "content-type"
  · simp [h]
  · simp [h]

/-- The default header stands before the others, if it stands at all. -/
theorem overDefaults_of_nodup (h : given.names.Nodup) :
    overDefaults given =
      (if ∃ name ∈ given.names, Text.lower name = "content-type" then [] else defaults) ++ given := by
  rw [overDefaults_eq]
  by_cases htype : ∃ name ∈ given.names, Text.lower name = "content-type"
  · rw [if_pos htype, if_pos htype, List.nil_append]
    exact Table.ofList_of_nodup h
  · rw [if_neg htype, if_neg htype]
    refine Table.overlay_eq_append ?_
    have hmem : "Content-Type" ∉ given.names := fun hmem => htype ⟨_, hmem, lower_contentType⟩
    exact List.nodup_cons.2 ⟨hmem, h⟩

/-! ## The headers of a request -/

/-- The headers of a request, from those that are given for it. -/
structure BuiltFrom (store : Store) (members : Table Value) (headers : Table String) : Prop where
  /-- They are the given ones, after the default unless one of them has its name. -/
  own : ∃ own, List.Forall₂ (IsHeader store) members own ∧
    headers = (if ∃ name ∈ members.names, Text.lower name = "content-type" then []
      else [("Content-Type", "application/json")]) ++ own
  typed : ∃ name ∈ headers.names, Text.lower name = "content-type"
  once : (members.names.map Text.lower).Nodup → (headers.names.map Text.lower).Nodup

theorem builtFrom_of_isHeader (h : List.Forall₂ (IsHeader store) members own) :
    BuiltFrom store members
      ((if ∃ name ∈ members.names, Text.lower name = "content-type" then [] else defaults) ++ own)
    where
  own := ⟨own, h, rfl⟩
  typed := by
    by_cases htype : ∃ name ∈ members.names, Text.lower name = "content-type"
    · obtain ⟨name, hname, hlower⟩ := htype
      refine ⟨name, ?_, hlower⟩
      rw [Table.names_append, List.mem_append, names_of_isHeader h]
      exact .inr hname
    · rw [if_neg htype]
      exact ⟨"Content-Type", List.mem_cons_self, lower_contentType⟩
  once hnodup := by
    rw [Table.names_append, List.map_append, names_of_isHeader h]
    by_cases htype : ∃ name ∈ members.names, Text.lower name = "content-type"
    · rwa [if_pos htype]
    · rw [if_neg htype]
      have hmem : Text.lower "Content-Type" ∉ members.names.map Text.lower := by
        rw [lower_contentType, List.mem_map]
        exact htype
      exact List.nodup_cons.2 ⟨hmem, hnodup⟩

/-- Headers that can be put into a text are built, from a store that can. -/
theorem exists_build (hstore : Store.Embeds store) {v : Value}
    (hgiven : v.orElse (.object []) = .object members) (hnodup : members.names.Nodup)
    (h : ∀ p ∈ members, p.2.Embeds) :
    ∃ headers, build v store = .ok headers ∧ BuiltFrom store members headers := by
  obtain ⟨filled, own, hfilled, hown, hall⟩ := exists_entries hstore h
  have hnames := names_of_isHeader hall
  refine ⟨overDefaults own, ?_, ?_⟩
  · rw [build, hgiven, fillValue, hfilled]
    simp only [Except.map, bind, Except.bind, hown]
    rfl
  · rw [overDefaults_of_nodup (hnames ▸ hnodup), hnames]
    exact builtFrom_of_isHeader hall

end RestDemo.Headers
