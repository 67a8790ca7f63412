import RestDemo.Proofs.Limits
import RestDemo.Proofs.Template.Agreement
import RestDemo.Proofs.Template.Unbound

/-!
# The variables that are reported

The variables of a value are those that its filling depends on (`reported_variables_matter`): two
stores that agree on them fill it alike, a store that has none of them leaves it as it is, and each
of them makes a difference. To see the difference a variable is given nothing for a value, by which
every text that has it becomes shorter (`length_fillPieces`).
-/

namespace RestDemo.Template

variable {name : String}

/-- There are stores that differ in the variable alone and by which the value is filled
differently. -/
def DependsOn (v : Value) (name : String) : Prop :=
  ∃ st st' : Store, (∀ other, other ≠ name → Table.get? other st' = Table.get? other st) ∧
    fillValue st' v ≠ fillValue st v

theorem agreeOn_nil_of_missing {names : List String} (h : missing names store = names) :
    AgreeOn names [] store := by
  intro name hname
  rw [missing, List.filter_eq_self] at h
  have hunbound := h name hname
  simpa [Table.has, Table.get?] using hunbound

/-! ## A variable without a text -/

/-- The store in which nothing is given but the variable, and it has no text. -/
def blankStore (name : String) : Store := [(name, .null)]

theorem get?_blankStore_of_ne {other : String} (h : other ≠ name) :
    Table.get? other (blankStore name) = none := by
  simp [blankStore, Table.get?, Ne.symm h]

theorem fillPiece_blankStore (name : String) :
    fillPiece (blankStore name) (.variable name) = .ok [] := by
  simp [fillPiece, blankStore, Table.get?, embed]

theorem fillPiece_blankStore_of_ne {p : Piece} (h : p ≠ .variable name) :
    fillPiece (blankStore name) p = fillPiece [] p := by
  cases p with
  | char c => rfl
  | «variable» other =>
    have hother : other ≠ name := fun heq => h (heq ▸ rfl)
    rw [fillPiece, fillPiece, get?_blankStore_of_ne hother]
    rfl

theorem fillPiece_nil_variable (name : String) :
    fillPiece [] (.variable name) = .ok ('$' :: name.toList) := rfl

/-- What is left out makes the text shorter. -/
theorem length_fillPieces {ps : List Piece} {cs ds : List Char}
    (hblank : fillPieces (blankStore name) ps = .ok cs) (hplain : fillPieces [] ps = .ok ds) :
    cs.length ≤ ds.length ∧ (.variable name ∈ ps → cs.length < ds.length) := by
  induction ps generalizing cs ds with
  | nil =>
    cases hblank
    cases hplain
    simp
  | cons p ps ih =>
    rw [fillPieces] at hblank hplain
    obtain ⟨first, hfirst, hblank⟩ := ok_of_bind hblank
    obtain ⟨others, hothers, hblank⟩ := ok_of_bind hblank
    obtain ⟨first', hfirst', hplain⟩ := ok_of_bind hplain
    obtain ⟨others', hothers', hplain⟩ := ok_of_bind hplain
    cases hblank
    cases hplain
    obtain ⟨hle, hlt⟩ := ih hothers hothers'
    simp only [List.length_append, List.mem_cons]
    by_cases hp : p = .variable name
    · subst hp
      rw [fillPiece_blankStore] at hfirst
      rw [fillPiece_nil_variable] at hfirst'
      cases hfirst
      cases hfirst'
      simp only [List.length_nil, List.length_cons]
      omega
    · rw [fillPiece_blankStore_of_ne hp, hfirst'] at hfirst
      cases hfirst
      refine ⟨by omega, ?_⟩
      rintro (heq | hmem)
      · exact absurd heq.symm hp
      · have hshorter := hlt hmem
        omega

theorem fillPieces_nil_pieces (text : String) : fillPieces [] (pieces text) = .ok text.toList :=
  fillPieces_scan .inText text.toList

theorem not_mem_variablesOf {text : String} (h : fill (blankStore name) text = .ok text) :
    name ∉ variablesOf text := by
  intro hname
  obtain ⟨cs, hcs, htext⟩ := ok_of_map h
  have hshorter :=
    (length_fillPieces hcs (fillPieces_nil_pieces text)).2 (mem_variablesOf.1 hname)
  rw [← htext, String.toList_ofList] at hshorter
  exact Nat.lt_irrefl _ hshorter

mutual

/-- A value that stays as it is when the variable is left out does not have it. -/
theorem not_mem_variablesIn :
    ∀ v, fillValue (blankStore name) v = .ok v → name ∉ variablesIn v
  | .text s, h => by
    obtain ⟨filled, hfilled, heq⟩ := ok_of_map h
    cases heq
    exact not_mem_variablesOf hfilled
  | .list items, h => by
    obtain ⟨filled, hfilled, heq⟩ := ok_of_map h
    cases heq
    exact mt mem_unique.1 (not_mem_variablesInItems items hfilled)
  | .object members, h => by
    obtain ⟨filled, hfilled, heq⟩ := ok_of_map h
    cases heq
    exact mt mem_unique.1 (not_mem_variablesInMembers members hfilled)
  | .null, _ | .bool _, _ | .int _, _ | .float _, _ => List.not_mem_nil

theorem not_mem_variablesInItems :
    ∀ vs, fillItems (blankStore name) vs = .ok vs → name ∉ variablesInItems vs
  | [], _ => List.not_mem_nil
  | v :: vs, h => by
    rw [fillItems] at h
    obtain ⟨first, hfirst, h⟩ := ok_of_bind h
    obtain ⟨others, hothers, h⟩ := ok_of_bind h
    cases h
    rw [variablesInItems, List.mem_append, not_or]
    exact ⟨not_mem_variablesIn v hfirst, not_mem_variablesInItems vs hothers⟩

theorem not_mem_variablesInMembers :
    ∀ ms, fillMembers (blankStore name) ms = .ok ms → name ∉ variablesInMembers ms
  | [], _ => List.not_mem_nil
  | (k, v) :: ms, h => by
    rw [fillMembers] at h
    obtain ⟨entry, hentry, h⟩ := ok_of_bind h
    obtain ⟨others, hothers, h⟩ := ok_of_bind h
    cases h
    rw [variablesInMembers, List.mem_append, not_or]
    exact ⟨not_mem_variablesIn v hentry, not_mem_variablesInMembers ms hothers⟩

end

/-! ## What is reported -/

theorem fillValue_of_missing {v : Value} {store : Store}
    (h : missing (variablesIn v) store = variablesIn v) : fillValue store v = .ok v := by
  rw [fillValue_congr v (agreeOn_nil_of_missing h), fillValue_nil]

theorem dependsOn_of_mem {v : Value} (h : name ∈ variablesIn v) : DependsOn v name := by
  refine ⟨[], blankStore name, ?_, ?_⟩
  · intro other hother
    rw [get?_blankStore_of_ne hother]
    rfl
  · rw [fillValue_nil]
    intro hsame
    exact not_mem_variablesIn v hsame h

theorem mem_of_dependsOn {v : Value} (h : DependsOn v name) : name ∈ variablesIn v := by
  obtain ⟨st, st', hothers, hdiffers⟩ := h
  by_cases hname : name ∈ variablesIn v
  · exact hname
  · refine absurd (fillValue_congr v ?_) hdiffers
    intro other hother
    have hne : other ≠ name := fun heq => hname (heq ▸ hother)
    exact hothers other hne

/-- The reported variables are those that the filling depends on, and a value without any of them
bound is not changed. -/
theorem reported_variables_matter (v : Value) :
    (∀ st st', AgreeOn (variablesIn v) st st' → fillValue st' v = fillValue st v) ∧
    (∀ store, missing (variablesIn v) store = variablesIn v → fillValue store v = .ok v) ∧
    ∀ name, name ∈ variablesIn v ↔ DependsOn v name := by
  refine ⟨?_, ?_, ?_⟩
  · intro st st' hagree
    exact fillValue_congr v hagree
  · intro store hmissing
    exact fillValue_of_missing hmissing
  · intro name
    exact ⟨dependsOn_of_mem, mem_of_dependsOn⟩

/-- The name of the entry is not filled, and its items are. -/
def nestedValue : Value :=
  .object [("$key", .text "to $user"), ("items", .list [.text "$id", .int 5])]

/-- Two stores that agree on the variables `user` and `id`, and one that has neither. -/
theorem reported_variables_matter_nested :
    variablesIn nestedValue = ["user", "id"] ∧
      fillValue [("key", .int 1), ("id", .text "$key"), ("user", .null)] nestedValue =
        fillValue [("user", .null), ("id", .text "$key")] nestedValue ∧
      fillValue [("key", .int 1)] nestedValue = .ok nestedValue ∧
      DependsOn nestedValue "id" := by
  have hnames : variablesIn nestedValue = ["user", "id"] := by decide
  obtain ⟨hagree, hmissing, hmatter⟩ := reported_variables_matter nestedValue
  refine ⟨hnames, ?_, ?_, ?_⟩
  · apply hagree
    rw [hnames]
    simp [AgreeOn, Table.get?]
  · apply hmissing
    rw [hnames]
    decide
  · rw [← hmatter, hnames]
    decide

end RestDemo.Template
