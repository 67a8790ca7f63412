import RestDemo.Template

/-!
# What filling depends on

A template that is filled depends on a store only through the variables that it has: two stores that
agree on these fill it alike (`fill_congr`, `fillValue_congr`).
-/

namespace RestDemo.Template

/-- The stores have the same values for the variables, or the same lack of them. -/
def AgreeOn (names : List String) (st st' : Store) : Prop :=
  ∀ name ∈ names, Table.get? name st' = Table.get? name st

variable {st st' : Store} {names more : List String}

theorem AgreeOn.mono (h : AgreeOn names st st') (hsub : ∀ name ∈ more, name ∈ names) :
    AgreeOn more st st' :=
  fun name hname => h name (hsub name hname)

theorem agreeOn_append : AgreeOn (names ++ more) st st' ↔ AgreeOn names st st' ∧ AgreeOn more st st' :=
  List.forall_mem_append

theorem mem_unique {x : String} {xs : List String} : x ∈ unique xs ↔ x ∈ xs := by
  induction xs with
  | nil => exact Iff.rfl
  | cons y ys ih =>
    rw [unique, List.mem_cons, List.mem_cons, List.mem_filter, ih]
    by_cases hxy : x = y
    · simp [hxy]
    · simp [hxy]

theorem nodup_unique (xs : List String) : (unique xs).Nodup := by
  induction xs with
  | nil => exact List.nodup_nil
  | cons x xs ih =>
    rw [unique, List.nodup_cons]
    exact ⟨by simp, ih.filter _⟩

theorem mem_variablesOf {name text : String} :
    name ∈ variablesOf text ↔ .variable name ∈ pieces text := by
  rw [variablesOf, mem_unique, List.mem_filterMap]
  constructor
  · rintro ⟨p, hp, hname⟩
    cases p with
    | char c => cases hname
    | «variable» other => rwa [← Option.some.inj hname]
  · exact fun h => ⟨_, h, rfl⟩

theorem agreeOn_unique : AgreeOn (unique names) st st' ↔ AgreeOn names st st' := by
  unfold AgreeOn
  simp only [mem_unique]

theorem fillPieces_congr {ps : List Piece} (h : AgreeOn (ps.filterMap Piece.name?) st st') :
    fillPieces st' ps = fillPieces st ps := by
  induction ps with
  | nil => rfl
  | cons p ps ih =>
    cases p with
    | char c =>
      rw [List.filterMap_cons_none rfl] at h
      rw [fillPieces, fillPieces, ih h]
      rfl
    | «variable» name =>
      have hname : Piece.name? (.variable name) = some name := rfl
      rw [List.filterMap_cons_some hname] at h
      obtain ⟨hvalue, hrest⟩ := List.forall_mem_cons.1 h
      rw [fillPieces, fillPieces, fillPiece, fillPiece, hvalue, ih hrest]

theorem fill_congr {text : String} (h : AgreeOn (variablesOf text) st st') :
    fill st' text = fill st text := by
  rw [fill, fill, fillPieces_congr (agreeOn_unique.1 h)]

mutual

theorem fillValue_congr : ∀ v, AgreeOn (variablesIn v) st st' → fillValue st' v = fillValue st v
  | .text _, h => congrArg (Except.map Value.text) (fill_congr h)
  | .list items, h =>
    congrArg (Except.map Value.list) (fillItems_congr items (agreeOn_unique.1 h))
  | .object members, h =>
    congrArg (Except.map Value.object) (fillMembers_congr members (agreeOn_unique.1 h))
  | .null, _ | .bool _, _ | .int _, _ | .float _, _ => rfl

theorem fillItems_congr :
    ∀ vs, AgreeOn (variablesInItems vs) st st' → fillItems st' vs = fillItems st vs
  | [], _ => rfl
  | v :: vs, h => by
    obtain ⟨hfirst, hrest⟩ := agreeOn_append.1 h
    rw [fillItems, fillItems, fillValue_congr v hfirst, fillItems_congr vs hrest]

theorem fillMembers_congr :
    ∀ ms, AgreeOn (variablesInMembers ms) st st' → fillMembers st' ms = fillMembers st ms
  | [], _ => rfl
  | (k, v) :: ms, h => by
    obtain ⟨hfirst, hrest⟩ := agreeOn_append.1 h
    rw [fillMembers, fillMembers, fillValue_congr v hfirst, fillMembers_congr ms hrest]

end

theorem fillGiven_congr {v : Value} (h : AgreeOn (variablesIn v) st st') :
    fillGiven st' v = fillGiven st v := by
  cases v with
  | text s => exact congrArg (Except.map Value.text) (fill_congr h)
  | _ => rfl

theorem mem_variablesInItems {name : String} {vs : List Value} :
    name ∈ variablesInItems vs ↔ ∃ v ∈ vs, name ∈ variablesIn v := by
  induction vs with
  | nil => simp [variablesInItems]
  | cons v vs ih =>
    simp only [variablesInItems, List.mem_append, ih, List.mem_cons, exists_eq_or_imp]

theorem mem_variablesIn_list {name : String} {vs : List Value} :
    name ∈ variablesIn (.list vs) ↔ ∃ v ∈ vs, name ∈ variablesIn v := by
  rw [variablesIn, mem_unique, mem_variablesInItems]

/-- What does not count as given has no variables. -/
theorem variablesIn_of_not_isTruthy {v : Value} (h : ¬ v.isTruthy) : variablesIn v = [] := by
  cases v with
  | text s =>
    obtain rfl : s = "" := by simpa [Value.isTruthy] using h
    rfl
  | list items =>
    obtain rfl : items = [] := by simpa [Value.isTruthy] using h
    rfl
  | object members =>
    obtain rfl : members = [] := by simpa [Value.isTruthy] using h
    rfl
  | _ => rfl

/-- A substitute without variables adds none to what it stands in for. -/
theorem variablesIn_orElse {v other : Value} (h : variablesIn other = []) :
    variablesIn (v.orElse other) = variablesIn v := by
  unfold Value.orElse
  by_cases hgiven : v.isTruthy
  · rw [if_pos hgiven]
  · rw [if_neg hgiven, h, variablesIn_of_not_isTruthy hgiven]

theorem mem_missing {name : String} {used : List String} {store : Store} :
    name ∈ missing used store ↔ name ∈ used ∧ name ∉ Table.names store := by
  rw [missing, List.mem_filter, ← Table.has_iff_mem_names, Bool.not_eq_true, Bool.not_eq_true']

/-- Which variables have no value depends on their names alone. -/
theorem missing_congr (hnames : Table.names st' = Table.names st) (used : List String) :
    missing used st' = missing used st := by
  have hhas (name : String) : Table.has name st' = Table.has name st := by
    rw [Bool.eq_iff_iff, Table.has_iff_mem_names, Table.has_iff_mem_names, hnames]
  simp only [missing, hhas]

end RestDemo.Template
