/-!
# Ordered tables

A table holds entries under names, in the order in which the names first came. Giving a name again
replaces its entry and keeps its place. `get?_set` and `names_set` say what an assignment does to
the entries and to the order of the names; `get?_overlay` says that an entry of the table on
top hides those below it, and the last of its entries under a name the others; `names_overlay` that
new names come last. Where no name comes twice, an overlay is just a longer table
(`overlay_eq_append`).
-/

namespace RestDemo

/-- Names with their entries, in order. -/
abbrev Table (α : Type) := List (String × α)

namespace Table

variable {α β : Type}

def get? (name : String) : Table α → Option α
  | [] => none
  | (k, v) :: rest => if k = name then some v else get? name rest

def has (name : String) (t : Table α) : Bool :=
  (get? name t).isSome

def set (name : String) (entry : α) : Table α → Table α
  | [] => [(name, entry)]
  | (k, v) :: rest => if k = name then (k, entry) :: rest else (k, v) :: set name entry rest

def names (t : Table α) : List String :=
  t.map Prod.fst

/-- The table with the entries of a second one given on top of it, in the second one's order. -/
def overlay (t top : Table α) : Table α :=
  top.foldl (fun acc (k, v) => set k v acc) t

/-- The table of a list of entries, in which a name may come again. -/
def ofList (entries : List (String × α)) : Table α :=
  overlay [] entries

def mapEntries (f : String → α → β) (t : Table α) : Table β :=
  t.map fun (k, v) => (k, f k v)

theorem get?_set (t : Table α) (name other : String) (entry : α) :
    get? other (set name entry t) = if name = other then some entry else get? other t := by
  induction t with
  | nil => simp [set, get?]
  | cons p rest ih =>
    obtain ⟨k, v⟩ := p
    by_cases hk : k = name
    · subst hk
      by_cases ho : k = other <;> simp [set, get?, ho]
    · by_cases ho : k = other
      · subst ho
        simp [set, get?, hk, Ne.symm hk]
      · simp [set, get?, hk, ho, ih]

theorem names_set (t : Table α) (name : String) (entry : α) :
    names (set name entry t) = if name ∈ names t then names t else names t ++ [name] := by
  induction t with
  | nil => simp [set, names]
  | cons p rest ih =>
    obtain ⟨k, v⟩ := p
    by_cases hk : k = name
    · subst hk
      simp [set, names]
    · have hn : name ≠ k := Ne.symm hk
      simp only [names] at ih ⊢
      by_cases hm : name ∈ List.map Prod.fst rest <;> simp [set, hk, hn, ih, hm]

theorem set_set (t : Table α) (name : String) (entry entry' : α) :
    set name entry' (set name entry t) = set name entry' t := by
  induction t with
  | nil => simp [set]
  | cons p rest ih =>
    obtain ⟨k, v⟩ := p
    by_cases hk : k = name <;> simp [set, hk, ih]

theorem get?_append (s t : Table α) (name : String) :
    get? name (s ++ t) = (get? name s).or (get? name t) := by
  induction s with
  | nil => simp [get?]
  | cons p rest ih =>
    obtain ⟨k, v⟩ := p
    by_cases hk : k = name <;> simp [get?, hk, ih]

theorem get?_overlay (t top : Table α) (name : String) :
    get? name (overlay t top) = (get? name top.reverse).or (get? name t) := by
  induction top generalizing t with
  | nil => simp [overlay, get?]
  | cons p rest ih =>
    obtain ⟨k, v⟩ := p
    have h : overlay t ((k, v) :: rest) = overlay (set k v t) rest := rfl
    rw [h, ih, List.reverse_cons, get?_append, get?_set]
    by_cases hk : k = name <;> cases get? name rest.reverse <;> simp [get?, hk]

/-! ## Names and entries -/

@[simp] theorem names_nil : names ([] : Table α) = [] := rfl

@[simp] theorem names_cons (p : String × α) (t : Table α) : names (p :: t) = p.1 :: names t := rfl

@[simp] theorem names_append (s t : Table α) : names (s ++ t) = names s ++ names t :=
  List.map_append

theorem has_iff_mem_names {t : Table α} {name : String} : has name t ↔ name ∈ names t := by
  induction t with
  | nil => simp [has, get?]
  | cons p rest ih =>
    obtain ⟨k, v⟩ := p
    by_cases hk : k = name
    · simp [has, get?, hk]
    · have hn : name ≠ k := Ne.symm hk
      simpa [has, get?, hk, hn] using ih

theorem has_eq_false {t : Table α} {name : String} (h : name ∉ names t) : has name t = false := by
  rwa [← Bool.not_eq_true, has_iff_mem_names]

theorem get?_eq_none_iff {t : Table α} {name : String} : get? name t = none ↔ name ∉ names t := by
  rw [← has_iff_mem_names, has, Option.not_isSome_iff_eq_none]

theorem get?_reverse_eq_none_iff {t : Table α} {name : String} :
    get? name t.reverse = none ↔ name ∉ names t := by
  rw [get?_eq_none_iff, names, List.map_reverse, List.mem_reverse]
  rfl

/-- The last of the entries under a name is the one in the table. -/
theorem get?_ofList (entries : List (String × α)) (name : String) :
    get? name (ofList entries) = get? name entries.reverse := by
  rw [ofList, get?_overlay, get?, Option.or_none]

theorem overlay_cons (t rest : Table α) (name : String) (entry : α) :
    overlay t ((name, entry) :: rest) = overlay (set name entry t) rest := rfl

theorem mem_of_mem_set {t : Table α} {name : String} {entry : α} {p : String × α}
    (h : p ∈ set name entry t) : p = (name, entry) ∨ p ∈ t := by
  induction t with
  | nil => exact .inl (List.mem_singleton.1 h)
  | cons q rest ih =>
    obtain ⟨k, v⟩ := q
    unfold set at h
    by_cases hk : k = name
    · rw [if_pos hk, hk] at h
      rcases List.mem_cons.1 h with h | h
      · exact .inl h
      · exact .inr (List.mem_cons_of_mem _ h)
    · rw [if_neg hk] at h
      rcases List.mem_cons.1 h with rfl | h
      · exact .inr List.mem_cons_self
      · exact (ih h).imp_right (List.mem_cons_of_mem _)

theorem mem_of_mem_overlay {t top : Table α} {p : String × α} (h : p ∈ overlay t top) :
    p ∈ t ∨ p ∈ top := by
  induction top generalizing t with
  | nil => exact .inl h
  | cons q rest ih =>
    rcases ih h with h | h
    · rcases mem_of_mem_set h with rfl | h
      · exact .inr List.mem_cons_self
      · exact .inl h
    · exact .inr (List.mem_cons_of_mem _ h)

/-! ## Tables in which no name comes twice -/

theorem nodup_set {t : Table α} (h : (names t).Nodup) (name : String) (entry : α) :
    (names (set name entry t)).Nodup := by
  rw [names_set]
  by_cases hm : name ∈ names t
  · rw [if_pos hm]
    exact h
  · rw [if_neg hm]
    exact List.nodup_append.2 ⟨h, by simp, fun a ha b hb hab => hm (by simp_all)⟩

theorem nodup_overlay {t : Table α} (h : (names t).Nodup) (top : Table α) :
    (names (overlay t top)).Nodup := by
  induction top generalizing t with
  | nil => exact h
  | cons p rest ih => exact ih (nodup_set h p.1 p.2)

theorem nodup_ofList (entries : List (String × α)) : (names (ofList entries)).Nodup :=
  nodup_overlay (names_nil (α := α) ▸ List.nodup_nil) entries

theorem set_of_not_mem {t : Table α} {name : String} (h : name ∉ names t) (entry : α) :
    set name entry t = t ++ [(name, entry)] := by
  induction t with
  | nil => rfl
  | cons p rest ih =>
    obtain ⟨k, v⟩ := p
    rw [names_cons, List.mem_cons, not_or] at h
    rw [set, if_neg (Ne.symm h.1), ih h.2]
    rfl

theorem set_append_of_not_mem {t : Table α} {name : String} (h : name ∉ names t) (rest : Table α)
    (entry : α) : set name entry (t ++ rest) = t ++ set name entry rest := by
  induction t with
  | nil => rfl
  | cons p t ih =>
    obtain ⟨k, v⟩ := p
    rw [names_cons, List.mem_cons, not_or] at h
    rw [List.cons_append, set, if_neg (Ne.symm h.1), ih h.2]
    rfl

theorem overlay_eq_append {t top : Table α} (h : (names (t ++ top)).Nodup) :
    overlay t top = t ++ top := by
  induction top generalizing t with
  | nil => exact (List.append_nil t).symm
  | cons p rest ih =>
    obtain ⟨k, v⟩ := p
    have hnot : k ∉ names t := by
      rw [names_append] at h
      exact fun hmem => (List.nodup_append.1 h).2.2 k hmem k List.mem_cons_self rfl
    have hsplit : t ++ (k, v) :: rest = t ++ [(k, v)] ++ rest := by simp
    rw [overlay_cons, set_of_not_mem hnot, hsplit]
    exact ih (hsplit ▸ h)

theorem ofList_of_nodup {t : Table α} (h : (names t).Nodup) : ofList t = t :=
  overlay_eq_append h

theorem mem_of_get? {t : Table α} {name : String} {entry : α} (h : get? name t = some entry) :
    (name, entry) ∈ t := by
  induction t with
  | nil => cases h
  | cons p rest ih =>
    obtain ⟨k, v⟩ := p
    unfold get? at h
    by_cases hk : k = name
    · rw [if_pos hk] at h
      obtain rfl := Option.some.inj h
      rw [hk]
      exact List.mem_cons_self
    · rw [if_neg hk] at h
      exact List.mem_cons_of_mem _ (ih h)

theorem get?_of_mem {t : Table α} {name : String} {entry : α} (hnodup : (names t).Nodup)
    (h : (name, entry) ∈ t) : get? name t = some entry := by
  induction t with
  | nil => cases h
  | cons p rest ih =>
    obtain ⟨k, v⟩ := p
    rw [names_cons, List.nodup_cons] at hnodup
    rcases List.mem_cons.1 h with heq | h
    · cases heq
      exact if_pos rfl
    · have hne : k ≠ name := by
        rintro rfl
        exact hnodup.1 (List.mem_map.2 ⟨_, h, rfl⟩)
      rw [get?, if_neg hne]
      exact ih hnodup.2 h

theorem get?_eq_some_iff {t : Table α} {name : String} {entry : α} (hnodup : (names t).Nodup) :
    get? name t = some entry ↔ (name, entry) ∈ t :=
  ⟨mem_of_get?, get?_of_mem hnodup⟩

theorem nodup_reverse {t : Table α} (hnodup : (names t).Nodup) : (names t.reverse).Nodup := by
  rw [names, List.map_reverse]
  exact List.pairwise_reverse.2 (hnodup.imp Ne.symm)

/-- Where no name comes twice, the last entry under a name is the first one. -/
theorem get?_reverse {t : Table α} (hnodup : (names t).Nodup) (name : String) :
    get? name t.reverse = get? name t := by
  apply Option.ext
  intro entry
  rw [get?_eq_some_iff (nodup_reverse hnodup), get?_eq_some_iff hnodup, List.mem_reverse]

/-- Names that are new come last, in the order of the table on top. -/
theorem names_overlay (t : Table α) {top : Table α} (hnodup : (names top).Nodup) :
    names (overlay t top) = names t ++ (names top).filter (· ∉ names t) := by
  induction top generalizing t with
  | nil => simp [overlay]
  | cons p rest ih =>
    obtain ⟨k, v⟩ := p
    rw [names_cons, List.nodup_cons] at hnodup
    rw [overlay_cons, ih _ hnodup.2, names_set, names_cons]
    by_cases hk : k ∈ names t
    · rw [if_pos hk, List.filter_cons_of_neg (by simpa using hk)]
    · have hrest : (names rest).filter (· ∉ names t ++ [k]) =
          (names rest).filter (· ∉ names t) := by
        apply List.filter_congr
        intro name hname
        have hne : name ≠ k := fun heq => hnodup.1 (heq ▸ hname)
        simp [hne]
      rw [if_neg hk, hrest, List.filter_cons_of_pos (by simpa using hk)]
      simp

theorem set_of_get? {t : Table α} {name : String} {entry : α} (h : get? name t = some entry) :
    set name entry t = t := by
  induction t with
  | nil => cases h
  | cons p rest ih =>
    obtain ⟨k, v⟩ := p
    unfold get? at h
    by_cases hk : k = name
    · rw [if_pos hk] at h
      rw [set, if_pos hk, Option.some.inj h]
    · rw [if_neg hk] at h
      rw [set, if_neg hk, ih h]

/-- Entries that are there already make no difference on top. -/
theorem overlay_of_get? {t top : Table α} (h : ∀ p ∈ top, get? p.1 t = some p.2) :
    overlay t top = t := by
  induction top with
  | nil => rfl
  | cons p rest ih =>
    rw [List.forall_mem_cons] at h
    rw [overlay_cons, set_of_get? h.1]
    exact ih h.2

/-- What is true of the entries below is true of all if it is of those on top. -/
theorem forall_mem_overlay_iff {P : α → Prop} {t : Table α} (hnodup : (names t).Nodup)
    (ht : ∀ p ∈ t, P p.2) (top : Table α) :
    (∀ p ∈ overlay t top, P p.2) ↔ ∀ p ∈ ofList top, P p.2 := by
  have hempty : (names ([] : Table α)).Nodup := List.nodup_nil
  constructor
  · intro h p hp
    have hget := get?_of_mem (nodup_overlay hempty top) hp
    rw [get?_overlay, get?, Option.or_none] at hget
    refine h p (mem_of_get? ?_)
    rw [get?_overlay, hget, Option.some_or]
  · intro h p hp
    have hget := get?_of_mem (nodup_overlay hnodup top) hp
    rw [get?_overlay] at hget
    cases htop : get? p.1 top.reverse with
    | none =>
      rw [htop, Option.none_or] at hget
      exact ht p (mem_of_get? hget)
    | some v =>
      rw [htop, Option.some_or] at hget
      obtain rfl := Option.some.inj hget
      refine h p (mem_of_get? ?_)
      rw [ofList, get?_overlay, htop, Option.some_or]

/-! ## Entries replaced -/

theorem names_mapEntries (f : String → α → β) (t : Table α) : names (mapEntries f t) = names t := by
  simp [names, mapEntries]

theorem get?_mapEntries (f : String → α → β) (t : Table α) (name : String) :
    get? name (mapEntries f t) = (get? name t).map (f name) := by
  induction t with
  | nil => rfl
  | cons p rest ih =>
    obtain ⟨k, v⟩ := p
    by_cases hk : k = name
    · subst hk
      simp [mapEntries, get?]
    · have hrest : get? name (mapEntries f rest) = (get? name rest).map (f name) := ih
      simpa [mapEntries, get?, hk] using hrest

theorem mapEntries_cons (f : String → α → β) (p : String × α) (t : Table α) :
    mapEntries f (p :: t) = (p.1, f p.1 p.2) :: mapEntries f t := rfl

theorem mapEntries_append (f : String → α → β) (s t : Table α) :
    mapEntries f (s ++ t) = mapEntries f s ++ mapEntries f t :=
  List.map_append

theorem mapEntries_drop (f : String → α → β) (t : Table α) (n : Nat) :
    mapEntries f (t.drop n) = (mapEntries f t).drop n :=
  List.map_drop

theorem mapEntries_congr {f g : String → α → β} {t : Table α}
    (h : ∀ p ∈ t, f p.1 p.2 = g p.1 p.2) : mapEntries f t = mapEntries g t :=
  List.map_congr_left fun p hp => congrArg (p.1, ·) (h p hp)

theorem mapEntries_set (f : String → α → β) (t : Table α) (name : String) (entry : α) :
    mapEntries f (set name entry t) = set name (f name entry) (mapEntries f t) := by
  induction t with
  | nil => rfl
  | cons p rest ih =>
    obtain ⟨k, v⟩ := p
    by_cases hk : k = name
    · simp [set, mapEntries_cons, hk]
    · simp [set, mapEntries_cons, hk, ih]

theorem mapEntries_overlay (f : String → α → β) (t top : Table α) :
    mapEntries f (overlay t top) = overlay (mapEntries f t) (mapEntries f top) := by
  induction top generalizing t with
  | nil => rfl
  | cons p rest ih =>
    obtain ⟨k, v⟩ := p
    rw [overlay_cons, ih, mapEntries_set]
    rfl

end Table

end RestDemo
