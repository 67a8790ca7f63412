import RestDemo.Proofs.Condition.Overlong
import RestDemo.Proofs.Path.Location

/-!
# Paths one after another

A path that is put together of two, with a point between them, leads where the second one leads
from the part at the first one; and a place in brackets after a path leads to that item of the part
at the path (`extract_append`). This holds for every two texts, malformed ones included, since the
segments of the whole are those of both parts (`parse?_point`, `parse?_place`).
-/

namespace RestDemo.Path

variable {document part : Option Value} {p q : String} {first second : List Segment}

/-- No name of the path is a place that is written with too many digits. -/
def Short (path : String) : Prop :=
  ∀ segments, parse? path = some segments → ∀ name, .name name ∈ segments → ¬ Overlong name

/-- The item at a place of what is a list and has that place. -/
def itemAt : Option Value → Int → Option Value
  | some (.list items), .ofNat n => items[n]?
  | _, _ => none

theorem short_of_parse? (h : parse? p = some first)
    (hnames : ∀ name, .name name ∈ first → name.toList.length ≤ Number.maxDigits) : Short p := by
  intro segments hparse name hname hlong
  obtain rfl := Option.some.inj (h.symm.trans hparse)
  exact absurd hlong.2 (Nat.not_lt_of_le (hnames name hname))

/-! ## Reading -/

theorem parse?_point (p q : String) : parse? (p ++ "." ++ q) =
    (parse? p).bind fun first => (parse? q).map (first ++ ·) := by
  have hopens : Opens ('.' :: q.toList) := opens_cons (.inl rfl) _
  have htext : (p ++ "." ++ q).toList = p.toList ++ '.' :: q.toList := by simp
  rw [parse?, htext, segments?_append _ _ hopens, segments?_point]
  rfl

theorem toList_repr (i : Int) : i.repr.toList = Number.intDigits i := by
  cases i with
  | ofNat n => exact Nat.toList_repr
  | negSucc n =>
    have hneg : Int.negSucc n < 0 := Int.negSucc_lt_zero n
    rw [Number.intDigits, if_pos hneg, Int.repr, String.toList_append, Nat.toList_repr]
    rfl

theorem parse?_place (p : String) (i : Int) : parse? (p ++ "[" ++ toString i ++ "]") =
    (parse? p).bind fun first =>
      if i.natAbs < 10 ^ Number.maxDigits then some (first ++ [.place i]) else none := by
  have hopens : Opens ('[' :: (Number.intDigits i ++ [']'])) := opens_cons (.inr rfl) _
  have htext : (p ++ "[" ++ toString i ++ "]").toList =
      p.toList ++ '[' :: (Number.intDigits i ++ [']']) := by simp [toList_repr]
  rw [parse?, htext, segments?_append _ _ hopens, segments?_place]
  split <;> simp [parse?]

/-! ## Following -/

theorem followAll_none (segments : List Segment) : followAll segments none = .ok none := by
  cases segments <;> rfl

theorem followAll_append (first second : List Segment) (document : Option Value) :
    followAll (first ++ second) document = (followAll first document).bind (followAll second) := by
  induction first generalizing document with
  | nil => rfl
  | cons segment rest ih =>
    cases document with
    | none => simp [followAll, followAll_none, Except.bind]
    | some v =>
      rw [List.cons_append, followAll, followAll]
      cases follow segment v with
      | error f => rfl
      | ok next => exact ih next

theorem Short.exists_extract (h : Short p) (document : Option Value) :
    ∃ part, extract document p = .ok part := by
  cases hextract : extract document p with
  | ok part => exact ⟨part, rfl⟩
  | error f =>
    obtain ⟨segments, hparse, before, name, after, items, hsplit, -, hlong, -⟩ :=
      extract_error_iff.1 hextract
    have hname : .name name ∈ segments := by simp [hsplit]
    exact absurd hlong (h segments hparse name hname)

/-- A place in brackets leads to the item there, if the list is not too long for its digits. -/
theorem followAll_place (part : Option Value) (i : Int) :
    followAll [.place i] part = .ok (itemAt part i) := by
  cases part with
  | none => rfl
  | some v =>
    cases v with
    | list items =>
      cases i with
      | ofNat n => exact congrArg Except.ok (item?_natCast items n)
      | negSucc n => exact congrArg Except.ok (if_pos (Int.negSucc_lt_zero n))
    | _ => rfl

theorem itemAt_eq_none {i : Int} (hlong : 10 ^ Number.maxDigits ≤ i.natAbs)
    (haddressable : ∀ v ∈ part, Addressable v) : itemAt part i = none := by
  unfold itemAt
  split
  · next items n =>
    have hsize := haddressable _ rfl [] items (.here _)
    exact List.getElem?_eq_none (Nat.le_trans hsize hlong)
  · rfl

/-! ## Extracting -/

theorem extract_of_parse?_none (h : parse? p = none) (document : Option Value) :
    extract document p = .ok none := by
  rw [extract, h]

theorem extract_of_parse? (h : parse? p = some first) (document : Option Value) :
    extract document p = followAll first document := by
  rw [extract, h]

theorem extract_none (path : String) : extract none path = .ok none := by
  cases hparse : parse? path with
  | none => exact extract_of_parse?_none hparse none
  | some segments => rw [extract_of_parse? hparse, followAll_none]

theorem extract_point (hextract : extract document p = .ok part) (q : String) :
    extract document (p ++ "." ++ q) = extract part q := by
  have hwhole := parse?_point p q
  cases hp : parse? p with
  | none =>
    -- what the first text spoils, the second one does not mend, and it leads nowhere from nowhere
    rw [hp, Option.bind_none] at hwhole
    rw [extract_of_parse?_none hp] at hextract
    obtain rfl := Except.ok.inj hextract
    rw [extract_of_parse?_none hwhole, extract_none]
  | some first =>
    rw [hp, Option.bind_some] at hwhole
    rw [extract_of_parse? hp] at hextract
    cases hq : parse? q with
    | none =>
      rw [hq, Option.map_none] at hwhole
      rw [extract_of_parse?_none hwhole, extract_of_parse?_none hq]
    | some second =>
      rw [hq, Option.map_some] at hwhole
      rw [extract_of_parse? hwhole, extract_of_parse? hq, followAll_append, hextract]
      rfl

theorem extract_place (hextract : extract document p = .ok part)
    (haddressable : ∀ v ∈ part, Addressable v) (i : Int) :
    extract document (p ++ "[" ++ toString i ++ "]") = .ok (itemAt part i) := by
  have hwhole := parse?_place p i
  cases hp : parse? p with
  | none =>
    rw [hp, Option.bind_none] at hwhole
    rw [extract_of_parse?_none hp] at hextract
    obtain rfl := Except.ok.inj hextract
    rw [extract_of_parse?_none hwhole]
    rfl
  | some first =>
    rw [hp, Option.bind_some] at hwhole
    rw [extract_of_parse? hp] at hextract
    by_cases hshort : i.natAbs < 10 ^ Number.maxDigits
    · rw [if_pos hshort] at hwhole
      rw [extract_of_parse? hwhole, followAll_append, hextract]
      exact followAll_place part i
    · rw [if_neg hshort] at hwhole
      rw [extract_of_parse?_none hwhole, itemAt_eq_none (Nat.le_of_not_lt hshort) haddressable]

/-- What is found at a path can be searched as the document itself can. -/
theorem addressable_of_extract (hextract : extract document p = .ok part)
    (haddressable : ∀ v ∈ document, Addressable v) : ∀ v ∈ part, Addressable v := by
  intro w hw
  obtain rfl : part = some w := hw
  cases document with
  | none =>
    rw [extract_none] at hextract
    cases hextract
  | some v =>
    obtain ⟨location, hlocated⟩ := exists_located_of_extract hextract
    exact (haddressable v rfl).of_located hlocated

/-- A path after another one goes on from the part at the first one, and a place in brackets takes
an item of that part; where the first one leads nowhere, so does the whole. -/
theorem extract_append (document : Option Value) (hp : Short p) (hq : Short q) :
    ∃ part result, extract document p = .ok part ∧ extract part q = .ok result ∧
      extract document (p ++ "." ++ q) = .ok result ∧
      ((∀ v ∈ document, Addressable v) →
        ∀ i : Int, extract document (p ++ "[" ++ toString i ++ "]") = .ok (itemAt part i)) := by
  obtain ⟨part, hpart⟩ := hp.exists_extract document
  obtain ⟨result, hresult⟩ := hq.exists_extract part
  refine ⟨part, result, hpart, hresult, ?_, ?_⟩
  · rw [extract_point hpart, hresult]
  · intro haddressable
    exact extract_place hpart (addressable_of_extract hpart haddressable)

theorem extract_append_bracket :
    Short "jobs]" ∧ Short "1.0.last run" ∧ Addressable bracketDocument ∧
      extract (some bracketDocument) ("jobs]" ++ "." ++ "1.0.last run") = .ok (some (.int 7)) ∧
      extract (some bracketDocument) ("jobs]" ++ "[" ++ toString (-1 : Int) ++ "]") = .ok none := by
  have hjobs : parse? "jobs]" = some [.name "jobs]"] := rfl
  have hrun : parse? "1.0.last run" = some [.name "1", .name "0", .name "last run"] := rfl
  have hjobsShort : Short "jobs]" := short_of_parse? hjobs (by simp [Number.maxDigits])
  have hrunShort : Short "1.0.last run" := short_of_parse? hrun (by simp [Number.maxDigits])
  obtain ⟨part, result, hpart, hresult, hpoint, hplace⟩ :=
    extract_append (some bracketDocument) hjobsShort hrunShort
  have hsome : ∀ v ∈ some bracketDocument, Addressable v := by
    rintro v ⟨⟩
    exact addressable_bracketDocument
  obtain rfl := Except.ok.inj hpart
  obtain rfl := Except.ok.inj hresult
  exact ⟨hjobsShort, hrunShort, addressable_bracketDocument, hpoint, hplace hsome (-1)⟩

end RestDemo.Path
