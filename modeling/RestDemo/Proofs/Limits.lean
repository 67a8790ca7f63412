import RestDemo.Binding
import RestDemo.Condition.Basic
import RestDemo.Template

/-!
# Limits on numbers

Integers are read and written up to a number of digits, and turned into floating-point numbers up to
a size. Past that there is a fault, and for texts that are filled, written or read as conditions and
paths it is the only one (`OnlyLimits`).
-/

namespace RestDemo

/-- Operations in a row come to a result through the results of each. -/
theorem ok_of_bind {ε α β : Type} {x : Except ε α} {f : α → Except ε β} {b : β}
    (h : x >>= f = .ok b) : ∃ a, x = .ok a ∧ f a = .ok b := by
  cases x with
  | ok a => exact ⟨a, rfl, h⟩
  | error e => cases h

theorem bind_ok_iff {ε α β : Type} {x : Except ε α} {f : α → Except ε β} {b : β} :
    x >>= f = .ok b ↔ ∃ a, x = .ok a ∧ f a = .ok b := by
  cases x <;> simp [bind, Except.bind]

/-- They come to an error with the first of them that does. -/
theorem bind_error_iff {ε α β : Type} {x : Except ε α} {f : α → Except ε β} {e : ε} :
    x >>= f = .error e ↔ x = .error e ∨ ∃ a, x = .ok a ∧ f a = .error e := by
  cases x with
  | ok a => simp [bind, Except.bind]
  | error e' => simp [bind, Except.bind]

theorem ok_of_map {ε α β : Type} {x : Except ε α} {f : α → β} {b : β} (h : x.map f = .ok b) :
    ∃ a, x = .ok a ∧ f a = b := by
  cases x with
  | ok a => exact ⟨a, rfl, Except.ok.inj h⟩
  | error e => cases h

/-- Whether a fault is a limit on numbers. -/
def Fault.isLimit : Fault → Bool
  | tooManyDigits _ | tooLong | tooLarge => true
  | _ => false

/-- The only faults that an operation may end with are limits on numbers. -/
def OnlyLimits {α : Type} (x : Except Fault α) : Prop :=
  ∀ f, x = .error f → f.isLimit

namespace OnlyLimits

variable {α β : Type}

theorem ok (a : α) : OnlyLimits (.ok a) := fun _ h => nomatch h

theorem error {f : Fault} (hf : f.isLimit) : OnlyLimits (.error f : Except Fault α) := by
  intro g hg
  obtain rfl := Except.error.inj hg
  exact hf

theorem bind {x : Except Fault α} {g : α → Except Fault β} (hx : OnlyLimits x)
    (hg : ∀ a, OnlyLimits (g a)) : OnlyLimits (x >>= g) := by
  cases x with
  | ok a => exact hg a
  | error f => exact error (hx f rfl)

theorem map {x : Except Fault α} {g : α → β} (hx : OnlyLimits x) : OnlyLimits (x.map g) := by
  cases x with
  | ok a => exact ok (g a)
  | error f => exact error (hx f rfl)

end OnlyLimits

/-! ## Values in texts -/

namespace Number

theorem onlyLimits_intText (n : Int) : OnlyLimits (intText n) := by
  unfold intText
  cases intText? n with
  | some cs => exact .ok cs
  | none => exact .error rfl

end Number

namespace Json

theorem onlyLimits_writeScalar (v : Value) : OnlyLimits (writeScalar v) := by
  match v with
  | .int n => exact Number.onlyLimits_intText n
  | .bool true | .bool false => exact .ok _
  | .null | .float _ | .text _ | .list _ | .object _ => exact .ok _

mutual

theorem onlyLimits_write (sep : Separators) : ∀ v, OnlyLimits (write sep v)
  | .list items => by
    rw [write]
    exact (onlyLimits_writeItems sep items).bind fun _ => .ok _
  | .object members => by
    rw [write]
    exact (onlyLimits_writeMembers sep members).bind fun _ => .ok _
  | .null => .ok _
  | .bool b => by
    rw [write.eq_def]
    exact onlyLimits_writeScalar (.bool b)
  | .int n => by
    rw [write.eq_def]
    exact onlyLimits_writeScalar (.int n)
  | .float x => .ok _
  | .text s => .ok _

theorem onlyLimits_writeItems (sep : Separators) : ∀ vs, OnlyLimits (writeItems sep vs)
  | [] => .ok []
  | [v] => onlyLimits_write sep v
  | v :: v' :: vs =>
    (onlyLimits_write sep v).bind fun _ => (onlyLimits_writeItems sep (v' :: vs)).bind fun _ => .ok _

theorem onlyLimits_writeMembers (sep : Separators) : ∀ ms, OnlyLimits (writeMembers sep ms)
  | [] => .ok []
  | [(_, v)] => (onlyLimits_write sep v).bind fun _ => .ok _
  | (_, v) :: m :: ms =>
    (onlyLimits_write sep v).bind fun _ => (onlyLimits_writeMembers sep (m :: ms)).bind fun _ => .ok _

end

end Json

namespace Template

theorem onlyLimits_embed (v : Value) : OnlyLimits (embed v) := by
  match v with
  | .null | .bool true | .bool false | .text _ => exact .ok _
  | .int n => exact Number.onlyLimits_intText n
  | .float x =>
    simp only [embed]
    cases Number.whole? x with
    | some n => exact Number.onlyLimits_intText n
    | none => exact .ok _
  | .list items => exact Json.onlyLimits_write Json.compact (.list items)
  | .object members => exact Json.onlyLimits_write Json.compact (.object members)

theorem onlyLimits_fillPieces (store : Store) : ∀ ps, OnlyLimits (fillPieces store ps)
  | [] => .ok []
  | p :: ps => by
    refine OnlyLimits.bind ?_ fun _ => (onlyLimits_fillPieces store ps).bind fun _ => .ok _
    cases p with
    | char c => exact .ok [c]
    | «variable» name =>
      simp only [fillPiece]
      cases Table.get? name store with
      | some v => exact onlyLimits_embed v
      | none => exact .ok _

theorem onlyLimits_fill (store : Store) (text : String) : OnlyLimits (fill store text) :=
  (onlyLimits_fillPieces store (pieces text)).map

end Template

/-! ## Conditions and paths -/

namespace Path

theorem onlyLimits_follow (segment : Segment) (v : Value) : OnlyLimits (follow segment v) := by
  unfold follow
  split
  · exact .ok _
  · exact .ok _
  · split
    · split
      · exact .ok _
      · exact .error rfl
    · exact .ok none
  · exact .ok none

theorem onlyLimits_followAll :
    ∀ (segments : List Segment) (document : Option Value), OnlyLimits (followAll segments document)
  | [], document => .ok document
  | _ :: _, none => .ok none
  | segment :: rest, some v => by
    unfold followAll
    cases hfollow : follow segment v with
    | ok part => exact onlyLimits_followAll rest part
    | error f => exact .error (onlyLimits_follow segment v f hfollow)

theorem onlyLimits_extract (document : Option Value) (path : String) :
    OnlyLimits (extract document path) := by
  unfold extract
  cases parse? path with
  | some segments => exact onlyLimits_followAll segments document
  | none => exact .ok none

end Path

namespace Literal

theorem onlyLimits_read (cs : List Char) : OnlyLimits (read cs) := by
  unfold read
  split
  · exact .ok _
  split
  · exact .ok _
  split
  · exact .ok _
  split
  · exact .ok _
  split
  · rename_i n _
    unfold Numeral.value
    split
    · split
      · exact .ok _
      · exact .error rfl
    · exact .ok _
  · exact .ok _

end Literal

namespace Condition

theorem onlyLimits_evaluate (text : String) (document : Option Value) :
    OnlyLimits (evaluate text document) := by
  unfold evaluate
  refine OnlyLimits.bind ?_ fun condition => ?_
  · unfold parse?
    split
    · exact .ok none
    · exact (Literal.onlyLimits_read _).map
  · cases condition with
    | none => exact .ok Verdict.unparsable
    | some condition => exact (Path.onlyLimits_extract document condition.path).bind fun _ => .ok _

end Condition

/-! ## Saving -/

namespace Binding

theorem onlyLimits_found (status : Int) (document : Value) (path : String) :
    OnlyLimits (found status document (.text path)) := by
  simp only [found]
  split
  · exact .ok _
  · split
    · exact .ok none
    · exact Path.onlyLimits_extract _ path

/-- Every entry is a path or the word for the status. -/
def Paths (members : Table Value) : Prop :=
  ∀ entry ∈ members, ∃ path, entry.2 = .text path

theorem isLimit_of_saveEntries {status : Int} {document : Value} {f : Fault} :
    ∀ {members : Table Value} {saved : Saved}, Paths members →
      (saveEntries status document members saved).2 = some f → f.isLimit
  | [], _, _, h => nomatch h
  | (name, v) :: rest, saved, hpaths, h => by
    obtain ⟨path, hpath⟩ := hpaths (name, v) List.mem_cons_self
    obtain rfl : v = .text path := hpath
    have hrest : Paths rest := fun entry hmem => hpaths entry (List.mem_cons_of_mem _ hmem)
    unfold saveEntries at h
    match hfound : found status document (.text path) with
    | .error g =>
      rw [hfound] at h
      obtain rfl : g = f := Option.some.inj h
      exact onlyLimits_found status document path g hfound
    | .ok none =>
      rw [hfound] at h
      exact isLimit_of_saveEntries hrest h
    | .ok (some v) =>
      rw [hfound] at h
      exact isLimit_of_saveEntries hrest h

end Binding

end RestDemo
