import Mathlib.Data.List.Basic
import Mathlib.Data.List.Induction
import Mathlib.Data.List.Infix
import RestDemo.Proofs.Template.Pass

/-!
# The order of variables

The variables of a value come in the order in which a reader meets them who goes through its texts
from the first one to the last one, and through each from left to right. `occurrences` has a name
for every token that is read in this way; the variables are what is left of it when every name
stays only where it first comes (`variablesIn_reading_order`). Repetitions are taken out of every
text and at every level of the value, and this comes to the same, for what is taken out of a part
is taken out of the whole in any case (`unique_unique_append`).
-/

namespace RestDemo.Template

variable {cs ds : List Char} {c : Char} {text name : String} {xs ys ys' : List String}

/-! ## Tokens -/

/-- The name of the token that a text begins with, if it begins with one. -/
def tokenAt? : List Char → Option String
  | '$' :: c :: cs =>
    if isNameStart c then some (String.ofList (c :: cs.takeWhile isNameChar)) else none
  | _ => none

/-- The names of the tokens of a text: of the one at its first place, if there is one, of the one
at its second place, and so on. -/
def tokens (text : String) : List String :=
  text.toList.tails.filterMap tokenAt?

/-- Somewhere in the text a dollar sign has the name after it, and the name ends there. -/
def HasToken (text name : String) : Prop :=
  ∃ before after, text.toList = before ++ ('$' :: name.toList ++ after) ∧
    IsName name.toList ∧ Detached after

theorem takeWhile_of_detached (hds : Detached ds) : ds.takeWhile isNameChar = [] := by
  cases ds with
  | nil => rfl
  | cons d ds => exact List.takeWhile_cons_of_neg (hds d rfl)

theorem takeWhile_append_of_detached (hds : Detached ds) (cs : List Char) :
    (cs ++ ds).takeWhile isNameChar = cs.takeWhile isNameChar := by
  induction cs with
  | nil => exact takeWhile_of_detached hds
  | cons c cs ih => rw [List.cons_append, List.takeWhile_cons, List.takeWhile_cons, ih]

theorem tokenAt?_of_ne (h : c ≠ '$') (cs : List Char) : tokenAt? (c :: cs) = none := by
  unfold tokenAt?
  split
  · next heq => exact absurd (List.cons.inj heq).1 h
  · rfl

theorem tokenAt?_eq_some_iff : tokenAt? cs = some name ↔
    ∃ after, cs = '$' :: name.toList ++ after ∧ IsName name.toList ∧ Detached after := by
  constructor
  · intro h
    unfold tokenAt? at h
    split at h
    · next c cs =>
      split at h
      · next hc =>
        obtain rfl := Option.some.inj h
        refine ⟨cs.dropWhile isNameChar, ?_, ?_, detached_dropWhile cs⟩
        · simp
        · rw [String.toList_ofList]
          exact isName_takeWhile hc cs
      · cases h
    · cases h
  · rintro ⟨after, rfl, ⟨c, rest, hname, hc, hrest⟩, hafter⟩
    have hwhole : rest.takeWhile isNameChar = rest := List.takeWhile_eq_self_iff.2 hrest
    rw [hname, List.cons_append, List.cons_append, tokenAt?, if_pos hc,
      takeWhile_append_of_detached hafter, hwhole, ← hname, String.ofList_toList]

theorem mem_tokens_iff : name ∈ tokens text ↔ HasToken text name := by
  rw [tokens, List.mem_filterMap]
  constructor
  · rintro ⟨cs, hcs, htoken⟩
    obtain ⟨before, hbefore⟩ := (List.mem_tails _ _).1 hcs
    obtain ⟨after, rfl, hname, hafter⟩ := tokenAt?_eq_some_iff.1 htoken
    exact ⟨before, after, hbefore.symm, hname, hafter⟩
  · rintro ⟨before, after, htext, hname, hafter⟩
    refine ⟨_, (List.mem_tails _ _).2 ⟨before, htext.symm⟩, ?_⟩
    exact tokenAt?_eq_some_iff.2 ⟨after, rfl, hname, hafter⟩

/-! ## Tokens and pieces -/

/-- What comes after it, detached from it, does not change the token that a text begins with. -/
theorem tokenAt?_append (hds : Detached ds) (c : Char) (cs : List Char) :
    tokenAt? (c :: cs ++ ds) = tokenAt? (c :: cs) := by
  by_cases hc : c = '$'
  · subst hc
    cases cs with
    | nil =>
      cases ds with
      | nil => rfl
      | cons d ds =>
        have hstart : ¬ isNameStart d := mt isNameChar_of_isNameStart (hds d rfl)
        exact if_neg hstart
    | cons d cs =>
      rw [List.cons_append, List.cons_append, tokenAt?, tokenAt?,
        takeWhile_append_of_detached hds]
  · rw [List.cons_append, tokenAt?_of_ne hc, tokenAt?_of_ne hc]

theorem tokens_append (a : String) {b : String} (hb : Detached b.toList) :
    tokens (a ++ b) = tokens a ++ tokens b := by
  unfold tokens
  rw [String.toList_append]
  induction a.toList with
  | nil => rfl
  | cons c cs ih =>
    rw [List.cons_append, List.tails_cons, List.tails_cons, List.filterMap_cons,
      List.filterMap_cons, ← List.cons_append, tokenAt?_append hb, ih]
    cases tokenAt? (c :: cs) <;> rfl

theorem tails_tokenless (h : Tokenless cs) : cs.tails.filterMap tokenAt? = [] := by
  rw [List.filterMap_eq_nil_iff]
  intro ds hds
  by_contra hsome
  obtain ⟨name, htoken⟩ := Option.ne_none_iff_exists'.1 hsome
  obtain ⟨after, rfl, ⟨c, rest, hname, hc, -⟩, -⟩ := tokenAt?_eq_some_iff.1 htoken
  have hbegins : ['$', c] <+: '$' :: name.toList ++ after := ⟨rest ++ after, by simp [hname]⟩
  exact h c hc (hbegins.isInfix.trans ((List.mem_tails _ _).1 hds).isInfix)

theorem dollar_not_mem_of_isName (h : IsName cs) : '$' ∉ cs := by
  obtain ⟨c, rest, rfl, hc, hrest⟩ := h
  have hdollar : ¬ isNameChar '$' := by decide
  rw [List.mem_cons, not_or]
  constructor
  · rintro rfl
    exact hdollar (isNameChar_of_isNameStart hc)
  · intro hmem
    exact hdollar (hrest _ hmem)

theorem tokens_variable (h : IsName name.toList) : tokens ("$" ++ name) = [name] := by
  have htext : ("$" ++ name).toList = '$' :: name.toList := by simp
  have hdetached : Detached [] := by simp [Detached]
  have htoken : tokenAt? ('$' :: name.toList) = some name :=
    tokenAt?_eq_some_iff.2 ⟨[], (List.append_nil _).symm, h, hdetached⟩
  have hrest : name.toList.tails.filterMap tokenAt? = [] :=
    tails_tokenless (tokenless_of_not_mem (dollar_not_mem_of_isName h))
  rw [tokens, htext, List.tails_cons, List.filterMap_cons, htoken, hrest]

/-- The reader of templates makes a piece of every token, and no other variables. -/
theorem filterMap_name?_pieces (text : String) :
    (pieces text).filterMap Piece.name? = tokens text := by
  induction text using text_induction with
  | plain text h => rw [pieces_tokenless h, filterMap_name?_chars, tokens, tails_tokenless h]
  | token name h =>
    rw [pieces_variable h, tokens_variable h]
    rfl
  | append a b hb iha ihb =>
    rw [pieces_append a hb, List.filterMap_append, iha, ihb, tokens_append a hb]

/-! ## Repetitions -/

theorem unique_of_nodup (h : xs.Nodup) : unique xs = xs := by
  induction xs with
  | nil => rfl
  | cons x xs ih =>
    rw [List.nodup_cons] at h
    rw [unique, ih h.2, List.filter_eq_self.2]
    intro y hy
    have hne : y ≠ x := fun heq => h.1 (heq ▸ hy)
    exact decide_eq_true hne

theorem unique_unique (xs : List String) : unique (unique xs) = unique xs :=
  unique_of_nodup (nodup_unique xs)

/-- Repetitions in the parts make no difference to the whole, whether or not they have been taken
out before. -/
theorem unique_unique_append (xs : List String) (hys : unique ys = unique ys') :
    unique (unique xs ++ ys) = unique (xs ++ ys') := by
  rw [unique_append, unique_append, unique_unique, hys]
  simp only [mem_unique]

theorem unique_eq_eraseDups (xs : List String) : unique xs = xs.eraseDups := by
  induction xs using List.reverseRecOn with
  | nil => rfl
  | append_singleton xs x ih =>
    rw [unique_append, List.eraseDups_append, ih]
    by_cases hx : x ∈ xs <;> simp [unique, List.removeAll, List.eraseDups_cons, hx]

theorem pairwise_unique (xs : List String) :
    (unique xs).Pairwise fun a b => xs.idxOf a < xs.idxOf b := by
  induction xs with
  | nil => exact .nil
  | cons x xs ih =>
    rw [unique, List.pairwise_cons, List.pairwise_filter]
    constructor
    · intro y hy
      have hne : x ≠ y := by
        rintro rfl
        simp at hy
      rw [List.idxOf_cons_self, List.idxOf_cons_ne _ hne]
      exact Nat.succ_pos _
    · refine ih.imp fun hlt hy hz => ?_
      have hy' := of_decide_eq_true hy
      have hz' := of_decide_eq_true hz
      rw [List.idxOf_cons_ne _ (Ne.symm hy'), List.idxOf_cons_ne _ (Ne.symm hz')]
      exact Nat.succ_lt_succ hlt

/-! ## Values as they are read -/

mutual

/-- The texts in a value as they are read, the parts of a part before the next part. The names of
mappings are not among them. -/
def leaves : Value → List String
  | .text s => [s]
  | .list items => leavesInItems items
  | .object members => leavesInMembers members
  | _ => []

def leavesInItems : List Value → List String
  | [] => []
  | v :: vs => leaves v ++ leavesInItems vs

def leavesInMembers : List (String × Value) → List String
  | [] => []
  | (_, v) :: ms => leaves v ++ leavesInMembers ms

end

/-- The names of the tokens in a value as they are read, one for each token. -/
def occurrences (v : Value) : List String :=
  (leaves v).flatMap tokens

theorem variablesOf_eq_unique (text : String) : variablesOf text = unique (tokens text) := by
  rw [variablesOf, filterMap_name?_pieces]

mutual

theorem variablesIn_eq_unique : ∀ v, variablesIn v = unique (occurrences v)
  | .text s => by
    rw [variablesIn, variablesOf_eq_unique, occurrences, leaves, List.flatMap_singleton]
  | .list items => unique_variablesInItems items
  | .object members => unique_variablesInMembers members
  | .null | .bool _ | .int _ | .float _ => rfl

theorem unique_variablesInItems :
    ∀ vs, unique (variablesInItems vs) = unique ((leavesInItems vs).flatMap tokens)
  | [] => rfl
  | v :: vs => by
    -- The first item comes without its repetitions, the rest only without those within an item.
    rw [variablesInItems, leavesInItems, List.flatMap_append, variablesIn_eq_unique v]
    exact unique_unique_append (occurrences v) (unique_variablesInItems vs)

theorem unique_variablesInMembers :
    ∀ ms, unique (variablesInMembers ms) = unique ((leavesInMembers ms).flatMap tokens)
  | [] => rfl
  | (_, v) :: ms => by
    rw [variablesInMembers, leavesInMembers, List.flatMap_append, variablesIn_eq_unique v]
    exact unique_unique_append (occurrences v) (unique_variablesInMembers ms)

end

theorem mem_occurrences_iff {v : Value} :
    name ∈ occurrences v ↔ ∃ text ∈ leaves v, HasToken text name := by
  simp only [occurrences, List.mem_flatMap, mem_tokens_iff]

/-- The variables of a value are the names of the tokens in its texts, each once, in the order in
which they first come as it is read: what is left of all of them without the repetitions. -/
theorem variablesIn_reading_order (v : Value) :
    variablesIn v = (occurrences v).eraseDups ∧
    (∀ name, name ∈ variablesIn v ↔ ∃ text ∈ leaves v, HasToken text name) ∧
    (variablesIn v).Nodup ∧
    (variablesIn v).Pairwise fun a b => (occurrences v).idxOf a < (occurrences v).idxOf b := by
  have hunique := variablesIn_eq_unique v
  refine ⟨?_, ?_, ?_, ?_⟩
  · rw [hunique, unique_eq_eraseDups]
  · intro name
    rw [hunique, mem_unique, mem_occurrences_iff]
  · rw [hunique]
    exact nodup_unique (occurrences v)
  · rw [hunique]
    exact pairwise_unique (occurrences v)

/-- A name that is met first in one entry, and again deeper in the next one, comes before what is
met between the two. -/
example :
    let v := Value.object [("header", .text "Bearer $token"),
      ("$items", .list [.text "$a/$a", .object [("x", .text "$token")]]), ("n", .int 3)]
    occurrences v = ["token", "a", "a", "token"] ∧ variablesIn v = ["token", "a"] := by
  decide

end RestDemo.Template
