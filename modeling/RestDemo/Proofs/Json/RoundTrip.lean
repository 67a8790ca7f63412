import RestDemo.Proofs.Json.Integer
import RestDemo.Proofs.Json.Quoted

/-!
# Documents written and read

A value that holds no floating-point number (`Exact`) is read back from its text as it was, in every
layout that has nothing but gaps after its commas and colons (`read_write`). The induction is on the
value: `ReadsBack` says of a text that it is how the value is written, that it starts as a value
does, and that a reader with fuel and depth enough takes just the value from the front of it.
-/

namespace RestDemo

namespace Json

/-- Values without floating-point numbers, with integers that are not too long to be written and
mappings in which no name comes twice. -/
inductive Exact : Value → Prop
  | null : Exact .null
  | bool (b : Bool) : Exact (.bool b)
  | int (n : Int) (short : n.natAbs < 10 ^ Number.maxDigits) : Exact (.int n)
  | text (s : String) : Exact (.text s)
  | list (items : List Value) (parts : ∀ v ∈ items, Exact v) : Exact (.list items)
  | object (members : Table Value) (once : members.names.Nodup)
      (parts : ∀ p ∈ members, Exact p.2) : Exact (.object members)

theorem Exact.digit {n : Int} (h : n.natAbs < 10) : Exact (.int n) := by
  have hlimit : 10 ^ 1 ≤ 10 ^ Number.maxDigits := Nat.pow_le_pow_right (by decide) (by decide)
  exact .int n (Nat.lt_of_lt_of_le h hlimit)

/-- A comma stands between items and a colon before an entry, and after them nothing but gaps. -/
structure Separators.Plain (sep : Separators) : Prop where
  item : ∃ gaps, sep.item = ',' :: gaps ∧ ∀ c ∈ gaps, isGap c
  entry : ∃ gaps, sep.entry = ':' :: gaps ∧ ∀ c ∈ gaps, isGap c

theorem plain_compact : compact.Plain :=
  ⟨⟨[], rfl, fun _ h => nomatch h⟩, ⟨[], rfl, fun _ h => nomatch h⟩⟩

theorem plain_spaced : spaced.Plain :=
  ⟨⟨[' '], rfl, by simp [isGap]⟩, ⟨[' '], rfl, by simp [isGap]⟩⟩

/-! ## Where values start -/

/-- The text starts as a value or a name does: with no gap, no closing bracket and no byte order
mark. -/
def Starts (cs : List Char) : Prop :=
  ∃ c rest, cs = c :: rest ∧ isGap c = false ∧ c ≠ ']' ∧ c ≠ '\x7d' ∧ c ≠ '\ufeff'

variable {sep : Separators} {v : Value} {cs ds rest : List Char}

namespace Starts

theorem append (h : Starts cs) (rest : List Char) : Starts (cs ++ rest) := by
  obtain ⟨c, cs, rfl, hc⟩ := h
  exact ⟨c, cs ++ rest, rfl, hc⟩

theorem length_pos (h : Starts cs) : 0 < cs.length := by
  obtain ⟨c, cs, rfl, -⟩ := h
  exact Nat.succ_pos _

theorem skipGaps_eq (h : Starts cs) : skipGaps cs = cs := by
  obtain ⟨c, cs, rfl, hgap, -⟩ := h
  rw [skipGaps, List.dropWhile_cons_of_neg (by simp [hgap])]

theorem skipGaps_append {gaps : List Char} (h : Starts cs) (hgaps : ∀ c ∈ gaps, isGap c) :
    skipGaps (gaps ++ cs) = cs := by
  rw [skipGaps, List.dropWhile_append_of_pos hgaps]
  exact h.skipGaps_eq

end Starts

theorem starts_writeText (s : String) : Starts (writeText s) :=
  ⟨'"', _, rfl, by decide, by decide, by decide, by decide⟩

/-! ## Texts that are read back -/

/-- The value is written as the text, and read back from it. -/
structure ReadsBack (sep : Separators) (v : Value) (cs : List Char) : Prop where
  written : write sep v = .ok cs
  starts : Starts cs
  read : ∀ {rest : List Char} {fuel depth : Nat}, Follows rest → 2 * cs.length ≤ fuel →
    v.depth ≤ depth → readValue fuel depth (cs ++ rest) = .ok (v, rest)

/-- The items of a list are written as the text, and read back from it up to the bracket. -/
structure ItemsReadBack (sep : Separators) (vs : List Value) (cs : List Char) : Prop where
  written : writeItems sep vs = .ok cs
  starts : Starts cs
  read : ∀ {rest : List Char} {fuel depth : Nat}, 2 * cs.length + 1 ≤ fuel →
    Value.depthItems vs ≤ depth → readItems fuel depth (cs ++ ']' :: rest) = .ok (vs, rest)

/-- The entries of a mapping are written as the text, and read back from it up to the brace. -/
structure MembersReadBack (sep : Separators) (ms : List (String × Value)) (cs : List Char) :
    Prop where
  written : writeMembers sep ms = .ok cs
  starts : Starts cs
  read : ∀ {rest : List Char} {fuel depth : Nat}, 2 * cs.length + 1 ≤ fuel →
    Value.depthMembers ms ≤ depth → readMembers fuel depth (cs ++ '}' :: rest) = .ok (ms, rest)

/-! ## Names and numbers -/

/-- What starts with neither a quote nor an opening bracket is a name or a number. -/
theorem readValue_atom {c : Char} (htext : c ≠ '"') (hlist : c ≠ '[') (hobject : c ≠ '\x7b')
    (fuel depth : Nat) (cs : List Char) :
    readValue (fuel + 1) depth (c :: cs) = readAtom (c :: cs) := by
  rw [readValue.eq_def]
  dsimp only
  split
  · next heq => exact absurd (List.cons.inj heq).1 htext
  · next heq => exact absurd (List.cons.inj heq).1 hlist
  · next heq => exact absurd (List.cons.inj heq).1 hobject
  · rfl

theorem readsBack_null (sep : Separators) : ReadsBack sep .null "null".toList where
  written := rfl
  starts := ⟨'n', _, rfl, by decide, by decide, by decide, by decide⟩
  read := by
    intro rest fuel depth _ hfuel _
    obtain ⟨fuel, rfl⟩ := Nat.exists_eq_add_of_le' (Nat.le_trans (by decide) hfuel : 1 ≤ fuel)
    exact readValue_atom (by decide) (by decide) (by decide) ..

theorem readsBack_bool (sep : Separators) (b : Bool) :
    ReadsBack sep (.bool b) (if b then "true".toList else "false".toList) where
  written := by cases b <;> rfl
  starts := by
    cases b
    · exact ⟨'f', _, rfl, by decide, by decide, by decide, by decide⟩
    · exact ⟨'t', _, rfl, by decide, by decide, by decide, by decide⟩
  read := by
    intro rest fuel depth _ hfuel _
    have hpos : 1 ≤ fuel := by
      cases b <;> exact Nat.le_trans (by decide) hfuel
    obtain ⟨fuel, rfl⟩ := Nat.exists_eq_add_of_le' hpos
    cases b <;> exact readValue_atom (by decide) (by decide) (by decide) ..

theorem starts_intDigits (n : Int) :
    ∃ c cs, Number.intDigits n = c :: cs ∧ isGap c = false ∧
      ∀ d ∈ ['"', '[', '\x7b', ']', '\x7d', '\ufeff'], c ≠ d := by
  obtain ⟨d, ds, -, hd, ⟨-, hwritten⟩ | ⟨-, hwritten⟩⟩ := intDigits_cases n
  · exact ⟨'-', d :: ds, hwritten, by decide, by simp⟩
  · have hne (c : Char) (hc : ¬ c.isDigit) : d ≠ c := fun h => hc (h ▸ hd)
    refine ⟨d, ds, hwritten, ?_, ?_⟩
    · simp [isGap, hne _ (by decide : ¬ ' '.isDigit), hne _ (by decide : ¬ '\t'.isDigit),
        hne _ (by decide : ¬ '\n'.isDigit), hne _ (by decide : ¬ '\r'.isDigit)]
    · intro c hc
      apply hne c
      simp only [List.mem_cons, List.not_mem_nil, or_false] at hc
      rcases hc with rfl | rfl | rfl | rfl | rfl | rfl <;> decide

theorem readsBack_int {n : Int} (short : n.natAbs < 10 ^ Number.maxDigits) (sep : Separators) :
    ReadsBack sep (.int n) (Number.intDigits n) := by
  obtain ⟨c, cs, hwritten, hgap, hne⟩ := starts_intDigits n
  have hlength : (Nat.toDigits 10 n.natAbs).length ≤ Number.maxDigits :=
    (Nat.length_toDigits_le_iff (by decide) (by decide)).2 short
  refine ⟨?_, ⟨c, cs, hwritten, hgap, hne _ (by decide), hne _ (by decide), hne _ (by decide)⟩, ?_⟩
  · rw [write.eq_def]
    dsimp only [writeScalar, Number.intText, Number.intText?]
    rw [if_pos hlength]
  · intro rest fuel depth hfollows hfuel _
    rw [← readAtom_intDigits short hfollows, hwritten, List.cons_append]
    rw [hwritten, List.length_cons] at hfuel
    obtain ⟨fuel, rfl⟩ := Nat.exists_eq_add_of_le' (by omega : 1 ≤ fuel)
    exact readValue_atom (hne _ (by decide)) (hne _ (by decide)) (hne _ (by decide)) ..

/-! ## Texts -/

theorem readValue_text (fuel depth : Nat) (cs : List Char) :
    readValue (fuel + 1) depth ('"' :: cs) =
      (readText (cs.length + 1) 0 cs).map fun (s, rest) => (.text (String.ofList s), rest) := rfl

theorem readsBack_text (sep : Separators) (s : String) : ReadsBack sep (.text s) (writeText s) where
  written := rfl
  starts := starts_writeText s
  read := by
    intro rest fuel depth _ hfuel _
    obtain ⟨after, hafter, hread⟩ := readText_writeText s rest
    have hpos := (starts_writeText s).length_pos
    obtain ⟨fuel, rfl⟩ := Nat.exists_eq_add_of_le' (by omega : 1 ≤ fuel)
    rw [hafter, readValue_text, hread, Except.map]
    dsimp only
    rw [String.ofList_toList]

/-! ## Lists -/

/-- A bracket before the start of an item opens a list with items. -/
theorem readValue_list (h : Starts cs) (fuel depth : Nat) :
    readValue (fuel + 1) (depth + 1) ('[' :: cs) =
      (readItems fuel depth cs).map fun (items, rest) => (.list items, rest) := by
  have hgaps := h.skipGaps_eq
  obtain ⟨c, cs, rfl, -, hclose, -⟩ := h
  rw [readValue.eq_def]
  simp [hgaps, hclose]

theorem readItems_last {fuel depth : Nat} (h : readValue fuel depth cs = .ok (v, ']' :: rest)) :
    readItems (fuel + 1) depth cs = .ok ([v], rest) := by
  rw [readItems, h]
  rfl

theorem readItems_more {fuel depth : Nat} (h : readValue fuel depth cs = .ok (v, ',' :: rest)) :
    readItems (fuel + 1) depth cs =
      (readItems fuel depth (skipGaps rest)).map fun (vs, rest) => (v :: vs, rest) := by
  rw [readItems, h]
  rfl

theorem readsBack_list_nil (sep : Separators) : ReadsBack sep (.list []) ['[', ']'] where
  written := rfl
  starts := ⟨'[', _, rfl, by decide, by decide, by decide, by decide⟩
  read := by
    intro rest fuel depth _ hfuel hdepth
    obtain ⟨fuel, rfl⟩ := Nat.exists_eq_add_of_le' (Nat.le_trans (by decide) hfuel : 1 ≤ fuel)
    obtain ⟨depth, rfl⟩ := Nat.exists_eq_add_of_le' (Nat.le_trans (by decide) hdepth : 1 ≤ depth)
    rfl

theorem ReadsBack.item (h : ReadsBack sep v cs) : ItemsReadBack sep [v] cs where
  written := h.written
  starts := h.starts
  read := by
    intro rest fuel depth hfuel hdepth
    obtain ⟨fuel, rfl⟩ := Nat.exists_eq_add_of_le' (by omega : 1 ≤ fuel)
    rw [Value.depthItems] at hdepth
    have hfollows : Follows (']' :: rest) := follows_cons (.inr (.inl rfl)) rest
    exact readItems_last (h.read hfollows (by omega) (by omega))

theorem ReadsBack.consItem {v' : Value} {vs : List Value} (hsep : sep.Plain)
    (h : ReadsBack sep v cs) (hvs : ItemsReadBack sep (v' :: vs) ds) :
    ItemsReadBack sep (v :: v' :: vs) (cs ++ (sep.item ++ ds)) where
  written := by
    rw [writeItems, h.written, hvs.written]
    · rfl
    · simp
  starts := h.starts.append _
  read := by
    intro rest fuel depth hfuel hdepth
    obtain ⟨gaps, hitem, hgaps⟩ := hsep.item
    rw [hitem] at hfuel ⊢
    simp only [List.length_append, List.length_cons] at hfuel
    rw [Value.depthItems] at hdepth
    obtain ⟨fuel, rfl⟩ := Nat.exists_eq_add_of_le' (by omega : 1 ≤ fuel)
    have hfollows : Follows (',' :: (gaps ++ (ds ++ ']' :: rest))) := follows_cons (.inl rfl) _
    have hfirst : readValue fuel depth (cs ++ ',' :: (gaps ++ (ds ++ ']' :: rest))) =
        .ok (v, ',' :: (gaps ++ (ds ++ ']' :: rest))) := h.read hfollows (by omega) (by omega)
    have hgoesOn : Starts (ds ++ ']' :: rest) := hvs.starts.append _
    have hothers := readItems_more hfirst
    rw [hgoesOn.skipGaps_append hgaps, hvs.read (by omega) (by omega)] at hothers
    simpa [Except.map] using hothers

theorem ItemsReadBack.list {vs : List Value} (h : ItemsReadBack sep vs cs) :
    ReadsBack sep (.list vs) ('[' :: (cs ++ [']'])) where
  written := by
    rw [write, h.written]
    rfl
  starts := ⟨'[', _, rfl, by decide, by decide, by decide, by decide⟩
  read := by
    intro rest fuel depth _ hfuel hdepth
    rw [List.length_cons, List.length_append, List.length_singleton] at hfuel
    rw [Value.depth] at hdepth
    obtain ⟨fuel, rfl⟩ := Nat.exists_eq_add_of_le' (by omega : 1 ≤ fuel)
    obtain ⟨depth, rfl⟩ := Nat.exists_eq_add_of_le' (by omega : 1 ≤ depth)
    rw [List.cons_append, List.append_assoc, readValue_list (h.starts.append _),
      List.singleton_append, h.read (by omega) (by omega)]
    rfl

/-! ## Mappings -/

/-- A brace before the start of a name opens a mapping with entries. -/
theorem readValue_object (h : Starts cs) (fuel depth : Nat) :
    readValue (fuel + 1) (depth + 1) ('\x7b' :: cs) =
      (readMembers fuel depth cs).map fun (members, rest) =>
        (.object (Table.ofList members), rest) := by
  have hgaps := h.skipGaps_eq
  obtain ⟨c, cs, rfl, -, -, hclose, -⟩ := h
  rw [readValue.eq_def]
  simp [hgaps, hclose]

/-- After a name come a colon and the start of its entry, with nothing but gaps between them. -/
theorem skipGaps_entry (hsep : sep.Plain) (hds : Starts ds) :
    ∃ after, skipGaps (sep.entry ++ ds) = ':' :: after ∧ skipGaps after = ds := by
  obtain ⟨gaps, hentry, hgaps⟩ := hsep.entry
  refine ⟨gaps ++ ds, ?_, hds.skipGaps_append hgaps⟩
  rw [hentry]
  rfl

theorem readMembers_last (hsep : sep.Plain) (hds : Starts ds) {fuel depth : Nat} (k : String)
    (h : readValue fuel depth ds = .ok (v, '\x7d' :: rest)) :
    readMembers (fuel + 1) depth (writeText k ++ (sep.entry ++ ds)) = .ok ([(k, v)], rest) := by
  obtain ⟨text, htext, hname⟩ := readText_writeText k (sep.entry ++ ds)
  obtain ⟨after, hcolon, hafter⟩ := skipGaps_entry hsep hds
  have hclose : skipGaps ('\x7d' :: rest) = '\x7d' :: rest := rfl
  rw [htext, readMembers.eq_def]
  simp only [hname, hcolon, hafter, h, hclose, String.ofList_toList]

theorem readMembers_more (hsep : sep.Plain) (hds : Starts ds) {fuel depth : Nat} (k : String)
    (h : readValue fuel depth ds = .ok (v, ',' :: rest)) :
    readMembers (fuel + 1) depth (writeText k ++ (sep.entry ++ ds)) =
      (readMembers fuel depth (skipGaps rest)).map fun (ms, rest) => ((k, v) :: ms, rest) := by
  obtain ⟨text, htext, hname⟩ := readText_writeText k (sep.entry ++ ds)
  obtain ⟨after, hcolon, hafter⟩ := skipGaps_entry hsep hds
  have hcomma : skipGaps (',' :: rest) = ',' :: rest := rfl
  rw [htext, readMembers.eq_def]
  simp only [hname, hcolon, hafter, h, hcomma, String.ofList_toList]

theorem readsBack_object_nil (sep : Separators) :
    ReadsBack sep (.object []) ['\x7b', '\x7d'] where
  written := rfl
  starts := ⟨'\x7b', _, rfl, by decide, by decide, by decide, by decide⟩
  read := by
    intro rest fuel depth _ hfuel hdepth
    obtain ⟨fuel, rfl⟩ := Nat.exists_eq_add_of_le' (Nat.le_trans (by decide) hfuel : 1 ≤ fuel)
    obtain ⟨depth, rfl⟩ := Nat.exists_eq_add_of_le' (Nat.le_trans (by decide) hdepth : 1 ≤ depth)
    rfl

theorem ReadsBack.member (hsep : sep.Plain) (h : ReadsBack sep v cs) (k : String) :
    MembersReadBack sep [(k, v)] (writeText k ++ (sep.entry ++ cs)) where
  written := by
    rw [writeMembers, h.written]
    rfl
  starts := (starts_writeText k).append _
  read := by
    intro rest fuel depth hfuel hdepth
    simp only [List.length_append] at hfuel
    rw [Value.depthMembers] at hdepth
    obtain ⟨fuel, rfl⟩ := Nat.exists_eq_add_of_le' (by omega : 1 ≤ fuel)
    have hentry : readValue fuel depth (cs ++ '\x7d' :: rest) = .ok (v, '\x7d' :: rest) :=
      h.read (follows_cons (.inr (.inr rfl)) rest) (by omega) (by omega)
    rw [List.append_assoc, List.append_assoc]
    exact readMembers_last hsep (h.starts.append _) k hentry

theorem ReadsBack.consMember {m : String × Value} {ms : List (String × Value)} (hsep : sep.Plain)
    (h : ReadsBack sep v cs) (k : String) (hms : MembersReadBack sep (m :: ms) ds) :
    MembersReadBack sep ((k, v) :: m :: ms)
      (writeText k ++ (sep.entry ++ (cs ++ (sep.item ++ ds)))) where
  written := by
    rw [writeMembers, h.written, hms.written]
    · rfl
    · simp
  starts := (starts_writeText k).append _
  read := by
    intro rest fuel depth hfuel hdepth
    obtain ⟨gaps, hitem, hgaps⟩ := hsep.item
    rw [hitem] at hfuel ⊢
    simp only [List.length_append, List.length_cons] at hfuel
    rw [Value.depthMembers] at hdepth
    obtain ⟨fuel, rfl⟩ := Nat.exists_eq_add_of_le' (by omega : 1 ≤ fuel)
    have hfollows : Follows (',' :: (gaps ++ (ds ++ '\x7d' :: rest))) := follows_cons (.inl rfl) _
    have hentry : readValue fuel depth (cs ++ ',' :: (gaps ++ (ds ++ '\x7d' :: rest))) =
        .ok (v, ',' :: (gaps ++ (ds ++ '\x7d' :: rest))) := h.read hfollows (by omega) (by omega)
    have hgoesOn : Starts (ds ++ '\x7d' :: rest) := hms.starts.append _
    have hothers := readMembers_more hsep (h.starts.append _) k hentry
    rw [hgoesOn.skipGaps_append hgaps, hms.read (by omega) (by omega)] at hothers
    simpa [Except.map] using hothers

/-- A mapping is read up to its closing brace, whatever follows. -/
theorem MembersReadBack.readValue_object {ms : Table Value} (h : MembersReadBack sep ms cs)
    (once : ms.names.Nodup) {rest : List Char} {fuel depth : Nat}
    (hfuel : 2 * ('\x7b' :: (cs ++ ['\x7d'])).length ≤ fuel)
    (hdepth : (Value.object ms).depth ≤ depth) :
    readValue fuel depth ('\x7b' :: (cs ++ ['\x7d']) ++ rest) = .ok (.object ms, rest) := by
  rw [List.length_cons, List.length_append, List.length_singleton] at hfuel
  rw [Value.depth] at hdepth
  obtain ⟨fuel, rfl⟩ := Nat.exists_eq_add_of_le' (by omega : 1 ≤ fuel)
  obtain ⟨depth, rfl⟩ := Nat.exists_eq_add_of_le' (by omega : 1 ≤ depth)
  rw [List.cons_append, List.append_assoc, Json.readValue_object (h.starts.append _),
    List.singleton_append, h.read (by omega) (by omega), Except.map]
  dsimp only
  rw [Table.ofList_of_nodup once]

theorem MembersReadBack.object {ms : Table Value} (h : MembersReadBack sep ms cs)
    (once : ms.names.Nodup) : ReadsBack sep (.object ms) ('\x7b' :: (cs ++ ['\x7d'])) where
  written := by
    rw [write, h.written]
    rfl
  starts := ⟨'\x7b', _, rfl, by decide, by decide, by decide, by decide⟩
  read _ hfuel hdepth := h.readValue_object once hfuel hdepth

/-! ## The round trip -/

mutual

theorem exists_readsBack (hsep : sep.Plain) : ∀ v, Exact v → ∃ cs, ReadsBack sep v cs
  | .null, _ => ⟨_, readsBack_null sep⟩
  | .bool b, _ => ⟨_, readsBack_bool sep b⟩
  | .int _, .int _ short => ⟨_, readsBack_int short sep⟩
  | .float _, h => nomatch h
  | .text s, _ => ⟨_, readsBack_text sep s⟩
  | .list [], _ => ⟨_, readsBack_list_nil sep⟩
  | .list (v :: vs), .list _ parts => by
    obtain ⟨cs, hcs⟩ := exists_itemsReadBack hsep (v :: vs) parts (List.cons_ne_nil v vs)
    exact ⟨_, hcs.list⟩
  | .object [], _ => ⟨_, readsBack_object_nil sep⟩
  | .object (m :: ms), .object _ once parts => by
    obtain ⟨cs, hcs⟩ := exists_membersReadBack hsep (m :: ms) parts (List.cons_ne_nil m ms)
    exact ⟨_, hcs.object once⟩

theorem exists_itemsReadBack (hsep : sep.Plain) : ∀ vs : List Value, (∀ v ∈ vs, Exact v) →
    vs ≠ [] → ∃ cs, ItemsReadBack sep vs cs
  | [], _, hne => absurd rfl hne
  | [v], h, _ => by
    obtain ⟨cs, hcs⟩ := exists_readsBack hsep v (h v List.mem_cons_self)
    exact ⟨cs, hcs.item⟩
  | v :: v' :: vs, h, _ => by
    obtain ⟨hv, hvs⟩ := List.forall_mem_cons.1 h
    obtain ⟨cs, hcs⟩ := exists_readsBack hsep v hv
    obtain ⟨ds, hds⟩ := exists_itemsReadBack hsep (v' :: vs) hvs (List.cons_ne_nil v' vs)
    exact ⟨_, hcs.consItem hsep hds⟩

theorem exists_membersReadBack (hsep : sep.Plain) : ∀ ms : List (String × Value),
    (∀ p ∈ ms, Exact p.2) → ms ≠ [] → ∃ cs, MembersReadBack sep ms cs
  | [], _, hne => absurd rfl hne
  | [(k, v)], h, _ => by
    obtain ⟨cs, hcs⟩ := exists_readsBack hsep v (h (k, v) List.mem_cons_self)
    exact ⟨_, hcs.member hsep k⟩
  | (k, v) :: m :: ms, h, _ => by
    obtain ⟨hv, hms⟩ := List.forall_mem_cons.1 h
    obtain ⟨cs, hcs⟩ := exists_readsBack hsep v hv
    obtain ⟨ds, hds⟩ := exists_membersReadBack hsep (m :: ms) hms (List.cons_ne_nil m ms)
    exact ⟨_, hcs.consMember hsep k hds⟩

end

/-- A text is read if a value is taken from the front of it and nothing but gaps is left. -/
theorem Starts.read_eq (h : Starts cs) (hgaps : ∀ c ∈ rest, isGap c)
    (hread : readValue (2 * cs.length + 2) maxDepth cs = .ok (v, rest)) : read cs = .ok v := by
  have hfront := h.skipGaps_eq
  have hleft : skipGaps rest = [] := by rwa [skipGaps, List.dropWhile_eq_nil_iff]
  obtain ⟨c, cs, rfl, -, -, -, hmark⟩ := h
  rw [read.eq_def]
  split
  · next heq => exact absurd (List.cons.inj heq).1 hmark
  · rw [hfront, hread]
    dsimp only
    rw [hleft]

/-- A value without floating-point numbers that is not nested too deep is read back as it was. -/
theorem read_write (hsep : sep.Plain) (h : Exact v) (hdepth : v.depth ≤ maxDepth) :
    ∃ cs, write sep v = .ok cs ∧ read cs = .ok v := by
  obtain ⟨cs, hcs⟩ := exists_readsBack hsep v h
  have hgaps : ∀ c ∈ ([] : List Char), isGap c := fun _ hc => nomatch hc
  refine ⟨cs, hcs.written, hcs.starts.read_eq hgaps ?_⟩
  have hall := hcs.read follows_nil (Nat.le_add_right (2 * cs.length) 2) hdepth
  rwa [List.append_nil] at hall

/-- A mapping of such values is read back whatever gaps follow it. -/
theorem read_write_object (hsep : sep.Plain) {members : Table Value} (h : Exact (.object members))
    (hdepth : (Value.object members).depth ≤ maxDepth) :
    ∃ cs, write sep (.object members) = .ok cs ∧
      ∀ gaps, (∀ c ∈ gaps, isGap c) → read (cs ++ gaps) = .ok (.object members) := by
  obtain ⟨once, parts⟩ : members.names.Nodup ∧ ∀ p ∈ members, Exact p.2 := by
    cases h with
    | object _ once parts => exact ⟨once, parts⟩
  by_cases hne : members = []
  · obtain rfl := hne
    have hback := readsBack_object_nil sep
    exact ⟨_, hback.written, fun gaps hgaps => (hback.starts.append gaps).read_eq hgaps rfl⟩
  · obtain ⟨cs, hcs⟩ := exists_membersReadBack hsep members parts hne
    have hback := hcs.object once
    refine ⟨_, hback.written, fun gaps hgaps => (hback.starts.append gaps).read_eq hgaps ?_⟩
    refine hcs.readValue_object once ?_ hdepth
    rw [List.length_append]
    omega

/-- The text of such a value is the body of an answer that holds the value. -/
theorem bodyValue_text (hsep : sep.Plain) (h : Exact v) (hdepth : v.depth ≤ maxDepth) :
    ∃ body, text sep v = .ok body ∧ bodyValue body = v := by
  obtain ⟨cs, hwritten, hread⟩ := read_write hsep h hdepth
  refine ⟨String.ofList cs, ?_, ?_⟩
  · rw [text, hwritten]
    rfl
  · rw [bodyValue, String.toList_ofList, hread]

end Json

end RestDemo
