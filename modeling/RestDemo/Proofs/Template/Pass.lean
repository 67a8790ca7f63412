import Mathlib.Data.List.TakeWhile
import RestDemo.Proofs.Template.Agreement
import RestDemo.Proofs.Template.Filled
import RestDemo.Proofs.Template.Unbound

/-!
# Filling as a single pass

A text is filled in a single pass: two texts one after another are filled each by itself as long as
no name is cut between them, a variable alone gives its value as it is, and what has no variable in
it stays. Every text is put together of variables and of plain text in which no dollar sign has a
name after it (`text_induction`), so that these laws leave no choice (`fill_single_pass`).
-/

namespace RestDemo.Template

variable {store : Store} {cs ds read : List Char} {c : Char} {text name : String}

/-- No name that stands before the text goes on in it: it is empty, or it begins with neither a
letter nor a digit nor an underscore. -/
def Detached (cs : List Char) : Prop := ∀ c ∈ cs.head?, ¬ isNameChar c

/-- A letter or an underscore, and then letters, digits and underscores. -/
def IsName (cs : List Char) : Prop :=
  ∃ c rest, cs = c :: rest ∧ isNameStart c ∧ ∀ d ∈ rest, isNameChar d

/-- No dollar sign in the text has a name after it. -/
def Tokenless (cs : List Char) : Prop := ∀ c, isNameStart c → ¬ ['$', c] <:+: cs

/-- Every dollar sign in the text has a name after it. -/
def DollarsNamed (cs : List Char) : Prop :=
  ∀ before after, cs = before ++ '$' :: after → ∃ c ∈ after.head?, isNameStart c

theorem isNameChar_of_isNameStart (h : isNameStart c) : isNameChar c := by
  simp [isNameChar, h]

/-! ## Pieces -/

theorem scan_afterDollar_of_detached (hds : Detached ds) :
    scan .afterDollar ds = .char '$' :: scan .inText ds := by
  cases ds with
  | nil => rfl
  | cons c ds =>
    have hstart : ¬ isNameStart c := mt isNameChar_of_isNameStart (hds c rfl)
    rw [scan, scan, if_neg hstart]
    by_cases hdollar : c = '$'
    · rw [if_pos hdollar, if_pos hdollar]
    · rw [if_neg hdollar, if_neg hdollar]

theorem scan_inName_of_detached (hds : Detached ds) (read : List Char) :
    scan (.inName read) ds = closeName read :: scan .inText ds := by
  cases ds with
  | nil => rfl
  | cons c ds =>
    have hchar : ¬ isNameChar c := hds c rfl
    rw [scan, scan, if_neg hchar]
    by_cases hdollar : c = '$'
    · rw [if_pos hdollar, if_pos hdollar]
    · rw [if_neg hdollar, if_neg hdollar]

/-- The pieces of a text before one that is detached from it are settled. -/
theorem scan_append (mode : Mode) (cs : List Char) (hds : Detached ds) :
    scan mode (cs ++ ds) = scan mode cs ++ scan .inText ds := by
  fun_induction scan mode cs with
  | case1 => rfl
  | case2 cs ih => simpa [scan] using ih
  | case3 c cs hc ih => simpa [scan, hc] using ih
  | case4 => exact scan_afterDollar_of_detached hds
  | case5 c cs hc ih => simpa [scan, hc] using ih
  | case6 cs hc ih => simpa [scan, hc] using ih
  | case7 c cs hc hc' ih => simpa [scan, hc, hc'] using ih
  | case8 read => exact scan_inName_of_detached hds read
  | case9 read c cs hc ih => simpa [scan, hc] using ih
  | case10 read cs hc ih => simpa [scan, hc] using ih
  | case11 read c cs hc hc' ih => simpa [scan, hc, hc'] using ih

theorem pieces_append (a : String) {b : String} (hb : Detached b.toList) :
    pieces (a ++ b) = pieces a ++ pieces b := by
  rw [pieces, String.toList_append, scan_append _ _ hb]
  rfl

theorem scan_inName (h : ∀ d ∈ cs, isNameChar d) (read : List Char) :
    scan (.inName read) cs = [closeName (cs.reverse ++ read)] := by
  induction cs generalizing read with
  | nil => rfl
  | cons c cs ih =>
    rw [List.forall_mem_cons] at h
    rw [scan, if_pos h.1, ih h.2, List.reverse_cons, List.append_assoc]
    rfl

theorem pieces_variable (h : IsName name.toList) : pieces ("$" ++ name) = [.variable name] := by
  obtain ⟨c, rest, hname, hc, hrest⟩ := h
  have htext : ("$" ++ name).toList = '$' :: c :: rest := by simp [hname]
  rw [pieces, htext, scan, if_pos rfl, scan, if_pos hc, scan_inName hrest, closeName]
  exact congrArg (fun s => [Piece.variable s]) (String.toList_injective (by simp [hname]))

theorem Tokenless.of_cons (h : Tokenless (c :: cs)) : Tokenless cs :=
  fun d hd htoken => h d hd (htoken.trans (List.suffix_cons c cs).isInfix)

theorem not_tokenless (hc : isNameStart c) (cs : List Char) : ¬ Tokenless ('$' :: c :: cs) := by
  intro h
  have htoken : ['$', c] <+: '$' :: c :: cs := ⟨cs, rfl⟩
  exact h c hc htoken.isInfix

theorem scan_tokenless {mode : Mode} (hmode : mode = .inText ∨ mode = .afterDollar)
    (h : Tokenless (mode.held ++ cs)) : scan mode cs = (mode.held ++ cs).map .char := by
  fun_induction scan mode cs with
  | case1 => rfl
  | case2 cs ih => exact ih (.inr rfl) h
  | case3 c cs hc ih => exact congrArg (Piece.char c :: ·) (ih (.inl rfl) h.of_cons)
  | case4 => rfl
  | case5 c cs hc ih => exact absurd h (not_tokenless hc cs)
  | case6 cs hc ih => exact congrArg (Piece.char '$' :: ·) (ih (.inr rfl) h.of_cons)
  | case7 c cs hc hc' ih =>
    exact congrArg ([Piece.char '$', .char c] ++ ·) (ih (.inl rfl) h.of_cons.of_cons)
  | _ => simp at hmode

/-- A text in which there is no variable is taken apart into its characters. -/
theorem pieces_tokenless (h : Tokenless text.toList) : pieces text = text.toList.map .char :=
  scan_tokenless (.inl rfl) h

/-! ## Texts put together -/

theorem tokenless_of_not_mem (h : '$' ∉ cs) : Tokenless cs :=
  fun _ _ htoken => h (htoken.subset List.mem_cons_self)

/-- No name begins in a text without a dollar sign, and what comes after it is read by itself. -/
theorem scan_append_of_not_mem (h : '$' ∉ cs) (ds : List Char) :
    scan .inText (cs ++ ds) = cs.map .char ++ scan .inText ds := by
  induction cs with
  | nil => rfl
  | cons c cs ih =>
    rw [List.mem_cons, not_or] at h
    rw [List.cons_append, scan, if_neg (Ne.symm h.1), ih h.2]
    rfl

theorem isName_takeWhile (hc : isNameStart c) (cs : List Char) :
    IsName (c :: cs.takeWhile isNameChar) :=
  ⟨c, _, rfl, hc, fun _ hd => List.mem_takeWhile_imp hd⟩

theorem detached_dropWhile (cs : List Char) : Detached (cs.dropWhile isNameChar) := by
  intro d hd
  have hstop := List.head?_dropWhile_not isNameChar cs
  rw [Option.mem_def.1 hd] at hstop
  simpa using hstop

theorem exists_token (h : ¬ Tokenless cs) :
    ∃ before name after, cs = before ++ ('$' :: name ++ after) ∧ IsName name ∧ Detached after := by
  unfold Tokenless at h
  push Not at h
  obtain ⟨c, hc, before, rest, hsplit⟩ := h
  refine ⟨before, c :: rest.takeWhile isNameChar, rest.dropWhile isNameChar, ?_,
    isName_takeWhile hc rest, detached_dropWhile rest⟩
  simp [← hsplit]

theorem detached_dollar (cs : List Char) : Detached ('$' :: cs) := by
  intro c hc
  obtain rfl : '$' = c := Option.some.inj hc
  decide

/-- What holds of plain texts and of single variables, and of two texts together with what it holds
of them where the second one is detached, holds of every text. -/
theorem text_induction {P : String → Prop} (plain : ∀ text, Tokenless text.toList → P text)
    (token : ∀ name, IsName name.toList → P ("$" ++ name))
    (append : ∀ a b, Detached b.toList → P a → P b → P (a ++ b)) (text : String) : P text := by
  induction hlength : text.length using Nat.strongRecOn generalizing text with
  | ind length ih =>
    by_cases htext : Tokenless text.toList
    · exact plain text htext
    · obtain ⟨before, name, after, hsplit, hname, hafter⟩ := exists_token htext
      have htoken : P ("$" ++ String.ofList name) := token _ (by rwa [String.toList_ofList])
      have hwhole : text =
          String.ofList before ++ ("$" ++ String.ofList name ++ String.ofList after) :=
        String.toList_injective (by simp [hsplit])
      have hshorter : before.length + after.length < length := by
        have hsum := congrArg String.length hwhole
        have hdollar : "$".length = 1 := rfl
        simp only [String.length_append, String.length_ofList] at hsum
        omega
      have hbefore : P (String.ofList before) := ih before.length (by omega) _ (by simp)
      have hrest : P (String.ofList after) := ih after.length (by omega) _ (by simp)
      rw [hwhole]
      apply append _ _ ?_ hbefore
      · apply append _ _ ?_ htoken hrest
        rwa [String.toList_ofList]
      · simpa using detached_dollar (name ++ after)

theorem not_mem_dollar (hplain : Tokenless cs) (hnamed : DollarsNamed cs) : '$' ∉ cs := by
  intro hmem
  obtain ⟨before, after, hsplit⟩ := List.append_of_mem hmem
  obtain ⟨c, hc, hstart⟩ := hnamed before after hsplit
  obtain ⟨rest, rfl⟩ := List.head?_eq_some_iff.1 hc
  exact hplain c hstart ⟨before, rest, by simp [hsplit]⟩

theorem DollarsNamed.of_append (hds : Detached ds) (h : DollarsNamed (cs ++ ds)) :
    DollarsNamed cs ∧ DollarsNamed ds := by
  constructor
  · intro before after hsplit
    obtain ⟨c, hc, hstart⟩ := h before (after ++ ds) (by simp [hsplit])
    cases after with
    | nil => exact absurd (isNameChar_of_isNameStart hstart) (hds c hc)
    | cons d after => exact ⟨c, hc, hstart⟩
  · intro before after hsplit
    exact h (cs ++ before) after (by simp [hsplit])

/-! ## Filling -/

theorem fillPieces_append {ps qs : List Piece} (hps : fillPieces store ps = .ok cs)
    (hqs : fillPieces store qs = .ok ds) : fillPieces store (ps ++ qs) = .ok (cs ++ ds) := by
  induction ps generalizing cs with
  | nil =>
    cases hps
    exact hqs
  | cons p ps ih =>
    rw [fillPieces] at hps
    obtain ⟨first, hfirst, hps⟩ := ok_of_bind hps
    obtain ⟨others, hothers, hps⟩ := ok_of_bind hps
    cases hps
    rw [List.cons_append, fillPieces, hfirst, ih hothers]
    simp [bind, Except.bind, pure, Except.pure]

theorem fillPieces_chars (store : Store) (cs : List Char) :
    fillPieces store (cs.map .char) = .ok cs := by
  induction cs with
  | nil => rfl
  | cons c cs ih => exact fillPieces_char c ih

theorem fillPieces_singleton {p : Piece} (h : fillPiece store p = .ok cs) :
    fillPieces store [p] = .ok cs := by
  rw [fillPieces, h]
  simp [bind, Except.bind, pure, Except.pure, fillPieces]

theorem fillPieces_bound {v : Value} (hname : IsName name.toList)
    (hvalue : Table.get? name store = some v) (hembed : embed v = .ok cs) :
    fillPieces store (pieces ("$" ++ name)) = .ok cs := by
  rw [pieces_variable hname]
  apply fillPieces_singleton
  rw [fillPiece, hvalue]
  exact hembed

theorem fillPieces_unbound (hname : IsName name.toList) (hnone : Table.get? name store = none) :
    fillPieces store (pieces ("$" ++ name)) = .ok ('$' :: name.toList) := by
  rw [pieces_variable hname]
  apply fillPieces_singleton
  rw [fillPiece, hnone]

theorem fillPieces_tokenless (store : Store) (h : Tokenless text.toList) :
    fillPieces store (pieces text) = .ok text.toList := by
  rw [pieces_tokenless h, fillPieces_chars]

theorem fill_of_pieces (h : fillPieces store (pieces text) = .ok cs) :
    fill store text = .ok (String.ofList cs) := by
  rw [fill, h]
  rfl

/-- The laws of filling. They are about texts without dollar signs, and leave it open what becomes of
a dollar sign that no name follows. -/
structure Fills (store : Store) (f : String → String) : Prop where
  append (a b : String) (detached : Detached b.toList) : f (a ++ b) = f a ++ f b
  bound {name : String} {v : Value} {cs : List Char} (isName : IsName name.toList)
    (value : Table.get? name store = some v) (embeds : embed v = .ok cs) :
    f ("$" ++ name) = String.ofList cs
  unbound {name : String} (isName : IsName name.toList) (none : Table.get? name store = none) :
    f ("$" ++ name) = "$" ++ name
  plain {text : String} (dollarless : '$' ∉ text.toList) : f text = text

/-- A piece of a text without variables that have a value, where a dollar sign alone is told
otherwise. -/
def sharpPiece : Piece → List Char
  | .char c => if c = '$' then ['#'] else [c]
  | .variable name => '$' :: name.toList

def sharp (text : String) : String :=
  String.ofList ((pieces text).flatMap sharpPiece)

theorem fills_sharp : Fills [] sharp where
  append a b hb := by
    rw [sharp, pieces_append a hb, List.flatMap_append, String.ofList_append]
    rfl
  bound _ hvalue _ := nomatch hvalue
  unbound hname _ := by
    rw [sharp, pieces_variable hname, List.flatMap_singleton]
    exact String.toList_injective (by simp [sharpPiece])
  plain {text} htext := by
    have hpieces : ∀ c ∈ text.toList, sharpPiece (.char c) = [c] := by
      intro c hc
      refine if_neg ?_
      rintro rfl
      exact htext hc
    rw [sharp, pieces_tokenless (tokenless_of_not_mem htext), List.flatMap_map,
      List.flatMap_congr hpieces, List.flatMap_singleton', String.ofList_toList]

/-- The laws do not fix what becomes of a dollar sign alone. -/
theorem exists_fills_ne_fill :
    ∃ f, Fills [] f ∧ fill [] "$" = .ok "$" ∧ f "$" = "#" :=
  ⟨sharp, fills_sharp, by decide +kernel, by decide +kernel⟩

/-- What has no variable in it stays. -/
def KeepsTokenless (f : String → String) : Prop :=
  ∀ text, Tokenless text.toList → f text = text

/-- Two functions with the laws agree on a text if they agree on the plain parts of it. -/
theorem Fills.eq_of_parts (hstore : Store.Embeds store) {f g : String → String}
    (hf : Fills store f) (hg : Fills store g) {R : String → Prop}
    (parts : ∀ a b, Detached b.toList → R (a ++ b) → R a ∧ R b)
    (plain : ∀ text, Tokenless text.toList → R text → f text = g text) (text : String)
    (h : R text) : f text = g text := by
  induction text using text_induction with
  | plain text htext => exact plain text htext h
  | token name hname =>
    cases hvalue : Table.get? name store with
    | none => rw [hf.unbound hname hvalue, hg.unbound hname hvalue]
    | some v =>
      obtain ⟨cs, hcs⟩ := hstore name v hvalue
      rw [hf.bound hname hvalue hcs, hg.bound hname hvalue hcs]
  | append a b hb iha ihb =>
    obtain ⟨ha, hrest⟩ := parts a b hb h
    rw [hf.append a b hb, hg.append a b hb, iha ha, ihb hrest]

theorem Fills.eq_of_dollarsNamed (hstore : Store.Embeds store) {f g : String → String}
    (hf : Fills store f) (hg : Fills store g) (h : DollarsNamed text.toList) : f text = g text := by
  refine hf.eq_of_parts (R := fun text => DollarsNamed text.toList) hstore hg ?_ ?_ text h
  · intro a b hb hnamed
    rw [String.toList_append] at hnamed
    exact hnamed.of_append hb
  · intro text htext hnamed
    have hdollarless := not_mem_dollar htext hnamed
    rw [hf.plain hdollarless, hg.plain hdollarless]

theorem Fills.unique (hstore : Store.Embeds store) {f g : String → String} (hf : Fills store f)
    (hg : Fills store g) (hfkeeps : KeepsTokenless f) (hgkeeps : KeepsTokenless g) : f = g := by
  funext text
  refine hf.eq_of_parts (R := fun _ => True) hstore hg ?_ ?_ text trivial
  · intro a b hb _
    exact ⟨trivial, trivial⟩
  · intro text htext _
    rw [hfkeeps text htext, hgkeeps text htext]

/-- Where every value can be put into a text, filling is a function with these laws. -/
theorem exists_fills (hstore : Store.Embeds store) :
    ∃ f, (∀ text, fill store text = .ok (f text)) ∧ Fills store f ∧ KeepsTokenless f := by
  choose filled hfilled using fun text => exists_fillPieces hstore (pieces text)
  have hpieces {text : String} {cs : List Char} (h : fillPieces store (pieces text) = .ok cs) :
      filled text = cs := Except.ok.inj ((hfilled text).symm.trans h)
  have hkeeps : KeepsTokenless fun text => String.ofList (filled text) := by
    intro text htext
    exact (congrArg String.ofList (hpieces (fillPieces_tokenless store htext))).trans
      String.ofList_toList
  refine ⟨_, fun text => fill_of_pieces (hfilled text), ?_, hkeeps⟩
  constructor
  · intro a b hb
    have hwhole := fillPieces_append (hfilled a) (hfilled b)
    rw [← pieces_append a hb] at hwhole
    rw [hpieces hwhole, String.ofList_append]
  · intro name v cs hname hvalue hembed
    rw [hpieces (fillPieces_bound hname hvalue hembed)]
  · intro name hname hnone
    rw [hpieces (fillPieces_unbound hname hnone)]
    exact String.toList_injective (by simp)
  · intro text htext
    exact hkeeps text (tokenless_of_not_mem htext)

/-! ## Variables -/

theorem unique_append (xs ys : List String) :
    unique (xs ++ ys) = unique xs ++ (unique ys).filter (· ∉ xs) := by
  induction xs with
  | nil => simp [unique]
  | cons x xs ih =>
    rw [List.cons_append, unique, unique, ih, List.filter_append, List.filter_filter]
    simp

/-- The variables of a text, and then those of the other one that are not among them. -/
theorem variablesOf_append (a : String) {b : String} (hb : Detached b.toList) :
    variablesOf (a ++ b) = variablesOf a ++ (variablesOf b).filter (· ∉ variablesOf a) := by
  rw [variablesOf, pieces_append a hb, List.filterMap_append, unique_append]
  simp only [variablesOf, mem_unique]

theorem variablesOf_variable (h : IsName name.toList) : variablesOf ("$" ++ name) = [name] := by
  rw [variablesOf, pieces_variable h]
  rfl

theorem filterMap_name?_chars (cs : List Char) :
    (cs.map Piece.char).filterMap Piece.name? = [] := by
  rw [List.filterMap_eq_nil_iff]
  intro p hp
  obtain ⟨c, -, rfl⟩ := List.mem_map.1 hp
  rfl

theorem variablesOf_tokenless (h : Tokenless text.toList) : variablesOf text = [] := by
  rw [variablesOf, pieces_tokenless h, filterMap_name?_chars]
  rfl

/-- Filling goes along with putting texts together where no name is cut, and so does the search for
variables. Its laws fix it on every text in which each dollar sign has a name after it, and on all
texts once others are left as they are. -/
theorem fill_single_pass (hstore : Store.Embeds store) :
    (∃ f, (∀ text, fill store text = .ok (f text)) ∧ Fills store f ∧ KeepsTokenless f ∧
      ∀ g, Fills store g →
        (∀ text, DollarsNamed text.toList → g text = f text) ∧ (KeepsTokenless g → g = f)) ∧
    (∀ a b : String, Detached b.toList →
      variablesOf (a ++ b) = variablesOf a ++ (variablesOf b).filter (· ∉ variablesOf a)) ∧
    (∀ name : String, IsName name.toList → variablesOf ("$" ++ name) = [name]) ∧
    ∀ text : String, Tokenless text.toList → variablesOf text = [] := by
  obtain ⟨f, hf, hfills, hkeeps⟩ := exists_fills hstore
  refine ⟨⟨f, hf, hfills, hkeeps, ?_⟩, ?_, ?_, ?_⟩
  · intro g hg
    constructor
    · intro text htext
      exact hg.eq_of_dollarsNamed hstore hfills htext
    · intro hgkeeps
      exact hg.unique hstore hfills hgkeeps hkeeps
  · intro a b hb
    exact variablesOf_append a hb
  · intro name hname
    exact variablesOf_variable hname
  · intro text htext
    exact variablesOf_tokenless htext

/-- The value of the first variable names the second one. -/
def dollarStore : Store := [("id", .text "$other"), ("other", .int 7)]

theorem fill_single_pass_dollar :
    Store.Embeds dollarStore ∧ fill dollarStore ("$id" ++ "$other") = .ok "$other7" := by
  have hid : Table.get? "id" dollarStore = some (.text "$other") := rfl
  have hother : Table.get? "other" dollarStore = some (.int 7) := rfl
  have hembeds : Store.Embeds dollarStore := by
    intro name v hv
    rcases List.mem_cons.1 (Table.mem_of_get? hv) with heq | hv
    · cases heq
      exact ⟨_, rfl⟩
    · cases List.mem_singleton.1 hv
      exact ⟨_, rfl⟩
  have hidName : IsName "id".toList := ⟨'i', ['d'], rfl, by decide, List.all_eq_true.1 (by decide)⟩
  have hotherName : IsName "other".toList :=
    ⟨'o', "ther".toList, rfl, by decide, List.all_eq_true.1 (by decide)⟩
  obtain ⟨⟨f, hf, hfills, -⟩, -⟩ := fill_single_pass hembeds
  have hdetached : Detached ("$" ++ "other").toList := detached_dollar "other".toList
  refine ⟨hembeds, ?_⟩
  rw [hf]
  have happend := hfills.append ("$" ++ "id") ("$" ++ "other") hdetached
  rw [hfills.bound hidName hid rfl, hfills.bound hotherName hother rfl] at happend
  exact congrArg Except.ok happend

end RestDemo.Template
