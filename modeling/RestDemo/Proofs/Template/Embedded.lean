import RestDemo.Proofs.Json.RoundTrip
import RestDemo.Proofs.Limits

/-!
# Values embedded in texts

A value stands in a text as its compact document, but for nothing, which is empty there, for texts,
which stand there as they are, and for numbers with a fraction (`embed_eq_write`). So every other
value is read back from where it stands (`bodyValue_embed`).
-/

namespace RestDemo.Template

open Json (Exact)

variable {v : Value}

theorem embed_eq_write (hnull : v ≠ .null) (htext : ∀ s, v ≠ .text s) (hfloat : ∀ x, v ≠ .float x) :
    embed v = Json.write Json.compact v := by
  cases v with
  | null => exact absurd rfl hnull
  | text s => exact absurd rfl (htext s)
  | float x => exact absurd rfl (hfloat x)
  | bool b => cases b <;> rfl
  | int n | list items | object members => rfl

/-- A value that is neither a text nor has floating-point numbers in it is read back from its
embedded form. -/
theorem bodyValue_embed (h : Exact v) (htext : ∀ s, v ≠ .text s) (hdepth : v.depth ≤ 200) :
    ∃ cs, embed v = .ok cs ∧ Json.bodyValue (String.ofList cs) = v := by
  by_cases hnull : v = .null
  · subst hnull
    exact ⟨[], rfl, rfl⟩
  · have hfloat : ∀ x, v ≠ .float x := by
      rintro x rfl
      cases h
    have hshallow : v.depth ≤ Json.maxDepth := Nat.le_trans hdepth (by decide)
    obtain ⟨body, hwritten, hread⟩ := Json.bodyValue_text Json.plain_compact h hshallow
    obtain ⟨cs, hcs, rfl⟩ := ok_of_map hwritten
    exact ⟨cs, (embed_eq_write hnull htext hfloat).trans hcs, hread⟩

/-- A list with a mapping in it, and with quotes, a backslash and a line break in a name. -/
def quotedValue : Value :=
  .list [.null, .bool false, .int (-7), .object [("\"a\" \\ \n", .text "$b"), ("", .list [])]]

theorem bodyValue_embed_quoted :
    Exact quotedValue ∧ (∀ s, quotedValue ≠ .text s) ∧ quotedValue.depth ≤ 200 ∧
      embed quotedValue =
        .ok "[null,false,-7,\x7b\"\\\"a\\\" \\\\ \\n\":\"$b\",\"\":[]\x7d]".toList ∧
      Json.bodyValue "[null,false,-7,\x7b\"\\\"a\\\" \\\\ \\n\":\"$b\",\"\":[]\x7d]" =
        quotedValue := by
  have hexact : Exact quotedValue := by
    refine .list _ ?_
    simp only [List.forall_mem_cons]
    refine ⟨.null, .bool false, .digit (by decide), .object _ (by decide) ?_, List.forall_mem_nil _⟩
    simp only [List.forall_mem_cons]
    exact ⟨.text _, .list [] (List.forall_mem_nil _), List.forall_mem_nil _⟩
  have htext : ∀ s, quotedValue ≠ .text s := fun s heq => nomatch heq
  have hdepth : quotedValue.depth ≤ 200 := by decide
  have hembed : embed quotedValue =
      .ok "[null,false,-7,\x7b\"\\\"a\\\" \\\\ \\n\":\"$b\",\"\":[]\x7d]".toList := by
    decide
  obtain ⟨cs, hcs, hread⟩ := bodyValue_embed hexact htext hdepth
  obtain rfl := Except.ok.inj (hembed.symm.trans hcs)
  exact ⟨hexact, htext, hdepth, hembed, hread⟩

end RestDemo.Template
