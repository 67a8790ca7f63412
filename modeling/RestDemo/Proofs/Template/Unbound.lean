import RestDemo.Template

/-!
# Filling without variables

Where no variable has a value, a template stays as it is (`fill_nil`), and so does every value with
templates in it (`fillValue_nil`). Taking a template apart loses nothing of it: what a reader holds
back is either put in the next piece or stands in the text again (`fillPieces_scan`).
-/

namespace RestDemo.Template

/-- What a reader has read and not yet made a piece of. -/
def Mode.held : Mode → List Char
  | .inText => []
  | .afterDollar => ['$']
  | .inName read => '$' :: read.reverse

theorem fillPieces_char {store : Store} (c : Char) {ps : List Piece} {cs : List Char}
    (h : fillPieces store ps = .ok cs) : fillPieces store (.char c :: ps) = .ok (c :: cs) := by
  rw [fillPieces, h]
  rfl

theorem fillPieces_closeName (read : List Char) {ps : List Piece} {cs : List Char}
    (h : fillPieces [] ps = .ok cs) :
    fillPieces [] (closeName read :: ps) = .ok ('$' :: read.reverse ++ cs) := by
  rw [fillPieces, h, closeName, fillPiece, String.toList_ofList]
  rfl

theorem fillPieces_scan (mode : Mode) (cs : List Char) :
    fillPieces [] (scan mode cs) = .ok (mode.held ++ cs) := by
  fun_induction scan mode cs with
  | case1 => rfl
  | case2 cs ih => exact ih
  | case3 c cs hc ih => exact fillPieces_char c ih
  | case4 => rfl
  | case5 c cs hc ih => exact ih
  | case6 cs hc ih => exact fillPieces_char '$' ih
  | case7 c cs hc hc' ih => exact fillPieces_char '$' (fillPieces_char c ih)
  | case8 read => exact fillPieces_closeName read rfl
  | case9 read c cs hc ih =>
    rw [ih, Mode.held, Mode.held, List.reverse_cons, ← List.cons_append, List.append_assoc]
    rfl
  | case10 read cs hc ih => exact fillPieces_closeName read ih
  | case11 read c cs hc hc' ih => exact fillPieces_closeName read (fillPieces_char c ih)

/-- A template stays as it is where no variable has a value. -/
theorem fill_nil (text : String) : fill [] text = .ok text := by
  rw [fill, pieces, fillPieces_scan]
  exact congrArg Except.ok String.ofList_toList

mutual

theorem fillValue_nil : ∀ v, fillValue [] v = .ok v
  | .text s => by
    rw [fillValue, fill_nil]
    rfl
  | .list items => by
    rw [fillValue, fillItems_nil]
    rfl
  | .object members => by
    rw [fillValue, fillMembers_nil]
    rfl
  | .null | .bool _ | .int _ | .float _ => rfl

theorem fillItems_nil : ∀ vs, fillItems [] vs = .ok vs
  | [] => rfl
  | v :: vs => by
    rw [fillItems, fillValue_nil, fillItems_nil]
    rfl

theorem fillMembers_nil : ∀ ms, fillMembers [] ms = .ok ms
  | [] => rfl
  | (k, v) :: ms => by
    rw [fillMembers, fillValue_nil, fillMembers_nil]
    rfl

end

end RestDemo.Template
