import RestDemo.Number.Binary64

/-!
# Shortest decimals

The decimal with the fewest digits that is read back as a given floating-point number. The reals
that are read back as `m · 2 ^ q` form an interval around it, with its ends if `m` is even. On each
grid of multiples of a power of ten only the two neighbours of the value can lie in the interval
without a nearer one doing so too; the coarsest grid with such a neighbour gives the digits.
-/

namespace RestDemo.Number

/-- A value between two grid points, with the interval around it, all over one denominator. -/
structure GridView where
  /-- Four times the value. -/
  value : Nat
  /-- Four times the distance to the lower end of the interval. -/
  below : Nat
  /-- Four times the distance to the upper end of the interval. -/
  above : Nat
  /-- Four times the width of the grid. -/
  width : Nat
  /-- Whether the ends belong to the interval. -/
  closed : Bool

namespace GridView

/-- The view of `m · 2 ^ q` on the grid of multiples of `10 ^ e`. The interval reaches half a unit
up, and half a unit down, or a quarter where the numbers below lie twice as close. -/
def ofBinary (m : Nat) (q e : Int) : GridView :=
  let unit := twoTo q.toNat * tenTo (-e).toNat
  { value := 4 * m * unit
    below := (if m = twoTo 52 ∧ q > -1074 then 1 else 2) * unit
    above := 2 * unit
    width := 4 * (twoTo (-q).toNat * tenTo e.toNat)
    closed := m % 2 = 0 }

/-- Whether the `n`-th point of the grid lies in the interval. -/
def admits (v : GridView) (n : Nat) : Bool :=
  if v.closed then v.value ≤ n * v.width + v.below && n * v.width ≤ v.value + v.above
  else v.value < n * v.width + v.below && n * v.width < v.value + v.above

/-- The point of the grid in the interval that is nearest to the value, the even one of two. -/
def nearest? (v : GridView) : Option Nat :=
  let n := v.value / v.width
  match v.admits n, v.admits (n + 1) with
  | false, false => none
  | true, false => some n
  | false, true => some (n + 1)
  | true, true =>
    let down := v.value - n * v.width
    let up := (n + 1) * v.width - v.value
    some (if down < up ∨ (down = up ∧ n % 2 = 0) then n else n + 1)

end GridView

/-- Tries the grids of `10 ^ e`, `10 ^ (e - 1)`, … in order. -/
def shortestFrom (m : Nat) (q : Int) : Nat → Int → Nat × Int
  | 0, e => ((GridView.ofBinary m q e).value / (GridView.ofBinary m q e).width, e)
  | grids + 1, e =>
    match (GridView.ofBinary m q e).nearest? with
    | some n => if n = 0 then shortestFrom m q grids (e - 1) else (n, e)
    | none => shortestFrom m q grids (e - 1)

/-- The decimal `digits · 10 ^ exponent` of fewest digits that is read back as `m · 2 ^ q`. The
first grid is coarser than the value, and no value needs more than seventeen digits. -/
def shortest (m : Nat) (q : Int) : Nat × Int :=
  shortestFrom m q 20 ((m.log2 + 1 + q) * 30103 / 100000 + 1)

end RestDemo.Number
