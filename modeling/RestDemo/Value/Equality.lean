import RestDemo.Value.Basic

/-!
# Equality of values

Two comparisons. `Value.agrees` is the looser one, for parts of lists and mappings: numbers are
equal by value, a truth value counts as 0 or 1, and the order of a mapping's names does not matter.
`strictlyEqual` is the one of conditions: it looks at the kinds first, so that neither a truth value
nor a text is ever equal to a number, and what is absent equals only what is absent.
-/

namespace RestDemo

inductive Amount where
  | int (n : Int)
  | float (x : Float)

namespace Amount

/-- Equality by value; what is not a number equals nothing. -/
def equal : Amount → Amount → Bool
  | int m, int n => m == n
  | int m, float y => Number.whole? y == some m
  | float x, int n => Number.whole? x == some n
  | float x, float y => x == y

/-- Equality by value; what is not a number agrees with what is not a number. -/
def agrees : Amount → Amount → Bool
  | float x, float y => x == y || (x.isNaN && y.isNaN)
  | a, b => equal a b

end Amount

namespace Value

def amount? : Value → Option Amount
  | int n => some (.int n)
  | float x => some (.float x)
  | _ => none

/-- The number that a value counts as, truth values included. -/
def count? : Value → Option Amount
  | bool b => some (.int (if b then 1 else 0))
  | v => amount? v

mutual

def agrees : Value → Value → Bool
  | null, w => match w with
    | null => true
    | _ => false
  | text s, w => match w with
    | text t => s == t
    | _ => false
  | list vs, w => match w with
    | list ws => agreesItems vs ws
    | _ => false
  | object ms, w => match w with
    | object ns => ms.length == ns.length && agreesMembers ms ns
    | _ => false
  | bool b, w => countsAs (.int (if b then 1 else 0)) w
  | int n, w => countsAs (.int n) w
  | float x, w => countsAs (.float x) w

def agreesItems : List Value → List Value → Bool
  | [], [] => true
  | v :: vs, w :: ws => agrees v w && agreesItems vs ws
  | _, _ => false

/-- Whether each entry agrees with the one under the same name. -/
def agreesMembers : List (String × Value) → Table Value → Bool
  | [], _ => true
  | (k, v) :: ms, ns =>
    (match Table.get? k ns with
      | some w => agrees v w
      | none => false) && agreesMembers ms ns

def countsAs (a : Amount) (w : Value) : Bool :=
  match w.count? with
  | some b => a.agrees b
  | none => false

end

def equal : Value → Value → Bool
  | null, null => true
  | bool a, bool b => a == b
  | text s, text t => s == t
  | list vs, list ws => agrees (list vs) (list ws)
  | object ms, object ns => agrees (object ms) (object ns)
  | v, w => match v.amount?, w.amount? with
    | some a, some b => a.equal b
    | _, _ => false

end Value

/-- The comparison of conditions, where either side may be absent. -/
def strictlyEqual : Option Value → Option Value → Bool
  | none, none => true
  | some v, some w => v.equal w
  | _, _ => false

end RestDemo
