import TypeSolver.Number.Layout

/-!
# JSON values

The tree of a JSON text.  Objects keep their members in the order of the text, repeated names
included: what a repeated name means is for the reader of the tree to say.
-/

namespace TypeSolver.Json

/-- A number as a text gives it: an integer where it is written as one and fits in 64 bits, and
otherwise a double. -/
inductive Number where
  /-- a non-negative integer -/
  | nat (n : Nat)
  /-- the negative of a positive integer -/
  | negative (n : Nat)
  | double (x : Double)
deriving DecidableEq, Inhabited

/-- The number as a double. -/
def Number.toDouble : Number → Double
  | .nat n => .ofInt n
  | .negative n => .ofInt (-n)
  | .double x => x

/-- A JSON value. -/
inductive Value where
  | null
  | bool (b : Bool)
  | number (n : Number)
  | string (s : String)
  | array (items : List Value)
  | object (members : List (String × Value))
deriving Inhabited

/-- A double as a value: infinities and NaN have no number to stand for them and become `null`. -/
def Value.ofDouble (x : Double) : Value :=
  if x.isFinite then .number (.double x) else .null

namespace Value

mutual

/-- How deeply containers nest in a value. -/
def depth : Value → Nat
  | array vs => depthList vs + 1
  | object ms => depthMembers ms + 1
  | _ => 0

/-- How deeply containers nest in the values of a list. -/
def depthList : List Value → Nat
  | [] => 0
  | v :: vs => max (depth v) (depthList vs)

/-- How deeply containers nest in the values of members. -/
def depthMembers : List (String × Value) → Nat
  | [] => 0
  | (_, v) :: ms => max (depth v) (depthMembers ms)

end

end Value

end TypeSolver.Json
