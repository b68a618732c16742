import TypeSolver.Ty.Display

/-!
# Constraints

What a batch asks of its type variables: that two types are equal, that a function is called with
given arguments and yields a given result, that two strings are joined, or that a field of an object
is read.
-/

namespace TypeSolver

/-- A condition on types. -/
inductive Constraint where
  /-- two types are equal -/
  | equals (left right : Ty)
  /-- calling a function with these arguments gives this result -/
  | apply (func : Ty) (args : List Ty) (result : Ty)
  /-- joining two strings gives this result -/
  | concat (first second result : Ty)
  /-- reading this field of the object gives this result -/
  | index (object field result : Ty)
deriving Inhabited

/-- What sort of constraint a constraint is. -/
inductive ConstraintKind where
  | equals
  | apply
  | concat
  | index
deriving DecidableEq, Inhabited

/-- The kind in words. -/
def ConstraintKind.text : ConstraintKind → String
  | .equals => "equals"
  | .apply => "apply"
  | .concat => "concat"
  | .index => "index"

namespace Constraint

/-- The kind of a constraint. -/
def kind : Constraint → ConstraintKind
  | equals _ _ => .equals
  | apply _ _ _ => .apply
  | concat _ _ _ => .concat
  | index _ _ _ => .index

/-- Equality of constraints, by equality of their types. -/
def beq : Constraint → Constraint → Bool
  | equals l r, equals l' r' => l == l' && r == r'
  | apply f as r, apply f' as' r' => f == f' && Ty.beqList as as' && r == r'
  | concat a b r, concat a' b' r' => a == a' && b == b' && r == r'
  | index o f r, index o' f' r' => o == o' && f == f' && r == r'
  | _, _ => false

instance : BEq Constraint := ⟨beq⟩

/-- The text of a constraint, as an equation. -/
def display : Constraint → String
  | equals l r => l.display ++ " = " ++ r.display
  | apply f as r => f.display ++ "(" ++ Ty.displayList as ++ ") = " ++ r.display
  | concat a b r => a.display ++ " + " ++ b.display ++ " = " ++ r.display
  | index o f r => o.display ++ "[" ++ f.display ++ "] = " ++ r.display

end Constraint

end TypeSolver
