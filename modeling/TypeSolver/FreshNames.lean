import TypeSolver.Ty.Basic

/-!
# Fresh names

A supply of variable names for instances of function types.  A fresh name is the variable's own
name, a marker, and the number of the instance in decimal; each instance takes the next number.
-/

namespace TypeSolver

/-- A supply of fresh names: the marker and the next generation. -/
structure FreshNames where
  marker : String
  next : Nat
deriving DecidableEq, Inhabited

namespace FreshNames

/-- The marker used where none is given. -/
def defaultMarker : String := "'"

/-- A supply that has given out nothing. -/
def start (marker : String) : FreshNames := ⟨marker, 0⟩

/-- The fresh name of a variable in a generation. -/
def nameFor (names : FreshNames) (base : Name) (generation : Nat) : Name :=
  base ++ names.marker ++ toString generation

/-- The next generation, and the supply without it. -/
def take (names : FreshNames) : Nat × FreshNames :=
  (names.next, { names with next := names.next + 1 })

end FreshNames

end TypeSolver
