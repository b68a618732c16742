import TypeSolver.Number.Layout
import TypeSolver.Text.Quoted
import TypeSolver.Ty.Basic

/-!
# Displayed types

The text in which a type is shown to people: base types by name, literals as written, variables by
name, functions as `(a, b) => c` and objects as a braced list of `name: type`.
-/

namespace TypeSolver.Ty

mutual

/-- The text of a type. -/
def display : Ty → String
  | number => "number"
  | numberLit x => x.display
  | string => "string"
  | stringLit s => Text.quoted s
  | boolean => "boolean"
  | booleanLit b => if b then "true" else "false"
  | var n => n
  | func ps r => "(" ++ displayList ps ++ ") => " ++ display r
  | object [] => "\x7b\x7d"
  | object (f :: fs) => "\x7b " ++ displayFields (f :: fs) ++ " \x7d"

/-- The texts of types, separated by commas. -/
def displayList : List Ty → String
  | [] => ""
  | [t] => display t
  | t :: ts => display t ++ ", " ++ displayList ts

/-- The texts of fields, separated by commas. -/
def displayFields : List (String × Ty) → String
  | [] => ""
  | [(k, t)] => k ++ ": " ++ display t
  | (k, t) :: fs => k ++ ": " ++ display t ++ ", " ++ displayFields fs

end

end TypeSolver.Ty
