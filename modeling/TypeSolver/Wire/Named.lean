import TypeSolver.Config.Basic
import TypeSolver.Json.Reader
import TypeSolver.Solver.Trace

/-!
# Named choices

Kinds, reasons and presets are exchanged by name.  A name is a string; an object whose only member
has the name, with the value `null`, is accepted as well.
-/

namespace TypeSolver.Wire

open Json

/-! ## Reading a name -/

/-- The choice that a name stands for. -/
def chosen {α : Type} (names : List (String × α)) (name : String) : Except DataError α :=
  match names.lookup name with
  | some a => .ok a
  | none => .error (.unknownVariant name (names.map Prod.fst))

/-- A data error as an error of reading. -/
def liftData {α : Type} (e : Except DataError α) : Except Error α := e.mapError .data

/-- The word `null` where nothing else is wanted. -/
def readUnit (cs : List Char) : Except Error (List Char) :=
  match skipSpace cs with
  | 'n' :: rest => readWord ['u', 'l', 'l'] rest
  | _ => .error (unwanted "unit" cs)

/-- A choice, by name. -/
def readNamed {α : Type} (names : List (String × α)) (room : Nat) (cs : List Char) :
    Except Error (α × List Char) :=
  match skipSpace cs with
  | [] => .error .truncated
  | '"' :: rest => do
    let (name, rest) ← readChars [] none rest
    return (← liftData (chosen names name), rest)
  | '\x7b' :: rest =>
    if room = 0 then .error .malformed
    else do
      let (name, rest) ← readStringAs "variant identifier" rest
      let a ← liftData (chosen names name)
      let rest ← readUnit (← readMark ':' rest)
      return (a, ← readMark '\x7d' rest)
  | _ => .error .malformed

/-- A choice, by name, in a tree.  Here an empty object stands for `null` too. -/
def namedOfValue {α : Type} (names : List (String × α)) : Value → Except DataError α
  | .string s => chosen names s
  | .object [(name, v)] => do
    let a ← chosen names name
    match v with
    | .null => return a
    | .object [] => return a
    | v => throw (.invalidType v.found "unit")
  | .object _ => .error (.invalidValue .map "map with a single key")
  | v => .error (.invalidType v.found "string or map")

/-! ## The names -/

/-- The name of a kind of type. -/
def kindName : Kind → String
  | .number => "number"
  | .numberLit => "number_literal"
  | .string => "string"
  | .stringLit => "string_literal"
  | .boolean => "boolean"
  | .booleanLit => "boolean_literal"
  | .variable => "variable"
  | .function => "function"
  | .object => "object"

/-- The kinds of types by name. -/
def kindNames : List (String × Kind) :=
  [Kind.number, .numberLit, .string, .stringLit, .boolean, .booleanLit, .variable, .function,
    .object].map fun k => (kindName k, k)

/-- The kinds of constraints by name. -/
def constraintKindNames : List (String × ConstraintKind) :=
  [ConstraintKind.equals, .apply, .concat, .index].map fun k => (k.text, k)

/-- The name of a reason to skip a constraint. -/
def reasonName : SkipReason → String
  | .unresolvedOperand => "unresolved_operand"
  | .notAnObject => "not_an_object"
  | .missingField => "missing_field"

/-- The reasons to skip a constraint by name. -/
def reasonNames : List (String × SkipReason) :=
  [SkipReason.unresolvedOperand, .notAnObject, .missingField].map fun r => (reasonName r, r)

/-- The presets by name. -/
def presetNames : List (String × Preset) :=
  [Preset.standard, .debug].map fun p => (p.name, p)

end TypeSolver.Wire
