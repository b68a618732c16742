import TypeSolver.Constraint
import TypeSolver.Json.Printer
import TypeSolver.Subst.Basic
import TypeSolver.Wire.Tagged

/-!
# Types, constraints and substitutions as JSON

Each type and each constraint has a tag and its parts under fixed names.  An object's fields are
written in the order of their names, and when a name is repeated the last counts.  A substitution is
an object with a member for each binding, in the order of the bindings; a repeated name keeps its
first place and its last type.
-/

namespace TypeSolver.Wire

open Json

/-! ## Families -/

/-- The types. -/
def typeFamily : Family Kind where
  label := "Type"
  variants :=
    [⟨.number, "num", "Type::Number", []⟩,
      ⟨.numberLit, "numlit", "Type::NumberLiteral", [("value", .number)]⟩,
      ⟨.string, "str", "Type::String", []⟩,
      ⟨.stringLit, "strlit", "Type::StringLiteral", [("value", .text)]⟩,
      ⟨.boolean, "bool", "Type::Boolean", []⟩,
      ⟨.booleanLit, "boollit", "Type::BooleanLiteral", [("value", .flag)]⟩,
      ⟨.variable, "var", "Type::Variable", [("name", .text)]⟩,
      ⟨.function, "func", "Type::Function", [("params", .types), ("returns", .type)]⟩,
      ⟨.object, "obj", "Type::Object", [("fields", .fields)]⟩]

/-- The constraints. -/
def constraintFamily : Family ConstraintKind where
  label := "Constraint"
  variants :=
    [⟨.equals, "eq", "Constraint::Equals", [("left", .type), ("right", .type)]⟩,
      ⟨.apply, "apply", "Constraint::Apply", [("func", .type), ("args", .types), ("ret", .type)]⟩,
      ⟨.concat, "concat", "Constraint::Concat",
        [("first", .type), ("second", .type), ("ret", .type)]⟩,
      ⟨.index, "index", "Constraint::Index", [("obj", .type), ("field", .type), ("ret", .type)]⟩]

/-! ## Writing -/

/-- A tagged object. -/
def tagged (tag : String) (members : List (String × Value)) : Value :=
  .object ((tagName, .string tag) :: members)

mutual

/-- A type as a value. -/
def ofTy : Ty → Value
  | .number => tagged "num" []
  | .numberLit x => tagged "numlit" [("value", .ofDouble x)]
  | .string => tagged "str" []
  | .stringLit s => tagged "strlit" [("value", .string s)]
  | .boolean => tagged "bool" []
  | .booleanLit b => tagged "boollit" [("value", .bool b)]
  | .var n => tagged "var" [("name", .string n)]
  | .func ps r => tagged "func" [("params", .array (ofTyList ps)), ("returns", ofTy r)]
  | .object fs => tagged "obj" [("fields", .object (ofTyFields fs))]

/-- Types as values. -/
def ofTyList : List Ty → List Value
  | [] => []
  | t :: ts => ofTy t :: ofTyList ts

/-- Fields as members. -/
def ofTyFields : List (String × Ty) → List (String × Value)
  | [] => []
  | (k, t) :: fs => (k, ofTy t) :: ofTyFields fs

end

/-- A constraint as a value. -/
def ofConstraint : Constraint → Value
  | .equals l r => tagged "eq" [("left", ofTy l), ("right", ofTy r)]
  | .apply f as r =>
    tagged "apply" [("func", ofTy f), ("args", .array (ofTyList as)), ("ret", ofTy r)]
  | .concat a b r => tagged "concat" [("first", ofTy a), ("second", ofTy b), ("ret", ofTy r)]
  | .index o f r => tagged "index" [("obj", ofTy o), ("field", ofTy f), ("ret", ofTy r)]

/-- A list of constraints as a value. -/
def ofConstraints (cs : List Constraint) : Value := .array (cs.map ofConstraint)

/-- A substitution as a value. -/
def ofSubst (s : Subst) : Value := .object (ofTyFields s.bindings)

/-! ## Reading -/

/-- The type of a kind with the given parts. -/
def buildTy (kind : Kind) (parts : List (String × Part)) : Except DataError Ty :=
  match kind with
  | .number => .ok .number
  | .numberLit => do
    return .numberLit (← needPart parts "value" fun
      | .number x => some x
      | _ => none)
  | .string => .ok .string
  | .stringLit => do return .stringLit (← needText parts "value")
  | .boolean => .ok .boolean
  | .booleanLit => do
    return .booleanLit (← needPart parts "value" fun
      | .flag b => some b
      | _ => none)
  | .variable => do return .var (← needText parts "name")
  | .function => do return .func (← needTypes parts "params") (← needType parts "returns")
  | .object => do
    return .ofFields (← needPart parts "fields" fun
      | .fields fs => some fs
      | _ => none)

/-- The constraint of a kind with the given parts. -/
def buildConstraint (kind : ConstraintKind) (parts : List (String × Part)) :
    Except DataError Constraint :=
  match kind with
  | .equals => do return .equals (← needType parts "left") (← needType parts "right")
  | .apply => do
    return .apply (← needType parts "func") (← needTypes parts "args") (← needType parts "ret")
  | .concat => do
    return .concat (← needType parts "first") (← needType parts "second") (← needType parts "ret")
  | .index => do
    return .index (← needType parts "obj") (← needType parts "field") (← needType parts "ret")

/-- The type that a value stands for, for values that nest less than `depth` deep. -/
def tyOfValueWithin (depth : Nat) (v : Value) : Except DataError Ty :=
  match depth with
  | 0 => .error (.invalidType v.found typeFamily.wanted)
  | depth + 1 => do
    let (variant, body) ← typeFamily.split v
    buildTy variant.kind (← partsOfBody (tyOfValueWithin depth) variant body)

/-- The type that a value stands for. -/
def tyOfValue (v : Value) : Except DataError Ty := tyOfValueWithin (v.depth + 1) v

/-- A type in a text. -/
def readTy (limit room : Nat) (cs : List Char) : Except Error (Ty × List Char) := do
  let ((variant, body), rest) ← typeFamily.read limit room cs
  let parts ← liftData (partsOfBody tyOfValue variant body)
  return (← liftData (buildTy variant.kind parts), rest)

/-- A constraint in a text. -/
def readConstraint (limit room : Nat) (cs : List Char) : Except Error (Constraint × List Char) := do
  let ((variant, body), rest) ← constraintFamily.read limit room cs
  let parts ← liftData (partsOfBody tyOfValue variant body)
  return (← liftData (buildConstraint variant.kind parts), rest)

/-- A substitution in a text. -/
def readSubst (limit room : Nat) (cs : List Char) : Except Error (Subst × List Char) :=
  match skipSpace cs, room with
  | '\x7b' :: _, 0 => .error .malformed
  | '\x7b' :: rest, room + 1 =>
    let member (s : Subst) (name : String) (cs : List Char) : Except Error (Subst × List Char) := do
      let (t, cs) ← afterColon (readTy limit room) cs
      return (s.put name t, cs)
    readMembers (readChars [] none) member limit true .empty rest
  | _, _ => .error (unwanted "a map" cs)

/-! ## Whole texts -/

/-- Read a whole text, the reader being given the limits that hold for it. -/
def parse {α : Type} (read : Nat → Nat → List Char → Except Error (α × List Char)) (text : String) :
    Except Error α :=
  let cs := text.toList
  readText (read (cs.length + 1) maxNesting) cs

/-- The type that a text stands for. -/
def parseTy (text : String) : Except Error Ty := parse readTy text

/-- The constraint that a text stands for. -/
def parseConstraint (text : String) : Except Error Constraint := parse readConstraint text

/-- The list of constraints that a text stands for. -/
def parseConstraints (text : String) : Except Error (List Constraint) :=
  parse (fun limit => readList (readConstraint limit) limit) text

/-- The substitution that a text stands for. -/
def parseSubst (text : String) : Except Error Subst := parse readSubst text

end TypeSolver.Wire
