import TypeSolver.Number.Double

/-!
# Types

The types that constraints speak of: numbers, strings and booleans, each with its literals; type
variables; functions; and objects with named fields.

An object's fields are kept in the order of their names, each name once.  `Ty.ofFields` builds an
object from any list of fields, a later field replacing an earlier one of the same name.

Each function on types comes with its companions for a list of types and for a list of fields.

`Ty.substitute` replaces one variable, and `Ty.mentions` says whether there is anything to replace.
-/

namespace TypeSolver

/-- The name of a type variable. -/
abbrev Name := String

/-- A type. -/
inductive Ty where
  /-- any number -/
  | number
  /-- one particular number -/
  | numberLit (value : Double)
  /-- any string -/
  | string
  /-- one particular string -/
  | stringLit (value : String)
  /-- either boolean -/
  | boolean
  /-- one particular boolean -/
  | booleanLit (value : Bool)
  /-- a variable, to be solved for -/
  | var (name : Name)
  /-- a function from its parameters to its result -/
  | func (params : List Ty) (result : Ty)
  /-- an object, its fields in the order of their names -/
  | object (fields : List (String × Ty))
deriving Inhabited

/-! ## Kinds -/

/-- What sort of type a type is. -/
inductive Kind where
  | number
  | numberLit
  | string
  | stringLit
  | boolean
  | booleanLit
  | variable
  | function
  | object
deriving DecidableEq, Inhabited

/-- The kind in words. -/
def Kind.text : Kind → String
  | .number => "number"
  | .numberLit => "number literal"
  | .string => "string"
  | .stringLit => "string literal"
  | .boolean => "boolean"
  | .booleanLit => "boolean literal"
  | .variable => "type variable"
  | .function => "function"
  | .object => "object"

namespace Ty

/-- The kind of a type. -/
def kind : Ty → Kind
  | number => .number
  | numberLit _ => .numberLit
  | string => .string
  | stringLit _ => .stringLit
  | boolean => .boolean
  | booleanLit _ => .booleanLit
  | var _ => .variable
  | func _ _ => .function
  | object _ => .object

/-- The name, if the type is a variable. -/
def varName? : Ty → Option Name
  | var n => some n
  | _ => none

/-- The text, if the type is a string literal. -/
def stringLit? : Ty → Option String
  | stringLit s => some s
  | _ => none

/-! ## Objects -/

/-- Put a field into an ordered list of fields, in place of one of the same name. -/
def putField (fields : List (String × Ty)) (name : String) (type : Ty) : List (String × Ty) :=
  match fields with
  | [] => [(name, type)]
  | (k, t) :: rest =>
    if name < k then (name, type) :: (k, t) :: rest
    else if name = k then (k, type) :: rest
    else (k, t) :: putField rest name type

/-- The object with the given fields; of several with one name the last counts. -/
def ofFields (fields : List (String × Ty)) : Ty :=
  object (fields.foldl (fun acc f => putField acc f.1 f.2) [])

/-! ## Equality

Two number literals are equal as values: a NaN literal differs from itself, and the two zeros agree.
-/

mutual

/-- Equality of types. -/
def beq : Ty → Ty → Bool
  | number, number => true
  | numberLit x, numberLit y => x == y
  | string, string => true
  | stringLit s, stringLit t => s == t
  | boolean, boolean => true
  | booleanLit b, booleanLit c => b == c
  | var m, var n => m == n
  | func ps r, func qs q => beqList ps qs && beq r q
  | object fs, object gs => beqFields fs gs
  | _, _ => false

/-- Equality of lists of types. -/
def beqList : List Ty → List Ty → Bool
  | [], [] => true
  | t :: ts, u :: us => beq t u && beqList ts us
  | _, _ => false

/-- Equality of lists of fields. -/
def beqFields : List (String × Ty) → List (String × Ty) → Bool
  | [], [] => true
  | (k, t) :: fs, (l, u) :: gs => k == l && beq t u && beqFields fs gs
  | _, _ => false

end

instance : BEq Ty := ⟨beq⟩

/-! ## Occurrence and replacement of one variable -/

mutual

/-- Whether a variable occurs in a type. -/
def mentions (name : Name) : Ty → Bool
  | var n => n == name
  | func ps r => mentionsList name ps || mentions name r
  | object fs => mentionsFields name fs
  | _ => false

/-- Whether a variable occurs in a list of types. -/
def mentionsList (name : Name) : List Ty → Bool
  | [] => false
  | t :: ts => mentions name t || mentionsList name ts

/-- Whether a variable occurs in the type of a field. -/
def mentionsFields (name : Name) : List (String × Ty) → Bool
  | [] => false
  | (_, t) :: fs => mentions name t || mentionsFields name fs

end

mutual

/-- The type with every occurrence of one variable replaced. -/
def substitute (t : Ty) (name : Name) (replacement : Ty) : Ty :=
  match t with
  | var n => if n = name then replacement else var n
  | func ps r => func (substituteList ps name replacement) (substitute r name replacement)
  | object fs => object (substituteFields fs name replacement)
  | t => t

/-- A list of types with every occurrence of one variable replaced. -/
def substituteList (ts : List Ty) (name : Name) (replacement : Ty) : List Ty :=
  match ts with
  | [] => []
  | t :: ts => substitute t name replacement :: substituteList ts name replacement

/-- Fields with every occurrence of one variable replaced in their types. -/
def substituteFields (fs : List (String × Ty)) (name : Name) (replacement : Ty) :
    List (String × Ty) :=
  match fs with
  | [] => []
  | (k, t) :: fs => (k, substitute t name replacement) :: substituteFields fs name replacement

end

end Ty

end TypeSolver
