import TypeSolver.Json.Value
import TypeSolver.Text.Quoted

/-!
# JSON errors

A text can fail to be JSON, it can end too early, or it can be JSON of the wrong shape.  Only the
last has more to say than its kind.
-/

namespace TypeSolver.Json

/-- What stands in a text where something else is wanted. -/
inductive Found where
  | null
  | bool (b : Bool)
  | number (n : Number)
  | string (s : String)
  | sequence
  | map
deriving DecidableEq, Inhabited

/-- What a value is, seen from outside. -/
def Value.found : Value → Found
  | .null => .null
  | .bool b => .bool b
  | .number n => .number n
  | .string s => .string s
  | .array _ => .sequence
  | .object _ => .map

/-- What was found, in words. -/
def Found.text : Found → String
  | .null => "null"
  | .bool b => "boolean `" ++ (if b then "true" else "false") ++ "`"
  | .number (.nat n) => "integer `" ++ toString n ++ "`"
  | .number (.negative n) => "integer `-" ++ toString n ++ "`"
  | .number (.double x) =>
    "floating point `" ++ String.ofList (NumberLayout.exchanged.finite x) ++ "`"
  | .string s => "string " ++ Text.quoted s
  | .sequence => "sequence"
  | .map => "map"

/-- In what way a text has the wrong shape. -/
inductive DataError where
  /-- another sort of value is wanted here -/
  | invalidType (found : Found) (wanted : String)
  /-- another value of this sort is wanted here -/
  | invalidValue (found : Found) (wanted : String)
  /-- a sequence has the wrong number of elements -/
  | invalidLength (count : Nat) (wanted : String)
  /-- a choice is named that there is not -/
  | unknownVariant (name : String) (known : List String)
  /-- a member is named that there is not -/
  | unknownField (name : String) (known : List String)
  | missingField (name : String)
  | duplicateField (name : String)
deriving DecidableEq, Inhabited

/-- Names to choose from, in words. -/
def choices : List String → String
  | [a] => "`" ++ a ++ "`"
  | [a, b] => "`" ++ a ++ "` or `" ++ b ++ "`"
  | names => "one of " ++ ", ".intercalate (names.map fun n => "`" ++ n ++ "`")

/-- The text of a data error. -/
def DataError.message : DataError → String
  | .invalidType found wanted => "invalid type: " ++ found.text ++ ", expected " ++ wanted
  | .invalidValue found wanted => "invalid value: " ++ found.text ++ ", expected " ++ wanted
  | .invalidLength count wanted => "invalid length " ++ toString count ++ ", expected " ++ wanted
  | .unknownVariant name known => "unknown variant `" ++ name ++ "`, expected " ++ choices known
  | .unknownField name known => "unknown field `" ++ name ++ "`, expected " ++ choices known
  | .missingField name => "missing field `" ++ name ++ "`"
  | .duplicateField name => "duplicate field `" ++ name ++ "`"

/-- Why a text cannot be read. -/
inductive Error where
  /-- it is not JSON -/
  | malformed
  /-- it ends where more is needed -/
  | truncated
  /-- it is JSON of the wrong shape -/
  | data (cause : DataError)
deriving DecidableEq, Inhabited

/-- The text of an error. -/
def Error.message : Error → String
  | .malformed => "the text is not JSON"
  | .truncated => "the text ends too early"
  | .data cause => cause.message

end TypeSolver.Json
