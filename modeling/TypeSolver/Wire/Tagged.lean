import TypeSolver.Json.Reader
import TypeSolver.Ty.Basic
import TypeSolver.Wire.Named

/-!
# Tagged values

Types and constraints are exchanged as objects with a member `type` that says which variant they
are, the other members being the parts of that variant in any order; members that the variant does
not have are ignored.  The same can be given as an array of the tag and the parts in their declared
order.

A tagged value at the top of a text has its tag checked as soon as it is read; its parts are taken
from the tree once the whole value has been read.  Inside a tree a tag may also be a number, the
position of the variant in its family.
-/

namespace TypeSolver.Wire

open Json

/-! ## Families of variants -/

/-- What sort of thing a part of a variant is. -/
inductive Shape where
  | number
  | text
  | flag
  | type
  | types
  | fields
deriving DecidableEq, Inhabited

/-- A part of a variant, read. -/
inductive Part where
  | number (x : Double)
  | text (s : String)
  | flag (b : Bool)
  | type (t : Ty)
  | types (ts : List Ty)
  | fields (fs : List (String × Ty))
deriving Inhabited

/-- A variant: which one it is, its tag, its name in messages, and its parts in order. -/
structure Variant (κ : Type) where
  kind : κ
  tag : String
  label : String
  parts : List (String × Shape)

/-- Variants told apart by a tag. -/
structure Family (κ : Type) where
  label : String
  variants : List (Variant κ)

/-- What a tagged value holds besides its tag. -/
inductive Body where
  | members (ms : List (String × Value))
  | items (vs : List Value)
deriving Inhabited

/-- How deeply containers nest in a body. -/
def Body.depth : Body → Nat
  | .members ms => Value.depthMembers ms
  | .items vs => Value.depthList vs

/-- The name of the member that holds the tag. -/
def tagName : String := "type"

/-! ## Tags -/

namespace Family

variable {κ : Type}

/-- What is wanted where a value of the family is. -/
def wanted (f : Family κ) : String := "internally tagged enum " ++ f.label

/-- The variant of a tag. -/
def ofTag (f : Family κ) (tag : String) : Except DataError (Variant κ) :=
  match f.variants.find? fun v => v.tag == tag with
  | some v => .ok v
  | none => .error (.unknownVariant tag (f.variants.map Variant.tag))

/-- The variant that a value in a tree names, by its tag or by its position. -/
def ofTagValue (f : Family κ) : Value → Except DataError (Variant κ)
  | .string tag => f.ofTag tag
  | .number (.nat i) =>
    match f.variants[i]? with
    | some v => .ok v
    | none => .error (.invalidValue (.number (.nat i))
        ("variant index 0 <= i < " ++ toString f.variants.length))
  | v => .error (.invalidType v.found "variant identifier")

/-- Separate the tag from the other members.  `done` holds members passed, last first. -/
def splitMembers (f : Family κ) (tag : Option (Variant κ)) (done : List (String × Value)) :
    List (String × Value) → Except DataError (Variant κ × Body)
  | [] =>
    match tag with
    | some v => .ok (v, .members done.reverse)
    | none => .error (.missingField tagName)
  | (name, v) :: ms =>
    if name = tagName then
      match tag with
      | some _ => .error (.duplicateField tagName)
      | none => do splitMembers f (some (← f.ofTagValue v)) done ms
    else splitMembers f tag ((name, v) :: done) ms

/-- The variant and the body of a value in a tree. -/
def split (f : Family κ) : Value → Except DataError (Variant κ × Body)
  | .object ms => f.splitMembers none [] ms
  | .array [] => .error (.missingField tagName)
  | .array (tag :: rest) => do return (← f.ofTagValue tag, .items rest)
  | v => .error (.invalidType v.found f.wanted)

/-- A tag in a text. -/
def readTag (f : Family κ) (cs : List Char) : Except Error (Variant κ × List Char) := do
  let (tag, cs) ← readStringAs "variant identifier" cs
  return (← liftData (f.ofTag tag), cs)

/-- The variant and the body of a value in a text. -/
def read (f : Family κ) (limit room : Nat) (cs : List Char) :
    Except Error ((Variant κ × Body) × List Char) :=
  match skipSpace cs, room with
  | '\x7b' :: _, 0 => .error .malformed
  | '[' :: _, 0 => .error .malformed
  | '\x7b' :: rest, room + 1 => do
    let member (state : Option (Variant κ) × List (String × Value)) (name : String)
        (cs : List Char) :
        Except Error ((Option (Variant κ) × List (String × Value)) × List Char) :=
      if name = tagName then
        match state.1 with
        | some _ => .error (.data (.duplicateField tagName))
        | none => do
          let (v, cs) ← afterColon f.readTag cs
          return ((some v, state.2), cs)
      else do
        let (v, cs) ← afterColon (readValue limit room) cs
        return ((state.1, (name, v) :: state.2), cs)
    let ((tag, done), rest) ← readMembers (readChars [] none) member limit true (none, []) rest
    match tag with
    | some v => return ((v, .members done.reverse), rest)
    | none => throw (.data (.missingField tagName))
  | '[' :: rest, room + 1 => do
    let (more, rest) ← nextItem true rest
    if more then do
      let (v, rest) ← f.readTag rest
      let (items, rest) ← readItems (readValue limit room) limit false [] rest
      return ((v, .items items), rest)
    else throw (.data (.missingField tagName))
  | _, _ => .error (unwanted f.wanted cs)

end Family

/-! ## Parts -/

/-- A part of a given shape, its types being read by the caller. -/
def partOfValue (type : Value → Except DataError Ty) : Shape → Value → Except DataError Part
  | .number, .number n => .ok (.number n.toDouble)
  | .number, v => .error (.invalidType v.found "f64")
  | .text, .string s => .ok (.text s)
  | .text, v => .error (.invalidType v.found "a string")
  | .flag, .bool b => .ok (.flag b)
  | .flag, v => .error (.invalidType v.found "a boolean")
  | .type, v => (type v).map .type
  | .types, .array vs => (vs.mapM type).map .types
  | .types, v => .error (.invalidType v.found "a sequence")
  | .fields, .object ms =>
    (ms.mapM fun m => (type m.2).map fun t => (m.1, t)).map .fields
  | .fields, v => .error (.invalidType v.found "a map")

/-- A number of elements, in words. -/
def elements (n : Nat) : String := if n = 1 then "1 element" else toString n ++ " elements"

/-- The parts of a variant among the members of an object, in the order of the text.  `done` holds
the parts read. -/
def partsOfMembers (type : Value → Except DataError Ty) (shapes : List (String × Shape))
    (done : List (String × Part)) : List (String × Value) → Except DataError (List (String × Part))
  | [] => .ok done
  | (name, v) :: ms =>
    match shapes.lookup name with
    | none => partsOfMembers type shapes done ms
    | some shape =>
      if (done.lookup name).isSome then .error (.duplicateField name)
      else do
        let part ← partOfValue type shape v
        partsOfMembers type shapes (done ++ [(name, part)]) ms

/-- The parts of a variant given one after the other.  `count` parts have been read. -/
def partsOfItems (type : Value → Except DataError Ty) (tooShort : String) (count : Nat) :
    List (String × Shape) → List Value → Except DataError (List (String × Part))
  | [], [] => .ok []
  | [], vs => .error (.invalidLength (count + vs.length) (elements count ++ " in sequence"))
  | _ :: _, [] => .error (.invalidLength count tooShort)
  | (name, shape) :: shapes, v :: vs => do
    let part ← partOfValue type shape v
    return (name, part) :: (← partsOfItems type tooShort (count + 1) shapes vs)

/-- The parts of a variant, by name. -/
def partsOfBody {κ : Type} (type : Value → Except DataError Ty) (v : Variant κ) :
    Body → Except DataError (List (String × Part))
  | .members ms => partsOfMembers type v.parts [] ms
  | .items vs =>
    partsOfItems type ("struct variant " ++ v.label ++ " with " ++ elements v.parts.length) 0
      v.parts vs

/-- A part that has to be there. -/
def needPart {α : Type} (parts : List (String × Part)) (name : String) (pick : Part → Option α) :
    Except DataError α :=
  match (parts.lookup name).bind pick with
  | some a => .ok a
  | none => .error (.missingField name)

/-- A type that has to be there. -/
def needType (parts : List (String × Part)) (name : String) : Except DataError Ty :=
  needPart parts name fun
    | .type t => some t
    | _ => none

/-- A list of types that has to be there. -/
def needTypes (parts : List (String × Part)) (name : String) : Except DataError (List Ty) :=
  needPart parts name fun
    | .types ts => some ts
    | _ => none

/-- A text that has to be there. -/
def needText (parts : List (String × Part)) (name : String) : Except DataError String :=
  needPart parts name fun
    | .text s => some s
    | _ => none

end TypeSolver.Wire
