import TypeSolver.Json.Reader
import TypeSolver.Wire.Tagged

/-!
# Records

Configurations, patches and traces are exchanged as objects with fixed members, read one by one: a
member that is wrong is reported before anything after it is looked at.  A record can also be given
as an array of its members in their declared order.
-/

namespace TypeSolver.Wire

open Json

/-- A member of a record: its name, and how reading its value changes the record. -/
structure Field (σ : Type) where
  name : String
  read : σ → List Char → Except Error (σ × List Char)

/-- How a record is read. -/
structure Record (σ : Type) where
  label : String
  fields : List (Field σ)
  /-- whether a member of another name is an error; otherwise it is passed over -/
  closed : Bool
  /-- whether an array may end before the last member -/
  mayEnd : Bool

/-- A member whose value is read by itself and then put into the record. -/
def Field.of {σ α : Type} (name : String) (read : List Char → Except Error (α × List Char))
    (put : σ → α → σ) : Field σ where
  name := name
  read s cs := do
    let (a, cs) ← read cs
    return (put s a, cs)

namespace Record

variable {σ : Type}

/-- What is wanted where the record is. -/
def wanted (r : Record σ) : String := "struct " ++ r.label

/-- A member of an object, given the names of those before it. -/
def readMember (r : Record σ) (limit : Nat) (state : σ × List String) (name : String)
    (cs : List Char) : Except Error ((σ × List String) × List Char) :=
  match r.fields.find? fun f => f.name == name with
  | some f =>
    if state.2.contains name then .error (.data (.duplicateField name))
    else do
      let (s, cs) ← afterColon (f.read state.1) cs
      return ((s, name :: state.2), cs)
  | none =>
    if r.closed then .error (.data (.unknownField name (r.fields.map Field.name)))
    else do
      let (_, cs) ← afterColon (skipValue limit limit) cs
      return (state, cs)

/-- The members given one after the other in an array, `count` of which have been read. -/
def readFields (r : Record σ) (count : Nat) (s : σ) (cs : List Char) :
    List (Field σ) → Except Error (σ × List Char)
  | [] => do return (s, ← readMark ']' cs)
  | f :: fs => do
    let (more, after) ← nextItem (count == 0) cs
    if more then do
      let (s, cs) ← f.read s after
      r.readFields (count + 1) s cs fs
    else if r.mayEnd then return (s, after)
    else
      throw (.data (.invalidLength count (r.wanted ++ " with " ++ elements r.fields.length)))

/-- A record, starting from what it is without any member; also the names of the members that the
text has. -/
def read (r : Record σ) (start : σ) (limit room : Nat) (cs : List Char) :
    Except Error ((σ × List String) × List Char) :=
  match skipSpace cs, room with
  | '\x7b' :: _, 0 => .error .malformed
  | '[' :: _, 0 => .error .malformed
  | '\x7b' :: rest, _ =>
    readMembers (readChars [] none) (r.readMember limit) limit true (start, []) rest
  | '[' :: rest, _ => do
    let (s, rest) ← r.readFields 0 start rest r.fields
    return ((s, r.fields.map Field.name), rest)
  | _, _ => .error (unwanted r.wanted cs)

end Record

end TypeSolver.Wire
