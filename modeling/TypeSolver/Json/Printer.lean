import TypeSolver.Json.Value

/-!
# Writing JSON

A value is written without blanks, or indented by two blanks a level with a line for each element
and member.  Characters below the space are escaped, the common ones by a letter; a quote and a
backslash have a backslash before them; everything else is written as it is.
-/

namespace TypeSolver.Json

/-! ## Scalars -/

/-- How one character of a string is written. -/
def escapeChar (c : Char) : List Char :=
  if c = '"' then ['\\', '"']
  else if c = '\\' then ['\\', '\\']
  else if c = '\x08' then ['\\', 'b']
  else if c = '\x0c' then ['\\', 'f']
  else if c = '\n' then ['\\', 'n']
  else if c = '\r' then ['\\', 'r']
  else if c = '\t' then ['\\', 't']
  else if c.toNat < 0x20 then
    ['\\', 'u', '0', '0', Nat.digitChar (c.toNat / 16), Nat.digitChar (c.toNat % 16)]
  else [c]

/-- A string, between quotes. -/
def writeString (s : String) : List Char :=
  '"' :: (s.toList.flatMap escapeChar ++ ['"'])

/-- A number. -/
def writeNumber : Number → List Char
  | .nat n => Nat.toDigits 10 n
  | .negative n => '-' :: Nat.toDigits 10 n
  | .double x => NumberLayout.exchanged.finite x

/-- A truth value. -/
def writeBool (b : Bool) : List Char :=
  if b then ['t', 'r', 'u', 'e'] else ['f', 'a', 'l', 's', 'e']

/-- The word for nothing. -/
def writeNull : List Char := ['n', 'u', 'l', 'l']

/-! ## Without blanks -/

mutual

/-- A value without blanks. -/
def write : Value → List Char
  | .null => writeNull
  | .bool b => writeBool b
  | .number n => writeNumber n
  | .string s => writeString s
  | .array [] => ['[', ']']
  | .array (v :: vs) => '[' :: (write v ++ writeItems vs)
  | .object [] => ['\x7b', '\x7d']
  | .object ((k, v) :: ms) => '\x7b' :: (writeString k ++ ':' :: (write v ++ writeMembers ms))

/-- The elements after the first, and the closing bracket. -/
def writeItems : List Value → List Char
  | [] => [']']
  | v :: vs => ',' :: (write v ++ writeItems vs)

/-- The members after the first, and the closing brace. -/
def writeMembers : List (String × Value) → List Char
  | [] => ['\x7d']
  | (k, v) :: ms => ',' :: (writeString k ++ ':' :: (write v ++ writeMembers ms))

end

/-- The text of a value, without blanks. -/
def Value.compact (v : Value) : String := String.ofList (write v)

/-! ## Indented -/

/-- A new line at a level. -/
def newLine (level : Nat) : List Char := '\n' :: List.replicate (2 * level) ' '

mutual

/-- A value at a level, with a line for each element and member. -/
def writeIndented (level : Nat) : Value → List Char
  | .array [] => ['[', ']']
  | .array (v :: vs) =>
    '[' :: (newLine (level + 1) ++ writeIndented (level + 1) v ++ writeItemsIndented level vs)
  | .object [] => ['\x7b', '\x7d']
  | .object ((k, v) :: ms) =>
    '\x7b' :: (newLine (level + 1) ++ writeString k ++ ':' :: ' ' ::
      (writeIndented (level + 1) v ++ writeMembersIndented level ms))
  | .null => writeNull
  | .bool b => writeBool b
  | .number n => writeNumber n
  | .string s => writeString s

/-- The elements after the first, and the closing bracket on a line of its own. -/
def writeItemsIndented (level : Nat) : List Value → List Char
  | [] => newLine level ++ [']']
  | v :: vs =>
    ',' :: (newLine (level + 1) ++ writeIndented (level + 1) v ++ writeItemsIndented level vs)

/-- The members after the first, and the closing brace on a line of its own. -/
def writeMembersIndented (level : Nat) : List (String × Value) → List Char
  | [] => newLine level ++ ['\x7d']
  | (k, v) :: ms =>
    ',' :: (newLine (level + 1) ++ writeString k ++ ':' :: ' ' ::
      (writeIndented (level + 1) v ++ writeMembersIndented level ms))

end

/-- The text of a value, indented. -/
def Value.pretty (v : Value) : String := String.ofList (writeIndented 0 v)

end TypeSolver.Json
