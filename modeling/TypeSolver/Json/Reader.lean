import TypeSolver.Json.Numeral

/-!
# Reading JSON

A text is read from left to right, and the first thing wrong with it is the error.  Each function
here takes the characters still to be read and gives back what it read and the characters after it.

`readValue` reads any value into a tree.  `readItems` and `readMembers` walk an array and an object
for a caller who reads the elements himself, so that a shape can be checked while its text is being
read.  `skipValue` passes over a value that nobody wants: it checks that the text is JSON and no
more, so a number may be too large, a surrogate may stand alone, and nesting has no limit.

Two numbers bound the reading.  `room` is how many containers may still be opened inside one
another.  `limit` is how many elements an array or an object may have; with the length of the text
as limit it is never reached.
-/

namespace TypeSolver.Json

/-! ## Blanks and words -/

/-- Whether a character may stand between the parts of a text. -/
def isSpace (c : Char) : Bool := c = ' ' || c = '\t' || c = '\n' || c = '\r'

/-- The text from its next part on. -/
def skipSpace (cs : List Char) : List Char := cs.dropWhile isSpace

/-- The text after a word that has to be there. -/
def readWord : List Char → List Char → Except Error (List Char)
  | [], cs => .ok cs
  | _ :: _, [] => .error .truncated
  | w :: ws, c :: cs => if w = c then readWord ws cs else .error .malformed

/-- One character that has to be there, after blanks. -/
def readMark (mark : Char) (cs : List Char) : Except Error (List Char) :=
  match skipSpace cs with
  | [] => .error .truncated
  | c :: rest => if c = mark then .ok rest else .error .malformed

/-! ## Strings -/

/-- The value of a hexadecimal digit. -/
def hexValue? (c : Char) : Option Nat :=
  if c.isDigit then some (c.toNat - '0'.toNat)
  else if 'a' ≤ c && c ≤ 'f' then some (c.toNat - 'a'.toNat + 10)
  else if 'A' ≤ c && c ≤ 'F' then some (c.toNat - 'A'.toNat + 10)
  else none

/-- The value of four hexadecimal digits. -/
def hexQuad? (a b c d : Char) : Option Nat := do
  return (((← hexValue? a) * 16 + (← hexValue? b)) * 16 + (← hexValue? c)) * 16 + (← hexValue? d)

/-- Why four hexadecimal digits are not there.  A text with less than four bytes left has ended; any
other has a wrong character. -/
def quadError (cs : List Char) : Error :=
  if (String.ofList cs).utf8ByteSize < 4 then .truncated else .malformed

/-- The character that a letter after a backslash stands for. -/
def escaped? (c : Char) : Option Char :=
  if c = '"' then some '"'
  else if c = '\\' then some '\\'
  else if c = '/' then some '/'
  else if c = 'b' then some '\x08'
  else if c = 'f' then some '\x0c'
  else if c = 'n' then some '\n'
  else if c = 'r' then some '\r'
  else if c = 't' then some '\t'
  else none

/-- Whether a code unit is the first half of a pair. -/
def isLeading (u : Nat) : Bool := 0xd800 ≤ u && u < 0xdc00

/-- Whether a code unit is the second half of a pair. -/
def isTrailing (u : Nat) : Bool := 0xdc00 ≤ u && u < 0xe000

/-- The character of a pair of code units. -/
def pairChar (leading trailing : Nat) : Char :=
  Char.ofNat (0x10000 + (leading - 0xd800) * 0x400 + (trailing - 0xdc00))

/-- What is wrong after the first half of a pair when no second half follows. -/
def unpairedError : List Char → Error
  | [] => .truncated
  | ['\\'] => .truncated
  | '\\' :: 'u' :: cs => quadError cs
  | _ => .malformed

/-- A string after its opening quote.  `done` holds the characters read, last first, and `leading`
the first half of a pair that waits for its second. -/
def readChars (done : List Char) (leading : Option Nat) :
    List Char → Except Error (String × List Char)
  | '\\' :: 'u' :: a :: b :: c :: d :: cs =>
    match hexQuad? a b c d, leading with
    | none, _ => .error .malformed
    | some u, some v =>
      if isTrailing u then readChars (pairChar v u :: done) none cs else .error .malformed
    | some u, none =>
      if isTrailing u then .error .malformed
      else if isLeading u then readChars done (some u) cs
      else readChars (Char.ofNat u :: done) none cs
  | cs =>
    match leading with
    | some _ => .error (unpairedError cs)
    | none =>
      match cs with
      | [] => .error .truncated
      | ['\\'] => .error .truncated
      | '\\' :: c :: rest =>
        match escaped? c with
        | some e => readChars (e :: done) none rest
        | none => .error (if c = 'u' then quadError rest else .malformed)
      | c :: rest =>
        if c = '"' then .ok (String.ofList done.reverse, rest)
        else if c.toNat < 0x20 then .error .malformed
        else readChars (c :: done) none rest

/-- Pass over a string after its opening quote. -/
def skipChars : List Char → Except Error (Unit × List Char)
  | '\\' :: 'u' :: a :: b :: c :: d :: cs =>
    if (hexQuad? a b c d).isSome then skipChars cs else .error .malformed
  | [] => .error .truncated
  | ['\\'] => .error .truncated
  | '\\' :: c :: rest =>
    if (escaped? c).isSome then skipChars rest
    else .error (if c = 'u' then quadError rest else .malformed)
  | c :: rest =>
    if c = '"' then .ok ((), rest)
    else if c.toNat < 0x20 then .error .malformed
    else skipChars rest

/-! ## Arrays and objects -/

/-- Whether an array goes on, after its opening bracket or after an element, and the text from the
next element or from after the closing bracket on. -/
def nextItem (first : Bool) (cs : List Char) : Except Error (Bool × List Char) :=
  match skipSpace cs with
  | [] => .error .truncated
  | c :: rest =>
    if c = ']' then .ok (false, rest)
    else if first then .ok (true, c :: rest)
    else if c = ',' then
      match skipSpace rest with
      | [] => .error .truncated
      | d :: rest => if d = ']' then .error .malformed else .ok (true, d :: rest)
    else .error .malformed

/-- Whether an object goes on, after its opening brace or after a member, and the text from after
the next name's opening quote or from after the closing brace on. -/
def nextMember (first : Bool) (cs : List Char) : Except Error (Bool × List Char) :=
  match skipSpace cs with
  | [] => .error .truncated
  | c :: rest =>
    if c = '\x7d' then .ok (false, rest)
    else if first then
      if c = '"' then .ok (true, rest) else .error .malformed
    else if c = ',' then
      match skipSpace rest with
      | [] => .error .truncated
      | d :: rest => if d = '"' then .ok (true, rest) else .error .malformed
    else .error .malformed

/-- The elements of an array after its opening bracket, or after one of its elements, each read by
the caller.  `done` holds the elements read, last first. -/
def readItems {α : Type} (item : List Char → Except Error (α × List Char)) (limit : Nat)
    (first : Bool) (done : List α) (cs : List Char) : Except Error (List α × List Char) :=
  match limit with
  | 0 => .error .truncated
  | limit + 1 => do
    let (more, cs) ← nextItem first cs
    if more then do
      let (a, cs) ← item cs
      readItems item limit false (a :: done) cs
    else return (done.reverse, cs)

/-- The members of an object after its opening brace, or after one of its members.  The caller reads
each name after its opening quote, and then the rest of the member from its colon on, given the name
and what came of the members before it. -/
def readMembers {κ σ : Type} (name : List Char → Except Error (κ × List Char))
    (member : σ → κ → List Char → Except Error (σ × List Char)) (limit : Nat) (first : Bool)
    (state : σ) (cs : List Char) : Except Error (σ × List Char) :=
  match limit with
  | 0 => .error .truncated
  | limit + 1 => do
    let (more, cs) ← nextMember first cs
    if more then do
      let (k, cs) ← name cs
      let (state, cs) ← member state k cs
      readMembers name member limit false state cs
    else return (state, cs)

/-- The value of a member, from its colon on. -/
def afterColon {α : Type} (read : List Char → Except Error (α × List Char)) (cs : List Char) :
    Except Error (α × List Char) := do
  read (← readMark ':' cs)

/-- Any value. -/
def readValue (limit : Nat) (room : Nat) (cs : List Char) : Except Error (Value × List Char) :=
  match skipSpace cs with
  | [] => .error .truncated
  | c :: rest =>
    if c = 'n' then do return (.null, ← readWord ['u', 'l', 'l'] rest)
    else if c = 't' then do return (.bool true, ← readWord ['r', 'u', 'e'] rest)
    else if c = 'f' then do return (.bool false, ← readWord ['a', 'l', 's', 'e'] rest)
    else if c = '-' then do
      let (n, rest) ← readNumber true rest
      return (.number n, rest)
    else if c.isDigit then do
      let (n, rest) ← readNumber false (c :: rest)
      return (.number n, rest)
    else if c = '"' then do
      let (s, rest) ← readChars [] none rest
      return (.string s, rest)
    else if c = '[' then
      match room with
      | 0 => .error .malformed
      | room + 1 => do
        let (items, rest) ← readItems (readValue limit room) limit true [] rest
        return (.array items, rest)
    else if c = '\x7b' then
      match room with
      | 0 => .error .malformed
      | room + 1 => do
        let member (done : List (String × Value)) (name : String) (cs : List Char) := do
          let (v, cs) ← afterColon (readValue limit room) cs
          return ((name, v) :: done, cs)
        let (members, rest) ← readMembers (readChars [] none) member limit true [] rest
        return (.object members.reverse, rest)
    else .error .malformed

/-! ## Passing over a value -/

/-- At least one digit of a number that nobody wants; a text that ends here counts as wrong. -/
def looseDigits (cs : List Char) : Except Error (List Char × List Char) :=
  match takeDigits cs with
  | ([], _) => .error .malformed
  | found => .ok found

/-- Pass over a number without its sign. -/
def skipNumber (cs : List Char) : Except Error (List Char) := do
  let (whole, cs) ← looseDigits cs
  if 1 < whole.length && whole.head? = some '0' then throw .malformed
  let cs ← match cs with
    | '.' :: cs => (looseDigits cs).map Prod.snd
    | cs => pure cs
  match cs with
  | [] => return []
  | c :: rest =>
    if isExponentMark c then (looseDigits (exponentSign rest).2).map Prod.snd else return c :: rest

/-- Pass over a value. -/
def skipValue (limit : Nat) (room : Nat) (cs : List Char) : Except Error (Unit × List Char) :=
  match skipSpace cs with
  | [] => .error .truncated
  | c :: rest =>
    if c = 'n' then do return ((), ← readWord ['u', 'l', 'l'] rest)
    else if c = 't' then do return ((), ← readWord ['r', 'u', 'e'] rest)
    else if c = 'f' then do return ((), ← readWord ['a', 'l', 's', 'e'] rest)
    else if c = '-' then do return ((), ← skipNumber rest)
    else if c.isDigit then do return ((), ← skipNumber (c :: rest))
    else if c = '"' then skipChars rest
    else if c = '[' then
      match room with
      | 0 => .error .truncated
      | room + 1 => do
        let (_, rest) ← readItems (skipValue limit room) limit true [] rest
        return ((), rest)
    else if c = '\x7b' then
      match room with
      | 0 => .error .truncated
      | room + 1 =>
        readMembers skipChars (fun _ _ => afterColon (skipValue limit room)) limit true () rest
    else .error .malformed

/-! ## Values of one sort -/

/-- The error for a text in which something else stands than is wanted.  A scalar is read first, and
what is wrong with it comes before its being there at all. -/
def unwanted (wanted : String) (cs : List Char) : Error :=
  let after (found : Found) (read : Except Error (List Char)) : Error :=
    match read with
    | .ok _ => .data (.invalidType found wanted)
    | .error e => e
  let number (read : Except Error (Number × List Char)) : Error :=
    match read with
    | .ok (n, _) => .data (.invalidType (.number n) wanted)
    | .error e => e
  match skipSpace cs with
  | [] => .truncated
  | c :: rest =>
    if c = 'n' then after .null (readWord ['u', 'l', 'l'] rest)
    else if c = 't' then after (.bool true) (readWord ['r', 'u', 'e'] rest)
    else if c = 'f' then after (.bool false) (readWord ['a', 'l', 's', 'e'] rest)
    else if c = '-' then number (readNumber true rest)
    else if c.isDigit then number (readNumber false (c :: rest))
    else if c = '"' then
      match readChars [] none rest with
      | .ok (s, _) => .data (.invalidType (.string s) wanted)
      | .error e => e
    else if c = '[' then .data (.invalidType .sequence wanted)
    else if c = '\x7b' then .data (.invalidType .map wanted)
    else .malformed

/-- A string, described by what it is wanted for. -/
def readStringAs (wanted : String) (cs : List Char) : Except Error (String × List Char) :=
  match skipSpace cs with
  | '"' :: rest => readChars [] none rest
  | _ => .error (unwanted wanted cs)

/-- A string. -/
def readString (cs : List Char) : Except Error (String × List Char) := readStringAs "a string" cs

/-- A truth value. -/
def readBool (cs : List Char) : Except Error (Bool × List Char) :=
  match skipSpace cs with
  | 't' :: rest => do return (true, ← readWord ['r', 'u', 'e'] rest)
  | 'f' :: rest => do return (false, ← readWord ['a', 'l', 's', 'e'] rest)
  | _ => .error (unwanted "a boolean" cs)

/-- A count: a non-negative integer. -/
def readCount (cs : List Char) : Except Error (Nat × List Char) :=
  let counted (read : Except Error (Number × List Char)) : Except Error (Nat × List Char) := do
    match ← read with
    | (.nat n, rest) => return (n, rest)
    | (.negative n, _) => throw (.data (.invalidValue (.number (.negative n)) "usize"))
    | (n, _) => throw (.data (.invalidType (.number n) "usize"))
  match skipSpace cs with
  | '-' :: rest => counted (readNumber true rest)
  | c :: rest =>
    if c.isDigit then counted (readNumber false (c :: rest)) else .error (unwanted "usize" cs)
  | [] => .error .truncated

/-- Something, or `null` for nothing. -/
def readOption {α : Type} (read : List Char → Except Error (α × List Char)) (cs : List Char) :
    Except Error (Option α × List Char) :=
  match skipSpace cs with
  | 'n' :: rest => do return (none, ← readWord ['u', 'l', 'l'] rest)
  | _ => do
    let (a, rest) ← read cs
    return (some a, rest)

/-- An array whose elements the caller reads, each with one container fewer to open. -/
def readList {α : Type} (item : Nat → List Char → Except Error (α × List Char)) (limit room : Nat)
    (cs : List Char) : Except Error (List α × List Char) :=
  match skipSpace cs, room with
  | '[' :: _, 0 => .error .malformed
  | '[' :: rest, room + 1 => readItems (item room) limit true [] rest
  | _, _ => .error (unwanted "a sequence" cs)

/-! ## Whole texts -/

/-- How many containers may be opened inside one another. -/
def maxNesting : Nat := 127

/-- Read a whole text: nothing but blanks may follow. -/
def readText {α : Type} (read : List Char → Except Error (α × List Char)) (cs : List Char) :
    Except Error α := do
  let (a, rest) ← read cs
  if skipSpace rest = [] then return a else throw .malformed

end TypeSolver.Json
