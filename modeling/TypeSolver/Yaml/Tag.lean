import TypeSolver.Yaml.Scalar
import TypeSolver.Yaml.Token

/-!
# Tags and directives

A tag is written in full between angle brackets, or as a handle with a suffix, and a handle stands
for the start of a tag.  A directive before a document gives the version of the format, or says what
a handle stands for.  Characters of a tag may be written as octets in base sixteen, each after a
percent sign.
-/

namespace TypeSolver.Yaml

/-- Whether a character may stand in the name of an anchor, a handle or a directive. -/
def isNameChar (c : Char) : Bool := c.isAlphanum || c = '-' || c = '_'

/-! ## Escaped characters -/

/-- An octet at the start of a text, and the rest. -/
def octet? : List Char → Option (Nat × List Char)
  | '%' :: a :: b :: rest => (hexValue? [a, b]).map (·, rest)
  | _ => none

/-- How many octets follow the first one of a character, and what the first one contributes. -/
def leadingOctet? (n : Nat) : Option (Nat × Nat) :=
  if n < 0x80 then some (0, n)
  else if n < 0xc0 then none
  else if n < 0xe0 then some (1, n - 0xc0)
  else if n < 0xf0 then some (2, n - 0xe0)
  else if n < 0xf8 then some (3, n - 0xf0)
  else none

/-- The code of a character whose further octets start a text, and the rest. -/
def furtherOctets? (count code : Nat) (cs : List Char) : Option (Nat × List Char) :=
  match count with
  | 0 => some (code, cs)
  | count + 1 => do
    let (n, cs) ← octet? cs
    if n < 0x80 || 0xc0 ≤ n then failure
    furtherOctets? count (64 * code + (n - 0x80)) cs

/-- An escaped character at the start of a text, and the rest. -/
def octetsChar? (cs : List Char) : Option (Char × List Char) := do
  let (first, cs) ← octet? cs
  let (count, code) ← leadingOctet? first
  let (code, cs) ← furtherOctets? count code cs
  return (Char.ofNat code, cs)

/-! ## Tags -/

/-- Whether a character may stand in a tag; some only where the tag is written in full. -/
def isTagChar (full : Bool) (c : Char) : Bool :=
  isNameChar c || ";/?:@&=+$.!~*'()".toList.contains c ||
    (full && (c = ',' || c = '[' || c = ']'))

/-- The characters of a tag at the start of a text, in reverse before `done`, and the rest. -/
def tagText (full : Bool) (limit : Nat) (done : List Char) (cs : List Char) :
    Option (List Char × List Char) :=
  match limit, cs with
  | limit + 1, c :: rest =>
    if c = '%' then do
      let (x, rest) ← octetsChar? cs
      tagText full limit (x :: done) rest
    else if isTagChar full c then tagText full limit (c :: done) rest
    else some (done, cs)
  | _, cs => some (done, cs)

/-- The characters of a tag at the start of a text, of which there has to be one, and the rest. -/
def someTagText (full : Bool) (cs : List Char) : Option (String × List Char) := do
  let (text, rest) ← tagText full cs.length [] cs
  if text.isEmpty then failure
  return (String.ofList text.reverse, rest)

/-- A handle between exclamation marks, from behind the first one on, and the rest. -/
def handle? (cs : List Char) : Option (String × List Char) :=
  let name := cs.takeWhile isNameChar
  match cs.drop name.length with
  | '!' :: rest => some ("!" ++ String.ofList name ++ "!", rest)
  | _ => none

/-- The handle and the suffix of a tag, from behind its exclamation mark on, and the rest.  A tag in
full has no handle, and neither has a lone exclamation mark. -/
def tagParts (cs : List Char) : Option (String × String × List Char) :=
  match cs with
  | '<' :: rest => do
    let (name, rest) ← someTagText true rest
    match rest with
    | '>' :: rest => return ("", name, rest)
    | _ => none
  | cs =>
    match handle? cs with
    | some (handle, rest) => do
      let (suffix, rest) ← someTagText false rest
      return (handle, suffix, rest)
    | none => do
      let (suffix, rest) ← tagText false cs.length [] cs
      if suffix.isEmpty then return ("", "!", rest)
      return ("!", String.ofList suffix.reverse, rest)

/-! ## Directives -/

/-- A part of a version number, at most nine digits long, and the rest. -/
def versionPart (cs : List Char) : Option (Nat × List Char) :=
  let digits := cs.takeWhile Char.isDigit
  if digits.isEmpty || 9 < digits.length then none
  else
    some (digits.foldl (fun n c => 10 * n + (c.toNat - '0'.toNat)) 0, cs.drop digits.length)

/-- The directive that gives a version, from behind its name on, and the rest. -/
def versionDirective (cs : List Char) : Option (Token × List Char) := do
  let (major, rest) ← versionPart (cs.dropWhile isBlank)
  match rest with
  | '.' :: rest =>
    let (minor, rest) ← versionPart rest
    return (.version major minor, rest)
  | _ => none

/-- The directive that says what a handle stands for, from behind its name on, and the rest. -/
def handleDirective (cs : List Char) : Option (Token × List Char) := do
  let (handle, rest) ← match cs.dropWhile isBlank with
    | '!' :: rest => some ((handle? rest).getD ("!", rest))
    | _ => none
  if !(rest.head?.map isBlank).getD false then failure
  let (start, rest) ← someTagText true (rest.dropWhile isBlank)
  if !endsWord rest then failure
  return (.handle handle start, rest)

/-- A directive from behind its percent sign on, and the rest of the text from the end of its line
on. -/
def directive (cs : List Char) : Option (Token × List Char) := do
  let name := cs.takeWhile isNameChar
  let rest := cs.drop name.length
  if !endsWord rest then failure
  let (token, rest) ←
    if name = "YAML".toList then versionDirective rest
    else if name = "TAG".toList then handleDirective rest
    else none
  let rest := rest.dropWhile isBlank
  let rest := if rest.head? = some '#' then rest.dropWhile (!isBreak ·) else rest
  if rest.isEmpty || startsBreak rest then return (token, rest) else none

end TypeSolver.Yaml
