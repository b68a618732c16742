import TypeSolver.Yaml.Plain

/-!
# Writing YAML scalars

A text is written plain where it reads back as itself that way.  Otherwise it stands in single
quotes, or, if it has characters that cannot be shown, in double quotes with these escaped.

Texts with line breaks are left out of account here.  The format has layouts of several lines for
them, and none of these is written: such a text is put in double quotes like one that cannot be
shown.  A valid configuration has no text with a line break.
-/

namespace TypeSolver.Yaml

/-! ## Which quotes -/

/-- Whether a character is written as it is. -/
def isPrintable (c : Char) : Bool :=
  let n := c.toNat
  n = 0x0a || (0x20 ≤ n && n ≤ 0x7e) || (0xa0 ≤ n && n ≤ 0xfffd && n ≠ 0xfeff) || 0x10000 ≤ n

/-- Whether a text can only be written with escapes. -/
def needsEscapes (cs : List Char) : Bool := cs.any fun c => !isPrintable c || isBreak c

/-- Whether a character has a meaning of its own at the start of a scalar before a text. -/
def isLeadingMark (c : Char) (rest : List Char) : Bool :=
  "#,[]\x7b\x7d&*!|>'\"%@`".toList.contains c || ("-?:".toList.contains c && endsWord rest)

/-- Whether a colon or a comment sign would end a plain scalar within a text; `afterGap` says
whether a gap precedes it. -/
def hasMarkWithin (afterGap : Bool) : List Char → Bool
  | [] => false
  | c :: rest =>
    (c = ':' && endsWord rest) || (c = '#' && afterGap) || hasMarkWithin (isGap c) rest

/-- Whether a text does not read back as itself when it is written plain. -/
def needsQuotes (text : String) : Bool :=
  let cs := text.toList
  isAmbiguous text || Cursor.startMark.isPrefixOf cs || Cursor.endMark.isPrefixOf cs ||
    (match cs with
      | c :: rest => isLeadingMark c rest
      | [] => true) ||
    hasMarkWithin false cs || cs.head? = some ' ' || cs.getLast? = some ' '

/-! ## Writing -/

/-- The digits of a number in base sixteen, with capital letters, filled up with zeros. -/
def hexDigits (width n : Nat) : List Char :=
  let digits := (Nat.toDigits 16 n).map Char.toUpper
  List.replicate (width - digits.length) '0' ++ digits

/-- The letter that a character is escaped by. -/
def escapeLetter? (c : Char) : Option Char :=
  match c with
  | '\x00' => some '0'
  | '\x07' => some 'a'
  | '\x08' => some 'b'
  | '\t' => some 't'
  | '\n' => some 'n'
  | '\x0b' => some 'v'
  | '\x0c' => some 'f'
  | '\r' => some 'r'
  | '\x1b' => some 'e'
  | '"' => some '"'
  | '\\' => some '\\'
  | '\x85' => some 'N'
  | '\u2028' => some 'L'
  | '\u2029' => some 'P'
  | _ => none

/-- A character between double quotes. -/
def writeEscaped (c : Char) : List Char :=
  match escapeLetter? c with
  | some letter => ['\\', letter]
  | none =>
    let n := c.toNat
    if isPrintable c then [c]
    else if n ≤ 0xff then '\\' :: 'x' :: hexDigits 2 n
    else if n ≤ 0xffff then '\\' :: 'u' :: hexDigits 4 n
    else '\\' :: 'U' :: hexDigits 8 n

/-- A character between single quotes. -/
def writeSingle (c : Char) : List Char := if c = '\'' then ['\'', '\''] else [c]

/-- A text as a scalar. -/
def writeScalar (text : String) : List Char :=
  let cs := text.toList
  if needsEscapes cs then '"' :: (cs.flatMap writeEscaped ++ ['"'])
  else if needsQuotes text then '\'' :: (cs.flatMap writeSingle ++ ['\''])
  else cs

end TypeSolver.Yaml
