/-!
# Places in a YAML text

The characters that structure a YAML text, and a cursor that knows its line and column.  A line ends
with a line feed, a carriage return, both in that order, or one of three other characters; blanks
are the space and the tab.
-/

namespace TypeSolver.Yaml

/-! ## Characters -/

/-- Whether a character ends a line. -/
def isBreak (c : Char) : Bool :=
  c = '\n' || c = '\r' || c = '\x85' || c = '\u2028' || c = '\u2029'

/-- Whether a character is a space or a tab. -/
def isBlank (c : Char) : Bool := c = ' ' || c = '\t'

/-- Whether a character separates words. -/
def isGap (c : Char) : Bool := isBlank c || isBreak c

/-- Whether a text starts with a gap. -/
def startsGap : List Char → Bool
  | [] => false
  | c :: _ => isGap c

/-- Whether a text starts with a line break. -/
def startsBreak : List Char → Bool
  | [] => false
  | c :: _ => isBreak c

/-- Whether a word cannot go on here: a gap follows, or nothing. -/
def endsWord : List Char → Bool
  | [] => true
  | c :: _ => isGap c

/-- What a line break counts as: a line feed, except for the two separators of lines and
paragraphs. -/
def breakText (c : Char) : Char := if c = '\u2028' || c = '\u2029' then c else '\n'

/-- Whether a character may stand in a text at all. -/
def isAllowed (c : Char) : Bool :=
  let n := c.toNat
  n = 0x09 || n = 0x0a || n = 0x0d || n = 0x85 || (0x20 ≤ n && n ≤ 0x7e) ||
    (0xa0 ≤ n && n ≤ 0xfffd) || 0x10000 ≤ n

/-- The mark that may stand at the start of a line. -/
def byteOrderMark : Char := '\ufeff'

/-! ## Cursors -/

/-- A place in a text: what follows it, how many characters precede it, and its line and column, all
counted from zero. -/
structure Cursor where
  rest : List Char
  index : Nat
  line : Nat
  column : Nat

namespace Cursor

/-- The start of a text. -/
def start (text : List Char) : Cursor := ⟨text, 0, 0, 0⟩

/-- Past some characters of a line. -/
def skip (c : Cursor) (count : Nat) : Cursor :=
  ⟨c.rest.drop count, c.index + count, c.line, c.column + count⟩

/-- Past the characters of a line that satisfy a condition. -/
def skipWhile (c : Cursor) (p : Char → Bool) : Cursor := c.skip (c.rest.takeWhile p).length

/-- Past a line break, if there is one here. -/
def newLine (c : Cursor) : Cursor :=
  match c.rest with
  | '\r' :: '\n' :: rest => ⟨rest, c.index + 2, c.line + 1, 0⟩
  | _ :: rest => ⟨rest, c.index + 1, c.line + 1, 0⟩
  | [] => c

/-- Whether three characters stand here as a word at the start of a line. -/
def isMark (c : Cursor) (mark : List Char) : Bool :=
  c.column = 0 && mark.isPrefixOf c.rest && endsWord (c.rest.drop mark.length)

/-- The word that starts a document. -/
def startMark : List Char := ['-', '-', '-']

/-- The word that ends a document. -/
def endMark : List Char := ['.', '.', '.']

/-- Whether a document starts or ends here. -/
def isDocumentMark (c : Cursor) : Bool := c.isMark startMark || c.isMark endMark

end Cursor

end TypeSolver.Yaml
