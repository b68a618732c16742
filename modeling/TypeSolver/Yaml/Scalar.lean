import TypeSolver.Yaml.Cursor

/-!
# Scalars in a YAML text

How the text of a scalar is taken from where it stands: a plain scalar, one in quotes, and one in
indented lines.  Within a plain or quoted scalar a line break with the blanks around it counts as
one space, and of several line breaks the first is dropped.

Texts are collected in reverse.
-/

namespace TypeSolver.Yaml

/-! ## Gaps -/

/-- What stands between two words of a scalar. -/
structure Gap where
  /-- the blanks, as long as there is no line break; in reverse -/
  blanks : List Char
  /-- the first line break; empty where it is escaped -/
  lead : Option (List Char)
  /-- the further line breaks, in reverse -/
  breaks : List Char

namespace Gap

/-- No gap. -/
def none : Gap := ⟨[], .none, []⟩

/-- The gap after an escaped line break. -/
def escaped : Gap := ⟨[], some [], []⟩

/-- What a gap counts as, in reverse. -/
def text (g : Gap) : List Char :=
  match g.lead with
  | .none => g.blanks
  | some ['\n'] => if g.breaks.isEmpty then [' '] else g.breaks
  | some lead => g.breaks ++ lead

end Gap

/-- The gap here, and what follows it.  On a further line a tab may not stand before the column
`least`. -/
def takeGap (least limit : Nat) (gap : Gap) (c : Cursor) : Option (Gap × Cursor) :=
  match limit, c.rest with
  | _, [] => some (gap, c)
  | 0, _ => none
  | limit + 1, x :: _ =>
    if isBlank x then
      match gap.lead with
      | none => takeGap least limit { gap with blanks := x :: gap.blanks } (c.skip 1)
      | some _ =>
        if x = '\t' && c.column < least then none else takeGap least limit gap (c.skip 1)
    else if isBreak x then
      match gap.lead with
      | none => takeGap least limit ⟨[], some [breakText x], []⟩ c.newLine
      | some _ => takeGap least limit { gap with breaks := breakText x :: gap.breaks } c.newLine
    else some (gap, c)

/-! ## Plain scalars -/

/-- Whether a character has a meaning of its own between braces. -/
def isFlowMark (c : Char) : Bool := c = ',' || c = '[' || c = ']' || c = '\x7b' || c = '\x7d'

/-- Whether a colon between braces is misplaced before this text. -/
def refusesColon : List Char → Bool
  | [] => false
  | c :: _ => c = '?' || isFlowMark c

/-- The word of a plain scalar at the start of a text, in reverse. -/
def plainWord (flow : Bool) (word : List Char) : List Char → Option (List Char)
  | [] => some word
  | c :: rest =>
    if isGap c || (c = ':' && endsWord rest) || (flow && isFlowMark c) then some word
    else if flow && c = ':' && refusesColon rest then none
    else plainWord flow (c :: word) rest

/-- A plain scalar from here on: its text in reverse, whether a line break follows it, and the
cursor behind it.  By indentation, its further lines start at the column `least` or after it. -/
def plainText (flow : Bool) (least limit : Nat) (text : List Char) (gap : Gap) (c : Cursor) :
    Option (List Char × Bool × Cursor) :=
  match limit with
  | 0 => none
  | limit + 1 =>
    if c.isDocumentMark || c.rest.head? = some '#' then some (text, gap.lead.isSome, c)
    else do
      let word ← plainWord flow [] c.rest
      if word.isEmpty then return (text, gap.lead.isSome, c)
      let text := word ++ (gap.text ++ text)
      let c := c.skip word.length
      if !startsGap c.rest then return (text, false, c)
      let (gap, c) ← takeGap least c.rest.length .none c
      if !flow && c.column < least then return (text, gap.lead.isSome, c)
      plainText flow least limit text gap c

/-! ## Quoted scalars -/

/-- The value of a hexadecimal digit. -/
def hexDigit? (c : Char) : Option Nat :=
  if '0' ≤ c && c ≤ '9' then some (c.toNat - '0'.toNat)
  else if 'a' ≤ c && c ≤ 'f' then some (c.toNat - 'a'.toNat + 10)
  else if 'A' ≤ c && c ≤ 'F' then some (c.toNat - 'A'.toNat + 10)
  else none

/-- The value of hexadecimal digits. -/
def hexValue? (digits : List Char) : Option Nat :=
  digits.foldlM (fun n c => (hexDigit? c).map (16 * n + ·)) 0

/-- The character that a letter after a backslash stands for. -/
def escapedChar? (c : Char) : Option Char :=
  match c with
  | '0' => some '\x00'
  | 'a' => some '\x07'
  | 'b' => some '\x08'
  | 't' => some '\t'
  | '\t' => some '\t'
  | 'n' => some '\n'
  | 'v' => some '\x0b'
  | 'f' => some '\x0c'
  | 'r' => some '\r'
  | 'e' => some '\x1b'
  | ' ' => some ' '
  | '"' => some '"'
  | '/' => some '/'
  | '\\' => some '\\'
  | 'N' => some '\x85'
  | '_' => some '\xa0'
  | 'L' => some '\u2028'
  | 'P' => some '\u2029'
  | _ => none

/-- How many hexadecimal digits a letter after a backslash asks for. -/
def escapeLength (c : Char) : Nat :=
  match c with
  | 'x' => 2
  | 'u' => 4
  | 'U' => 8
  | _ => 0

/-- The character of a code, if there is one. -/
def charOfCode? (n : Nat) : Option Char := if n.isValidChar then some (Char.ofNat n) else none

/-- What an escape after a backslash stands for, and how many characters it has. -/
def escape? : List Char → Option (Char × Nat)
  | [] => none
  | c :: rest =>
    let length := escapeLength c
    if length = 0 then (escapedChar? c).map (·, 1)
    else if rest.length < length then none
    else do
      let n ← hexValue? (rest.take length)
      return (← charOfCode? n, length + 1)

/-- A quoted scalar from behind its first quote on: its text in reverse, and the cursor behind
it. -/
def quotedText (double : Bool) (limit : Nat) (text : List Char) (c : Cursor) :
    Option (List Char × Cursor) :=
  match limit, c.rest with
  | 0, _ => none
  | _, [] => none
  | limit + 1, x :: rest =>
    if isGap x then do
      let (gap, c) ← takeGap 0 c.rest.length .none c
      if c.isDocumentMark then none else quotedText double limit (gap.text ++ text) c
    else if double then
      if x = '"' then some (text, c.skip 1)
      else if x = '\\' then
        if startsBreak rest then do
          let (gap, c) ← takeGap 0 c.rest.length .escaped (c.skip 1).newLine
          if c.isDocumentMark then none else quotedText double limit (gap.text ++ text) c
        else do
          let (y, count) ← escape? rest
          quotedText double limit (y :: text) (c.skip (count + 1))
      else quotedText double limit (x :: text) (c.skip 1)
    else if x = '\'' then
      if rest.head? = some '\'' then quotedText double limit ('\'' :: text) (c.skip 2)
      else some (text, c.skip 1)
    else quotedText double limit (x :: text) (c.skip 1)

/-! ## Indented scalars -/

/-- What becomes of the line breaks at the end of an indented scalar. -/
inductive Chomping where
  | strip
  | clip
  | keep
deriving DecidableEq

/-- What the header of an indented scalar says. -/
structure BlockHeader where
  chomping : Chomping
  /-- by how much the lines are indented; zero where they show it themselves -/
  indent : Nat

/-- The chomping mark at the start of a text. -/
def chomping? : List Char → Option Chomping
  | '+' :: _ => some .keep
  | '-' :: _ => some .strip
  | _ => none

/-- The digit at the start of a text. -/
def leadingDigit? : List Char → Option Nat
  | c :: _ => if c.isDigit then some (c.toNat - '0'.toNat) else none
  | [] => none

/-- The header of an indented scalar, from behind its first character to the next line. -/
def blockHeader (c : Cursor) : Option (BlockHeader × Cursor) := do
  let (before, c) := match chomping? c.rest with
    | some chomping => (some chomping, c.skip 1)
    | none => (none, c)
  let (digit, c) := match leadingDigit? c.rest with
    | some digit => (some digit, c.skip 1)
    | none => (none, c)
  let (after, c) := match before, digit, chomping? c.rest with
    | none, some _, some chomping => (some chomping, c.skip 1)
    | _, _, _ => (none, c)
  if digit = some 0 then failure
  let c := c.skipWhile isBlank
  let c := if c.rest.head? = some '#' then c.skipWhile (!isBreak ·) else c
  if !endsWord c.rest then failure
  return (⟨(before <|> after).getD .clip, digit.getD 0⟩, c.newLine)

/-- The empty lines here: the largest indentation seen, the line breaks in reverse, and the cursor
behind them and behind the indentation of the line that follows.  With `indent` zero every space
counts as indentation. -/
def emptyLines (indent limit largest : Nat) (breaks : List Char) (c : Cursor) :
    Option (Nat × List Char × Cursor) :=
  match limit, c.rest with
  | _, [] => some (max largest c.column, breaks, c)
  | 0, _ => none
  | limit + 1, x :: _ =>
    if x = ' ' && (indent = 0 || c.column < indent) then
      emptyLines indent limit largest breaks (c.skip 1)
    else if x = '\t' && (indent = 0 || c.column < indent) then none
    else if isBreak x then
      emptyLines indent limit (max largest c.column) (breakText x :: breaks) c.newLine
    else some (max largest c.column, breaks, c)

/-- The lines of an indented scalar from here on: its text, the last line break and the line breaks
after that, all in reverse, and the cursor behind them. -/
def blockLines (folded : Bool) (indent limit : Nat) (text lead breaks : List Char) (blank : Bool)
    (c : Cursor) : Option (List Char × List Char × List Char × Cursor) :=
  match limit with
  | 0 => none
  | limit + 1 =>
    if c.column != indent || c.rest.isEmpty then some (text, lead, breaks, c)
    else do
      let startsBlank := (c.rest.head?.map isBlank).getD false
      let joins := folded && lead == ['\n'] && !blank && !startsBlank
      let lead := if !joins then lead else if breaks.isEmpty then [' '] else []
      let line := c.rest.takeWhile (!isBreak ·)
      let text := line.reverse ++ (breaks ++ (lead ++ text))
      let c := c.skip line.length
      let lead := (c.rest.head?.map fun b => [breakText b]).getD []
      let (_, breaks, c) ← emptyLines indent (c.rest.length + 1) 0 [] c.newLine
      blockLines folded indent limit text lead breaks startsBlank c

/-- An indented scalar from behind its first character on, inside a mapping at column `outer`, if
any: its text in reverse, and the cursor behind it. -/
def blockText (folded : Bool) (outer : Option Nat) (c : Cursor) : Option (List Char × Cursor) := do
  let (header, c) ← blockHeader c
  let given := if header.indent = 0 then 0 else outer.getD 0 + header.indent
  let (largest, breaks, c) ← emptyLines given (c.rest.length + 1) 0 [] c
  let least := (outer.map (· + 1)).getD 0
  let indent := if given = 0 then max largest (max least 1) else given
  let (text, lead, breaks, c) ← blockLines folded indent (c.rest.length + 1) [] [] breaks false c
  return match header.chomping with
    | .strip => (text, c)
    | .clip => (lead ++ text, c)
    | .keep => (breaks ++ (lead ++ text), c)

end TypeSolver.Yaml
