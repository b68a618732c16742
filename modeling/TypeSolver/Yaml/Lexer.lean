import TypeSolver.Yaml.Tag

/-!
# Cutting a YAML text into tokens

A key of a mapping need not be announced: that a scalar was a key shows only at the colon behind it.
So the lexer remembers where a key could have started, and puts the token for the key there when the
colon comes.  Such a candidate lasts to the end of its line, and 1024 characters at most.

In a mapping by indentation, the column of its keys marks its extent: a token further to the left
ends the mapping.  Between braces indentation does not count.
-/

namespace TypeSolver.Yaml

/-- Where a key could have started. -/
structure Candidate where
  /-- how many tokens there were -/
  place : Nat
  /-- whether nothing but a key can stand there -/
  required : Bool
  index : Nat
  line : Nat
  column : Nat

/-- The state of the lexer. -/
structure Lexer where
  cursor : Cursor
  /-- the columns of the mappings by indentation that are open, innermost first -/
  blocks : List Nat
  /-- whether a key could start at the next token -/
  keyAllowed : Bool
  /-- where a key could have started -/
  candidate : Option Candidate
  /-- the same, for what stands around the braces that are open, innermost first -/
  outer : List (Option Candidate)
  /-- the tokens so far, in reverse -/
  tokens : List Token

namespace Lexer

/-- Whether braces are open. -/
def inFlow (s : Lexer) : Bool := !s.outer.isEmpty

/-- The lexer with one more token. -/
def emit (s : Lexer) (t : Token) : Lexer := { s with tokens := t :: s.tokens }

/-- The lexer with one more token, which is some characters long. -/
def emitMark (s : Lexer) (t : Token) (length : Nat) : Lexer :=
  { s with cursor := s.cursor.skip length, tokens := t :: s.tokens }

/-- The lexer with tokens put at a place before. -/
def insert (s : Lexer) (place : Nat) (ts : List Token) : Lexer :=
  let count := s.tokens.length - place
  { s with tokens := s.tokens.take count ++ (ts.reverse ++ s.tokens.drop count) }

/-! ## Keys -/

/-- Forget where a key could have started. -/
def dropCandidate (s : Lexer) : Option Lexer :=
  match s.candidate with
  | some c => if c.required then none else some { s with candidate := none }
  | none => some s

/-- Remember that a key could start here. -/
def saveCandidate (s : Lexer) : Option Lexer :=
  if s.keyAllowed then do
    let s ← s.dropCandidate
    let required := !s.inFlow && s.blocks.head? == some s.cursor.column
    let c := s.cursor
    return { s with candidate := some ⟨s.tokens.length, required, c.index, c.line, c.column⟩ }
  else some s

/-- Whether a candidate no longer counts. -/
def isStale (s : Lexer) (c : Candidate) : Bool :=
  c.line < s.cursor.line || c.index + 1024 < s.cursor.index

/-- A candidate, unless it no longer counts; a key that had to be there is missed. -/
def refresh (s : Lexer) : Option Candidate → Option (Option Candidate)
  | none => some none
  | some c => if !s.isStale c then some (some c) else if c.required then none else some none

/-- Forget the candidates that no longer count. -/
def dropStale (s : Lexer) : Option Lexer := do
  let candidate ← s.refresh s.candidate
  let outer ← s.outer.mapM s.refresh
  return { s with candidate, outer }

/-! ## Indentation -/

/-- End the mappings whose column is not left of `limit`; without braces open. -/
def closeBlocks (limit : Nat) (tokens : List Token) : List Nat → List Nat × List Token
  | [] => ([], tokens)
  | b :: bs => if limit ≤ b then closeBlocks limit (.blockEnd :: tokens) bs else (b :: bs, tokens)

/-- End the mappings whose column is not left of `limit`. -/
def unroll (s : Lexer) (limit : Nat) : Lexer :=
  if s.inFlow then s
  else
    let (blocks, tokens) := closeBlocks limit s.tokens s.blocks
    { s with blocks, tokens }

/-- Whether a mapping by indentation starts with a key at a column. -/
def opensBlock (s : Lexer) (column : Nat) : Bool :=
  !s.inFlow &&
    match s.blocks with
    | [] => true
    | b :: _ => b < column

/-- Start a mapping by indentation, if the column calls for one. -/
def roll (s : Lexer) (column : Nat) : Lexer :=
  if s.opensBlock column then { s.emit .blockStart with blocks := column :: s.blocks } else s

/-! ## Between tokens -/

/-- Past blanks, comments and line breaks.  A tab does not indent a key.  A byte order mark may
start any line, and takes up a column of it. -/
def skipGap (limit : Nat) (s : Lexer) : Lexer :=
  match limit, s.cursor.rest with
  | limit + 1, x :: _ =>
    if x = ' ' || (x = '\t' && (s.inFlow || !s.keyAllowed)) ||
        (x = byteOrderMark && s.cursor.column = 0) then
      skipGap limit { s with cursor := s.cursor.skip 1 }
    else if x = '#' then skipGap limit { s with cursor := s.cursor.skipWhile (!isBreak ·) }
    else if isBreak x then
      skipGap limit { s with cursor := s.cursor.newLine, keyAllowed := s.keyAllowed || !s.inFlow }
    else s
  | _, _ => s

/-! ## Tokens -/

/-- The start or the end of a document. -/
def documentMark (s : Lexer) (t : Token) : Option Lexer := do
  let s ← (s.unroll 0).dropCandidate
  return { s.emitMark t 3 with keyAllowed := false }

/-- An opening brace. -/
def openBrace (s : Lexer) : Option Lexer := do
  let s ← s.saveCandidate
  return { s.emitMark .flowStart 1 with
    keyAllowed := true, candidate := none, outer := s.candidate :: s.outer }

/-- A closing brace. -/
def closeBrace (s : Lexer) : Option Lexer := do
  let s ← s.dropCandidate
  match s.outer with
  | [] => none
  | candidate :: outer =>
    return { s.emitMark .flowEnd 1 with keyAllowed := false, candidate, outer }

/-- A comma. -/
def comma (s : Lexer) : Option Lexer := do
  if !s.inFlow then failure
  let s ← s.dropCandidate
  return { s.emitMark .separator 1 with keyAllowed := true }

/-- A question mark before a key. -/
def keyMark (s : Lexer) : Option Lexer := do
  if !s.inFlow && !s.keyAllowed then failure
  let s ← (s.roll s.cursor.column).dropCandidate
  return { s.emitMark .key 1 with keyAllowed := !s.inFlow }

/-- A colon before a value.  What stands at the candidate is its key. -/
def valueMark (s : Lexer) : Option Lexer :=
  match s.candidate with
  | some c =>
    let opens := s.opensBlock c.column
    let s := s.insert c.place (if opens then [.blockStart, .key] else [.key])
    let blocks := if opens then c.column :: s.blocks else s.blocks
    some { s.emitMark .value 1 with candidate := none, blocks, keyAllowed := false }
  | none => do
    if !s.inFlow && !s.keyAllowed then failure
    let s := s.roll s.cursor.column
    return { s.emitMark .value 1 with keyAllowed := !s.inFlow }

/-- Whether the name of an anchor may end before a text. -/
def endsName : List Char → Bool
  | [] => true
  | c :: _ => isGap c || ['?', ':', ',', ']', '\x7d', '%', '@', '`'].contains c

/-- An anchor or an alias. -/
def named (s : Lexer) (token : String → Token) : Option Lexer := do
  let s ← s.saveCandidate
  let name := (s.cursor.rest.drop 1).takeWhile isNameChar
  if name.isEmpty || !endsName (s.cursor.rest.drop (name.length + 1)) then failure
  return { s.emitMark (token (String.ofList name)) (name.length + 1) with keyAllowed := false }

/-- A tag. -/
def tag (s : Lexer) : Option Lexer := do
  let s ← s.saveCandidate
  let (handle, suffix, rest) ← tagParts (s.cursor.rest.drop 1)
  if !(endsWord rest || (s.inFlow && rest.head? = some ',')) then failure
  let length := s.cursor.rest.length - rest.length
  return { s.emitMark (.tag handle suffix) length with keyAllowed := false }

/-- A directive. -/
def directive (s : Lexer) : Option Lexer := do
  let s ← (s.unroll 0).dropCandidate
  let (token, rest) ← Yaml.directive (s.cursor.rest.drop 1)
  let length := s.cursor.rest.length - rest.length
  return { s.emitMark token length with keyAllowed := false }

/-- The lexer with a scalar taken, whose text is given in reverse. -/
def emitScalar (s : Lexer) (text : List Char) (style : Style) (cursor : Cursor) : Lexer :=
  { s.emit (.scalar (String.ofList text.reverse) style) with cursor }

/-- A scalar in indented lines. -/
def blockScalar (s : Lexer) (style : Style) : Option Lexer := do
  let s ← s.dropCandidate
  let (text, cursor) ← blockText (style == .folded) s.blocks.head? (s.cursor.skip 1)
  return { s.emitScalar text style cursor with keyAllowed := true }

/-- A scalar in quotes. -/
def quotedScalar (s : Lexer) (style : Style) : Option Lexer := do
  let s ← s.saveCandidate
  let (text, cursor) ←
    quotedText (style == .doubleQuoted) s.cursor.rest.length [] (s.cursor.skip 1)
  return { s.emitScalar text style cursor with keyAllowed := false }

/-- A plain scalar. -/
def plainScalar (s : Lexer) : Option Lexer := do
  let s ← s.saveCandidate
  let least := (s.blocks.head?.map (· + 1)).getD 0
  let (text, onNewLine, cursor) ←
    plainText s.inFlow least s.cursor.rest.length [] .none s.cursor
  return { s.emitScalar text .plain cursor with keyAllowed := onNewLine }

/-- The characters that do not start a plain scalar. -/
def indicators : List Char := "-?:,[]\x7b\x7d#&*!|>'\"%@`".toList

/-- Whether a plain scalar starts with a character before a text. -/
def startsPlain (flow : Bool) (x : Char) (rest : List Char) : Bool :=
  !(isGap x || indicators.contains x) || (x = '-' && !endsWord rest) ||
    (!flow && (x = '?' || x = ':') && !endsWord rest)

/-- The lexer behind the token that starts with a character. -/
def next (s : Lexer) (x : Char) (rest : List Char) : Option Lexer :=
  if x = '%' && s.cursor.column = 0 then s.directive
  else if s.cursor.isMark Cursor.startMark then s.documentMark .documentStart
  else if s.cursor.isMark Cursor.endMark then s.documentMark .documentEnd
  else if x = '\x7b' then s.openBrace
  else if x = '\x7d' then s.closeBrace
  else if x = ',' then s.comma
  else if x = '?' && (s.inFlow || endsWord rest) then s.keyMark
  else if x = ':' && (s.inFlow || endsWord rest) then s.valueMark
  else if x = '*' then s.named .alias
  else if x = '&' then s.named .anchor
  else if x = '!' then s.tag
  else if x = '|' && !s.inFlow then s.blockScalar .literal
  else if x = '>' && !s.inFlow then s.blockScalar .folded
  else if x = '\'' then s.quotedScalar .singleQuoted
  else if x = '"' then s.quotedScalar .doubleQuoted
  else if startsPlain s.inFlow x rest then s.plainScalar
  else none

/-- The tokens up to the end of the text. -/
def run (limit : Nat) (s : Lexer) : Option (List Token) :=
  match limit with
  | 0 => none
  | limit + 1 => do
    let s ← (s.skipGap s.cursor.rest.length).dropStale
    let s := s.unroll (s.cursor.column + 1)
    match s.cursor.rest with
    | [] =>
      let s ← (s.unroll 0).dropCandidate
      return s.tokens.reverse
    | x :: rest => run limit (← s.next x rest)

end Lexer

/-- The tokens of a text. -/
def Token.ofText (text : String) : Option (List Token) :=
  let cs := text.toList
  if cs.all isAllowed then Lexer.run (cs.length + 1) ⟨.start cs, [], true, none, [], []⟩ else none

end TypeSolver.Yaml
