import TypeSolver.Yaml.Node

/-!
# What plain scalars stand for

A plain scalar can be nothing, a truth value, an integer or a number with a fraction; anything else
is a text.  A literal scalar with the matching tag counts like a plain one.

Integers are decimal without a leading zero, or hexadecimal, octal or binary after `0x`, `0o` or
`0b`.
-/

namespace TypeSolver.Yaml

/-! ## Words -/

/-- Whether a text stands for nothing. -/
def isNullWord (text : String) : Bool := ["~", "null", "Null", "NULL"].contains text

/-- The truth value that a text stands for. -/
def boolWord? (text : String) : Option Bool :=
  if ["true", "True", "TRUE"].contains text then some true
  else if ["false", "False", "FALSE"].contains text then some false
  else none

/-! ## Integers -/

/-- The value of a digit in a base. -/
def digit? (base : Nat) (c : Char) : Option Nat :=
  (hexDigit? c).filter (· < base)

/-- The value of digits in a base, of which there has to be one. -/
def digits? (base : Nat) : List Char → Option Nat
  | [] => none
  | cs => cs.foldlM (fun n c => (digit? base c).map (base * n + ·)) 0

/-- Whether digits with a zero in front are a text rather than a number. -/
def isPadded : List Char → Bool
  | '0' :: c :: cs => (c :: cs).all Char.isDigit
  | _ => false

/-- The text without a sign in front of it. -/
def unsigned : List Char → List Char
  | '+' :: cs => cs
  | '-' :: cs => cs
  | cs => cs

/-- The number that an unsigned text stands for. -/
def magnitude? (cs : List Char) : Option Nat :=
  match cs with
  | '0' :: 'x' :: rest => digits? 16 rest
  | '0' :: 'o' :: rest => digits? 8 rest
  | '0' :: 'b' :: rest => digits? 2 rest
  | _ => if isPadded cs then none else digits? 10 cs

/-- The natural number below `bound` that a text stands for; it may have a plus sign. -/
def nat? (bound : Nat) (cs : List Char) : Option Nat :=
  let n := match cs with
    | '+' :: rest => magnitude? rest
    | cs => magnitude? cs
  n.filter (· < bound)

/-- Whether a text stands for an integer of 128 bits. -/
def isInteger (cs : List Char) : Bool :=
  match cs with
  | '-' :: rest => ((magnitude? rest).filter (· ≤ Nat.pow 2 127)).isSome
  | cs => (nat? (Nat.pow 2 128) cs).isSome

/-! ## Numbers with a fraction -/

/-- The digits at the start of a text, and the rest. -/
def spanDigits (cs : List Char) : List Char × List Char :=
  (cs.takeWhile Char.isDigit, cs.dropWhile Char.isDigit)

/-- The number that decimal digits stand for. -/
def decimalValue (digits : List Char) : Nat :=
  digits.foldl (fun n c => 10 * n + (c.toNat - '0'.toNat)) 0

/-- The exponent that ends a number; zero where there is none. -/
def exponent? : List Char → Option Int
  | [] => some 0
  | c :: cs =>
    if c = 'e' || c = 'E' then
      let digits := unsigned cs
      if digits.isEmpty || !digits.all Char.isDigit then none
      else
        let n : Int := decimalValue digits
        some (if cs.head? = some '-' then -n else n)
    else none

/-- The digits and the exponent of an unsigned decimal number. -/
def decimal? (cs : List Char) : Option (List Char × Int) := do
  let (whole, rest) := spanDigits cs
  let (fraction, rest) := match rest with
    | '.' :: rest => spanDigits rest
    | rest => ([], rest)
  if whole.isEmpty && fraction.isEmpty then failure
  return (whole ++ fraction, (← exponent? rest) - fraction.length)

/-- The least magnitude that is too large for a double-precision number. -/
def overflow : Nat := Nat.pow 2 1024 - Nat.pow 2 970

/-- Whether digits scaled by a power of ten stay below `overflow`, which has 309 digits. -/
def staysFinite (digits : List Char) (exponent : Int) : Bool :=
  let significant := digits.dropWhile (· = '0')
  let size : Int := significant.length + exponent
  if significant.isEmpty || size < 309 then true
  else if 309 < size then false
  else decimalValue significant * Nat.pow 10 exponent.toNat <
    overflow * Nat.pow 10 (-exponent).toNat

/-- Whether a text stands for infinity or for not a number. -/
def isSpecial (cs : List Char) : Bool :=
  [".inf", ".Inf", ".INF"].contains (String.ofList (unsigned cs)) ||
    [".nan", ".NaN", ".NAN"].contains (String.ofList cs)

/-- Whether a text stands for a number that may have a fraction. -/
def isFraction (cs : List Char) : Bool :=
  isSpecial cs ||
    match decimal? (unsigned cs) with
    | some (digits, exponent) => staysFinite digits exponent
    | none => false

/-- Whether a plain scalar with this text would be read as more than a text, or look as if it
were. -/
def isAmbiguous (text : String) : Bool :=
  let cs := text.toList
  cs.isEmpty || isNullWord text || (boolWord? text).isSome || isInteger cs || isFraction cs ||
    isPadded (unsigned cs)

/-! ## Scalars as values -/

/-- The names of the tags of nothing, truth values and integers. -/
def coreTag (name : String) : String := "tag:yaml.org,2002:" ++ name

/-- Whether a scalar is read as more than a text, for a purpose that has a tag. -/
def isResolved (style : Style) (tag : Option String) (wanted : String) : Bool :=
  match style with
  | .plain => true
  | .literal => tag == some (coreTag wanted)
  | _ => false

namespace Node

/-- A node as a text: any scalar is one. -/
def text? : Node → Option String
  | .scalar text _ _ => some text
  | .mapping _ => none

/-- A node as a truth value. -/
def bool? : Node → Option Bool
  | .scalar text style tag => if isResolved style tag "bool" then boolWord? text else none
  | .mapping _ => none

/-- A node as a natural number below a bound. -/
def natBelow? (bound : Nat) : Node → Option Nat
  | .scalar text style tag =>
    if isResolved style tag "int" then nat? bound text.toList else none
  | .mapping _ => none

/-- The entries of a mapping, by the text of their keys; an empty document has none. -/
def fields? : Node → Option (List (String × Node))
  | .mapping entries => entries.mapM fun e => e.1.text?.map (·, e.2)
  | .scalar text style _ => if text.isEmpty && style = .plain then some [] else none

/-- A node that may be nothing: `some none` where it is, and otherwise what it is read as. -/
def option? {α : Type} (read : Node → Option α) (node : Node) : Option (Option α) :=
  match node with
  | .scalar text .plain none =>
    if text.isEmpty || isNullWord text then some none else (read node).map some
  | .scalar text .plain (some tag) =>
    if tag = coreTag "null" then if isNullWord text then some none else none
    else (read node).map some
  | node => (read node).map some

end Node

end TypeSolver.Yaml
