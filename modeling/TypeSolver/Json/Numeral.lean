import TypeSolver.Json.Error

/-!
# Reading JSON numbers

A number is first read as it is written, a `Numeral`, and then valued.

An integer that fits in 64 bits is kept as an integer.  Everything else is a double, found in a
fixed number of roundings: the digits are taken into a 64-bit integer as long as they fit, integer
digits that do not fit only raise the exponent and decimals that do not fit are dropped; the integer
is rounded to a double, and that is multiplied or divided by a power of ten which is itself rounded.
The result can differ in its last bit from the double nearest to what is written.  A value too large
for a double is an error, one too small is zero.
-/

namespace TypeSolver.Json

/-- A number as it is written, by its digits. -/
structure Numeral where
  negative : Bool
  whole : List Char
  /-- the decimals; none if there is no point -/
  decimals : Option (List Char)
  /-- whether the exponent is negative, and its digits -/
  exponent : Option (Bool × List Char)
deriving DecidableEq, Inhabited

/-! ## The written form -/

/-- The digits in front, and the rest. -/
def takeDigits (cs : List Char) : List Char × List Char :=
  (cs.takeWhile Char.isDigit, cs.dropWhile Char.isDigit)

/-- At least one digit, where a number has to have one. -/
def someDigits (cs : List Char) : Except Error (List Char × List Char) :=
  match takeDigits cs with
  | ([], []) => .error .truncated
  | ([], _ :: _) => .error .malformed
  | found => .ok found

/-- The digits before the point: a zero stands alone. -/
def wholeDigits (cs : List Char) : Except Error (List Char × List Char) := do
  let (ds, rest) ← someDigits cs
  match ds with
  | '0' :: _ :: _ => .error .malformed
  | ds => .ok (ds, rest)

/-- The digits after a point, if there is one. -/
def decimalDigits : List Char → Except Error (Option (List Char) × List Char)
  | '.' :: cs => do
    let (ds, rest) ← someDigits cs
    return (some ds, rest)
  | cs => .ok (none, cs)

/-- The sign of an exponent; without one it is positive. -/
def exponentSign : List Char → Bool × List Char
  | '+' :: cs => (false, cs)
  | '-' :: cs => (true, cs)
  | cs => (false, cs)

/-- Whether a character introduces an exponent. -/
def isExponentMark (c : Char) : Bool := c = 'e' || c = 'E'

/-- An exponent, if there is one. -/
def exponentDigits : List Char → Except Error (Option (Bool × List Char) × List Char)
  | [] => .ok (none, [])
  | c :: cs =>
    if isExponentMark c then do
      let (negative, cs) := exponentSign cs
      let (ds, rest) ← someDigits cs
      return (some (negative, ds), rest)
    else .ok (none, c :: cs)

/-- A number without its sign, as it is written. -/
def readNumeral (negative : Bool) (cs : List Char) : Except Error (Numeral × List Char) := do
  let (whole, cs) ← wholeDigits cs
  let (decimals, cs) ← decimalDigits cs
  let (exponent, cs) ← exponentDigits cs
  return (⟨negative, whole, decimals, exponent⟩, cs)

/-! ## The value -/

/-- The value of a digit. -/
def digitValue (c : Char) : Nat := c.toNat - '0'.toNat

/-- Append digits to an integer as long as it stays below `2 ^ 64`; also how many digits were
left. -/
def absorb (n : Nat) : List Char → Nat × Nat
  | [] => (n, 0)
  | d :: ds =>
    let next := 10 * n + digitValue d
    if next < Nat.pow 2 64 then absorb next ds else (n, ds.length + 1)

/-- The double nearest to a power of ten. -/
def powerOfTen (e : Nat) : Nat := Double.nearestCode (Nat.pow 10 e) 1

/-- The largest power of ten that is multiplied or divided by at once. -/
def largestPower : Nat := 308

/-- A code divided by a power of ten, in steps of the largest power. -/
def divPowerOfTen (code e : Nat) : Nat :=
  if _h : e ≤ largestPower then Double.divCode code (powerOfTen e)
  else if code = 0 then 0
  else divPowerOfTen (Double.divCode code (powerOfTen largestPower)) (e - largestPower)
termination_by e
decreasing_by
  have : 0 < largestPower := by decide
  omega

/-- A code multiplied by a power of ten; none if the result is too large. -/
def mulPowerOfTen? (code e : Nat) : Option Nat :=
  if e ≤ largestPower then
    let product := Double.mulCode code (powerOfTen e)
    if product < Double.infinityCode then some product else none
  else if code = 0 then some 0
  else none

/-- The code of a 64-bit integer times a power of ten; none if it is too large. -/
def scaleCode? (n : Nat) (exponent : Int) : Option Nat :=
  let code := Double.nearestCode n 1
  if 0 ≤ exponent then mulPowerOfTen? code exponent.toNat
  else some (divPowerOfTen code (-exponent).toNat)

/-- The largest exponent that is worked out; larger ones make a number zero or too large. -/
def largestExponent : Nat := 2147483647

namespace Numeral

/-- The integer, if the number is written as one that fits. -/
def integer? (n : Numeral) : Option Number :=
  match absorb 0 n.whole, n.decimals, n.exponent with
  | (m, 0), none, none =>
    if !n.negative then some (.nat m)
    else if m = 0 || Nat.pow 2 63 < m then none
    else some (.negative m)
  | _, _, _ => none

/-- The code of the magnitude; none if it is too large. -/
def code? (n : Numeral) : Option Nat :=
  let (wholePart, raised) := absorb 0 n.whole
  let decimals := n.decimals.getD []
  let (digits, dropped) := absorb wholePart decimals
  let start : Int := raised - (decimals.length - dropped : Nat)
  match n.exponent with
  | none => scaleCode? digits start
  | some (negative, ds) =>
    let e := ds.foldl (fun n d => 10 * n + digitValue d) 0
    if largestExponent < e then
      if digits = 0 || negative then some 0 else none
    else if negative then scaleCode? digits (start - e)
    else scaleCode? digits (start + e)

/-- The value of a number. -/
def value (n : Numeral) : Except Error Number :=
  match n.integer? with
  | some i => .ok i
  | none =>
    match n.code? with
    | some code => .ok (.double (.ofCode n.negative code))
    | none => .error .malformed

end Numeral

/-- A number without its sign. -/
def readNumber (negative : Bool) (cs : List Char) : Except Error (Number × List Char) := do
  let (numeral, rest) ← readNumeral negative cs
  return (← numeral.value, rest)

end TypeSolver.Json
