import TypeSolver.Number.Double

/-!
# Shortest decimals

Every finite number is written with the fewest decimal digits that read back as that number, and of
several such decimals with the nearest.  `Decimal.shortest` finds them by search: for 1, 2, … digits
it tries the two neighbours of the number on the grid of decimals with that many digits and keeps
the ones whose nearest double is the number itself.  Seventeen digits always suffice.

Two neighbours can be equally near; then the format decides, so the tie rule is an argument.
-/

namespace TypeSolver

/-- The decimal `digits * 10 ^ exponent`. -/
structure Decimal where
  digits : Nat
  exponent : Int
deriving DecidableEq, Inhabited

/-- Which of two equally near decimals is taken. -/
inductive Tie where
  /-- the one whose last digit is even -/
  | toEven
  /-- the larger one -/
  | up
deriving DecidableEq

namespace Decimal

/-- The fraction `num / den * 10 ^ exponent`, as a numerator and a denominator. -/
def scaled (num den : Nat) (exponent : Int) : Nat × Nat :=
  (num * Nat.pow 10 exponent.toNat, den * Nat.pow 10 (-exponent).toNat)

/-- The code nearest to a decimal. -/
def nearestCode (d : Decimal) : Nat :=
  let (num, den) := scaled d.digits 1 d.exponent
  Double.nearestCode num den

/-- How many decimal digits a positive integer has. -/
def length (n : Nat) : Nat := (Nat.toDigits 10 n).length

/-- The exponent of the leading digit of a positive finite code.  Scaled by `10 ^ 340` every such
magnitude is at least one, so its integer part has the digits to count. -/
def leadingExponent (code : Nat) : Int :=
  (length (Double.units code * Nat.pow 10 340 / Double.unitsPerOne) : Int) - 341

/-- Whether the fraction `num / den` goes down to `low` rather than up to `low + 1`. -/
def goesDown (tie : Tie) (num den low : Nat) : Bool :=
  match compare (2 * num) ((2 * low + 1) * den) with
  | .lt => true
  | .gt => false
  | .eq => tie == .toEven && low % 2 == 0

/-- The better of a code's two neighbours among the decimals `d * 10 ^ exponent`, if one reads
back. -/
def onGrid? (tie : Tie) (code : Nat) (exponent : Int) : Option Decimal :=
  let (num, den) := scaled (Double.units code) Double.unitsPerOne (-exponent)
  let low : Decimal := ⟨num / den, exponent⟩
  let high : Decimal := ⟨num / den + 1, exponent⟩
  match low.nearestCode == code, high.nearestCode == code with
  | true, true => some (bif goesDown tie num den low.digits then low else high)
  | true, false => some low
  | false, true => some high
  | false, false => none

/-- A one with zeros after it is written as a single digit. -/
def foldPowerOfTen (d : Decimal) (digitCount : Nat) : Decimal :=
  if d.digits == Nat.pow 10 digitCount then ⟨1, d.exponent + digitCount⟩ else d

/-- The shortest decimal that reads back as a positive finite code. -/
def shortest (tie : Tie) (code : Nat) : Decimal :=
  let leading := leadingExponent code
  let attempt (digitCount : Nat) : Option Decimal :=
    (onGrid? tie code (leading + 1 - digitCount)).map (foldPowerOfTen · digitCount)
  ((List.range' 1 17).findSome? attempt).getD ⟨0, 0⟩

end Decimal

end TypeSolver
