/-!
# Double-precision numbers

A number literal is a double-precision number.  The solver never computes with literals: it compares
them, reads them and writes them, so a number is kept as its bit pattern and every operation here is
exact arithmetic on natural numbers.

Without its sign bit a pattern is a *code*.  Codes below `infinityCode` are the finite magnitudes,
in the order of their values; `infinityCode` itself is infinity, and the codes above it are not
numbers.  The finite code `c` stands for `significand c * 2 ^ scale c` units of `2 ^ (-1074)`, and
`c = scale c * 2 ^ 52 + significand c`.  That identity is why `nearestCode` can round to a code
directly: when rounding carries into the next power of two, the sum is the next code.
-/

namespace TypeSolver

/-- A double-precision number, given by its bit pattern. -/
structure Double where
  bits : UInt64
deriving DecidableEq, Inhabited

namespace Double

/-! ## Sign and code -/

/-- The code of positive infinity. -/
def infinityCode : Nat := 2047 * Nat.pow 2 52

/-- The bit pattern without its sign. -/
def code (x : Double) : Nat := x.bits.toNat % Nat.pow 2 63

/-- Whether the sign bit is set. -/
def isNegative (x : Double) : Bool := Nat.pow 2 63 ≤ x.bits.toNat

/-- The number with a given sign and code. -/
def ofCode (negative : Bool) (code : Nat) : Double :=
  ⟨UInt64.ofNat (if negative then Nat.pow 2 63 + code else code)⟩

/-- Whether the pattern is not a number. -/
def isNaN (x : Double) : Bool := infinityCode < x.code

/-- Whether the number is neither infinite nor a NaN. -/
def isFinite (x : Double) : Bool := x.code < infinityCode

/-- Equality of values: a NaN differs from everything, itself included, and the two zeros are
equal. -/
def sameValue (x y : Double) : Bool :=
  !x.isNaN && !y.isNaN && (x.bits == y.bits || (x.code == 0 && y.code == 0))

instance : BEq Double := ⟨sameValue⟩

/-! ## Finite magnitudes -/

/-- The power of two that a finite code is scaled by, above the least one. -/
def scale (code : Nat) : Nat := code / Nat.pow 2 52 - 1

/-- The integer that a finite code scales. -/
def significand (code : Nat) : Nat := code - scale code * Nat.pow 2 52

/-- The magnitude of a finite code, in units of `2 ^ (-1074)`. -/
def units (code : Nat) : Nat := significand code * Nat.pow 2 (scale code)

/-- How many units make one. -/
def unitsPerOne : Nat := Nat.pow 2 1074

/-! ## Rounding -/

/-- The quotient rounded to the nearest integer, a half going to the even neighbour. -/
def roundHalfEven (num den : Nat) : Nat :=
  let q := num / den
  let twice := 2 * (num % den)
  if twice < den || (twice == den && q % 2 == 0) then q else q + 1

/-- The code nearest to the fraction `num / den`, a half going to the even significand.  Values
beyond the largest finite number by half a unit or more give `infinityCode`. -/
def nearestCode (num den : Nat) : Nat :=
  let numUnits := num * unitsPerOne
  let scale := Nat.log2 (numUnits / den) - 52
  min (scale * Nat.pow 2 52 + roundHalfEven numUnits (den * Nat.pow 2 scale)) infinityCode

/-- The number nearest to an integer. -/
def ofInt (n : Int) : Double := ofCode (n < 0) (nearestCode n.natAbs 1)

/-- The code nearest to the product of two finite codes. -/
def mulCode (a b : Nat) : Nat := nearestCode (units a * units b) (unitsPerOne * unitsPerOne)

/-- The code nearest to the quotient of two finite codes. -/
def divCode (a b : Nat) : Nat := nearestCode (units a) (units b)

end Double

end TypeSolver
