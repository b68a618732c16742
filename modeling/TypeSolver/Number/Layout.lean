import TypeSolver.Number.Decimal

/-!
# Number text

How a finite number is laid out once its digits are chosen: positionally, or with one digit before
the point and an exponent.  `NumberLayout` holds a format's decisions; the two values are the text
exchanged with other programs and the text shown to people.
-/

namespace TypeSolver

/-- The decisions of a number format. -/
structure NumberLayout where
  /-- which of two equally near decimals is written -/
  tie : Tie
  /-- whether an integral value written positionally ends in `.0` -/
  pointZero : Bool
  /-- whether a number whose leading digit has this exponent is written positionally -/
  positional : Int → Bool

namespace NumberLayout

/-- Exchanged text: positional when the leading digit's exponent is from -5 to 15, and never
without a digit after the point; a half goes to the even digit. -/
def exchanged : NumberLayout where
  tie := .toEven
  pointZero := true
  positional e := -5 ≤ e && e ≤ 15

/-- Displayed text: always positional, integral values without a point; a half goes up. -/
def displayed : NumberLayout where
  tie := .up
  pointZero := false
  positional _ := true

/-- Digits written positionally; `leading` is the exponent of the first digit. -/
def placed (layout : NumberLayout) (digits : List Char) (leading : Int) : List Char :=
  if leading < 0 then
    ['0', '.'] ++ List.replicate (-leading - 1).toNat '0' ++ digits
  else
    let whole := leading.toNat + 1
    if digits.length ≤ whole then
      digits ++ List.replicate (whole - digits.length) '0' ++
        (if layout.pointZero then ['.', '0'] else [])
    else
      digits.take whole ++ ['.'] ++ digits.drop whole

/-- Digits written with an exponent, whose sign is always given. -/
def withExponent (digits : List Char) (leading : Int) : List Char :=
  let mantissa := match digits with
    | d :: e :: rest => d :: '.' :: e :: rest
    | short => short
  mantissa ++ ['e', if leading < 0 then '-' else '+'] ++ Nat.toDigits 10 leading.natAbs

/-- The text of a finite magnitude. -/
def magnitude (layout : NumberLayout) (code : Nat) : List Char :=
  if code = 0 then layout.placed ['0'] 0
  else
    let d := Decimal.shortest layout.tie code
    let digits := Nat.toDigits 10 d.digits
    let leading := d.exponent + digits.length - 1
    if layout.positional leading then layout.placed digits leading
    else withExponent digits leading

/-- The text of a finite number; zero keeps its sign. -/
def finite (layout : NumberLayout) (x : Double) : List Char :=
  if x.isNegative then '-' :: layout.magnitude x.code else layout.magnitude x.code

end NumberLayout

/-- The text in which a number is shown to people. -/
def Double.display (x : Double) : String :=
  if x.isFinite then String.ofList (NumberLayout.displayed.finite x)
  else if x.isNaN then "NaN"
  else if x.isNegative then "-inf"
  else "inf"

end TypeSolver
