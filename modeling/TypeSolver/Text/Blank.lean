/-!
# White space

The characters that count as white space in a configuration: the twenty-five code points with the
white-space property of the character standard, so no-break spaces and line separators are among
them and zero-width spaces are not.
-/

namespace TypeSolver.Text

/-- The ranges of white-space code points, both ends included, in ascending order. -/
def blankRanges : List (Nat × Nat) :=
  [(0x9, 0xd), (0x20, 0x20), (0x85, 0x85), (0xa0, 0xa0), (0x1680, 0x1680), (0x2000, 0x200a),
    (0x2028, 0x2029), (0x202f, 0x202f), (0x205f, 0x205f), (0x3000, 0x3000)]

/-- Whether a character is white space. -/
def isBlank (c : Char) : Bool :=
  blankRanges.any fun r => r.1 ≤ c.toNat && c.toNat ≤ r.2

end TypeSolver.Text
