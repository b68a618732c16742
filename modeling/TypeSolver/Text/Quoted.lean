import TypeSolver.Text.Concealed

/-!
# Quoted text

The form in which a string literal is displayed and in which a message quotes a text: between double
quotes, with a backslash before quotes and backslashes, short escapes for the common controls, and a
hexadecimal escape for every concealed character.  A single quote stands for itself.
-/

namespace TypeSolver.Text

/-- How one character is written between double quotes. -/
def quoteChar (c : Char) : List Char :=
  if c = '\x00' then ['\\', '0']
  else if c = '\t' then ['\\', 't']
  else if c = '\r' then ['\\', 'r']
  else if c = '\n' then ['\\', 'n']
  else if c = '"' then ['\\', '"']
  else if c = '\\' then ['\\', '\\']
  else if isConcealed c then
    ['\\', 'u', '\x7b'] ++ Nat.toDigits 16 c.toNat ++ ['\x7d']
  else [c]

/-- A text between double quotes, with escapes. -/
def quoted (s : String) : String :=
  String.ofList ('"' :: (s.toList.flatMap quoteChar ++ ['"']))

end TypeSolver.Text
