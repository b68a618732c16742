/-!
# Tokens of a YAML text

A text is cut into tokens before its structure is read off them.  Lists have no tokens: no document
that is read here has any.
-/

namespace TypeSolver.Yaml

/-- How a scalar is written. -/
inductive Style where
  | plain
  | singleQuoted
  | doubleQuoted
  /-- indented lines, kept as they are -/
  | literal
  /-- indented lines, joined -/
  | folded
deriving DecidableEq, Inhabited

/-- A token. -/
inductive Token where
  /-- a directive that gives the version of the format -/
  | version (major minor : Nat)
  /-- a directive that says what a handle stands for -/
  | handle (handle start : String)
  | documentStart
  | documentEnd
  /-- a mapping by indentation starts -/
  | blockStart
  | blockEnd
  /-- a mapping in braces starts -/
  | flowStart
  | flowEnd
  /-- a comma between the entries of a mapping in braces -/
  | separator
  /-- a key follows -/
  | key
  /-- a value follows -/
  | value
  /-- a name for the node that follows -/
  | anchor (name : String)
  /-- the node of a name -/
  | alias (name : String)
  /-- the tag of the node that follows; without a handle, the suffix is all of it -/
  | tag (handle suffix : String)
  | scalar (text : String) (style : Style)
deriving DecidableEq, Inhabited

end TypeSolver.Yaml
