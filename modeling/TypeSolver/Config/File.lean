/-!
# Files that cannot be read

The library itself reads no files: whoever runs it hands over a file's content, or the reason why
there is none.
-/

namespace TypeSolver

/-- Why a file has no content to offer. -/
inductive FileError where
  /-- there is no such file -/
  | notFound
  /-- the file is not text -/
  | notText
  /-- the system refused, with this explanation -/
  | refused (explanation : String)
deriving DecidableEq, Inhabited

/-- The text of a file error. -/
def FileError.message : FileError → String
  | .notFound => "No such file or directory (os error 2)"
  | .notText => "stream did not contain valid UTF-8"
  | .refused explanation => explanation

end TypeSolver
