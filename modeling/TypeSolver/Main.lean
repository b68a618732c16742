import TypeSolver.Command

/-!
# The program

Reads the files that the command names and prints the reply.
-/

namespace TypeSolver

/-- The text of a file, or why there is none. -/
def readFileText (path : String) : IO (Except FileError String) := do
  try
    let bytes ← IO.FS.readBinFile path
    return match String.fromUTF8? bytes with
      | some text => .ok text
      | none => .error .notText
  catch
    | .noFileOrDirectory _ _ _ => return .error .notFound
    | e => return .error (.refused (toString e))

end TypeSolver

open TypeSolver in
/-- Answer the arguments. -/
def main (arguments : List String) : IO UInt32 := do
  let paths := ((Command.ofArguments? arguments).map Command.paths).getD []
  let files ← paths.mapM fun path => return (path, ← readFileText path)
  let read := fun path => (files.lookup path).getD (.error .notFound)
  let reply := Reply.toArguments defaultDepth read arguments
  (← IO.getStdout).putStr reply.output
  (← IO.getStderr).putStr reply.complaint
  return UInt32.ofNat reply.status
