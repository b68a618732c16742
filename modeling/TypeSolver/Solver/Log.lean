/-!
# Log events

What a solve reports while it runs: a level, a message and named values.
-/

namespace TypeSolver

/-- How important an event is. -/
inductive LogLevel where
  | trace
  | debug
  | info
deriving DecidableEq, Inhabited

/-- A value reported with an event. -/
inductive LogValue where
  | count (n : Nat)
  | text (s : String)
deriving DecidableEq, Inhabited

/-- A reported event. -/
structure LogEvent where
  level : LogLevel
  message : String
  fields : List (String × LogValue)
deriving DecidableEq, Inhabited

end TypeSolver
