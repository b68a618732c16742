import TypeSolver.Solver.Run
import TypeSolver.Wire.Traces

/-!
# Batches

Solving constraints that come from somewhere: a list at hand, a JSON text, or a file with such a
text.  The configuration is checked first, then the source is read, then the size of the batch is
held against the configured limit, and then the batch is solved.
-/

namespace TypeSolver

/-- Where constraints come from. -/
inductive Source where
  /-- a list at hand -/
  | list (constraints : List Constraint)
  /-- a JSON text -/
  | text (json : String)
  /-- a file, by its path and what reading it gave -/
  | file (path : String) (content : Except FileError String)

/-- Why a batch has no outcome. -/
inductive BatchError where
  | unify (failure : Failure)
  | config (cause : ConfigError)
  | file (cause : FileError)
  | json (cause : Json.Error)
  /-- there are more constraints than the configuration allows -/
  | tooLarge (count limit : Nat)
deriving Inhabited

/-- The text of a batch error. -/
def BatchError.message : BatchError → String
  | .unify failure => "Unification error: " ++ failure.message
  | .config cause => "Configuration error: " ++ cause.message
  | .file cause => "IO error: " ++ cause.message
  | .json cause => "JSON error: " ++ cause.message
  | .tooLarge count limit =>
    "Constraint batch too large: " ++ toString count ++ " constraints exceeds limit of " ++
      toString limit

namespace Source

/-- What a source is called in a log. -/
def label : Source → String
  | list _ => "constraints"
  | text _ => "json:<inline>"
  | file path _ => "json:" ++ path

/-- The constraints of a source. -/
def constraints : Source → Except BatchError (List Constraint)
  | list cs => .ok cs
  | text json => (Wire.parseConstraints json).mapError .json
  | file _ content => do
    (Wire.parseConstraints (← content.mapError .file)).mapError .json

end Source

/-- What solving a batch gives: the solution, and the trace if one is kept. -/
structure Outcome where
  substitution : Subst
  trace : Option Trace

/-- An outcome as a JSON value. -/
def Outcome.toJson (o : Outcome) : Json.Value :=
  .object (("substitution", Wire.ofSubst o.substitution) ::
    match o.trace with
    | some t => [("trace", Wire.ofTrace t)]
    | none => [])

namespace Batch

/-- The constraints to solve: the configuration is valid, the source can be read and the batch is
not too large. -/
def accepted (config : Config) (source : Source) : Except BatchError (List Constraint) := do
  config.validate.mapError .config
  let constraints ← source.constraints
  if config.maxConstraints < constraints.length then
    throw (.tooLarge constraints.length config.maxConstraints)
  return constraints

/-- The outcome of a pass over a batch. -/
def outcome (config : Config) (run : Run) : Except BatchError Outcome :=
  match run.result with
  | .ok s => .ok ⟨s, if config.recordTrace then some run.trace else none⟩
  | .error failure => .error (.unify failure)

/-- Solve the constraints of a source. -/
def solve (depth : Nat) (config : Config) (source : Source) : Except BatchError Outcome := do
  outcome config (Solver.run depth config (← accepted config source))

/-- What solving the constraints of a source reports. -/
def log (depth : Nat) (config : Config) (source : Source) : List LogEvent :=
  match accepted config source with
  | .error _ => []
  | .ok constraints =>
    let run := Solver.run depth config constraints
    let place : String × LogValue := ("source", .text source.label)
    let started : LogEvent :=
      ⟨.debug, "solving constraint batch", [place, ("constraints", .count constraints.length)]⟩
    let ended := match run.result with
      | .ok s => [⟨.info, "constraint batch solved", [place, ("bindings", .count s.size)]⟩]
      | .error _ => []
    started :: (run.log constraints.length ++ ended)

end Batch

end TypeSolver
