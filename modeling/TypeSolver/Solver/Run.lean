import TypeSolver.Config.Basic
import TypeSolver.Instance
import TypeSolver.Solver.Log
import TypeSolver.Solver.Trace
import TypeSolver.Unify

/-!
# Solving

A batch is solved in one pass from left to right, with a substitution that starts empty.  Each
constraint contributes a substitution of its own, computed from the one reached so far, and that is
merged in; or it contributes nothing and is not looked at again.  The first failure ends the pass.

A `Run` keeps what each constraint contributed beside the result.  The trace and the log of a solve
are read off it, so neither can disagree with the answer.
-/

namespace TypeSolver

/-- What one constraint adds to the solution. -/
inductive Contribution where
  /-- these bindings -/
  | binds (delta : Subst)
  /-- nothing, for a reason -/
  | skips (reason : SkipReason)
deriving Inhabited

/-- A constraint together with what it contributed. -/
structure Step where
  constraint : Constraint
  contribution : Contribution
deriving Inhabited

/-- A pass over a batch: the contributions made, in order, and the result.  After a failure the last
step is the one whose contribution could not be merged, if there was a contribution. -/
structure Run where
  steps : List Step
  result : Except Failure Subst

namespace Solver

/-! ## One constraint -/

/-- The contribution of a call: the callee is resolved and instantiated, and the instance unified
with the call as it is written; names introduced by the instance are dropped. -/
def callContribution (depth : Nat) (nested : Bool) (names : FreshNames) (s : Subst)
    (func : Ty) (args : List Ty) (result : Ty) : Except Failure Contribution × FreshNames :=
  let (callee, names) := (s.apply func).instantiate nested names
  ((unify depth callee.type (.func args result)).map fun delta => .binds (callee.strip delta),
    names)

/-- The contribution of a join: the result is unified with the joined text, once both operands are
known strings. -/
def joinContribution (depth : Nat) (s : Subst) (first second result : Ty) :
    Except Failure Contribution :=
  match (s.apply first).stringLit?, (s.apply second).stringLit? with
  | some a, some b => (unify depth result (.stringLit (a ++ b))).map .binds
  | _, _ => .ok (.skips .unresolvedOperand)

/-- The contribution of a field access: the result is unified with the type of the field, once the
object and the field's name are known and the object has the field. -/
def accessContribution (depth : Nat) (s : Subst) (object field result : Ty) :
    Except Failure Contribution :=
  match s.apply object, (s.apply field).stringLit? with
  | .object fields, some name =>
    match fields.lookup name with
    | some type => (unify depth result type).map .binds
    | none => .ok (.skips .missingField)
  | .object _, none => .ok (.skips .unresolvedOperand)
  | _, _ => .ok (.skips .notAnObject)

/-- What a constraint contributes to the solution so far. -/
def contribution (depth : Nat) (nested : Bool) (names : FreshNames) (s : Subst) :
    Constraint → Except Failure Contribution × FreshNames
  | .equals l r => ((unify depth l r).map .binds, names)
  | .apply f args r => callContribution depth nested names s f args r
  | .concat a b r => (joinContribution depth s a b r, names)
  | .index o f r => (accessContribution depth s o f r, names)

/-! ## A batch -/

/-- The pass over a batch from a given solution and supply of names. -/
def runFrom (depth : Nat) (nested : Bool) (names : FreshNames) (s : Subst) : List Constraint → Run
  | [] => ⟨[], .ok s⟩
  | c :: rest =>
    match contribution depth nested names s c with
    | (.error failure, _) => ⟨[], .error failure⟩
    | (.ok (.skips reason), names) =>
      let run := runFrom depth nested names s rest
      ⟨⟨c, .skips reason⟩ :: run.steps, run.result⟩
    | (.ok (.binds delta), names) =>
      match compose depth s delta with
      | .error failure => ⟨[⟨c, .binds delta⟩], .error failure⟩
      | .ok s =>
        let run := runFrom depth nested names s rest
        ⟨⟨c, .binds delta⟩ :: run.steps, run.result⟩

/-- The pass over a batch. -/
def run (depth : Nat) (config : Config) (constraints : List Constraint) : Run :=
  runFrom depth config.freshenNestedFunctions (.start config.syntheticMarker) .empty constraints

/-- The solution of a batch. -/
def solve (depth : Nat) (config : Config) (constraints : List Constraint) : Except Failure Subst :=
  (run depth config constraints).result

end Solver

/-! ## Trace and log of a pass -/

/-- The account of a constraint at a position. -/
def Step.account (step : Step) (index : Nat) : TraceStep :=
  match step.contribution with
  | .binds delta => ⟨index, step.constraint.kind, .unified, delta.names⟩
  | .skips reason => ⟨index, step.constraint.kind, .skipped reason, []⟩

/-- What is reported of a constraint at a position. -/
def Step.event (step : Step) (index : Nat) : LogEvent :=
  let place : List (String × LogValue) :=
    [("index", .count index), ("constraint", .text step.constraint.display)]
  match step.contribution with
  | .binds delta => ⟨.trace, "folding constraint", place ++ [("delta", .text delta.display)]⟩
  | .skips reason =>
    ⟨.debug, "constraint contributed nothing", place ++ [("reason", .text reason.name)]⟩

/-- What is reported of a failure.  Only a mismatch is. -/
def Failure.events : Failure → List LogEvent
  | .mismatch l r =>
    [⟨.trace, "unify mismatch", [("left", .text l.display), ("right", .text r.display)]⟩]
  | .exhausted => []

namespace Run

/-- The trace of a pass. -/
def trace (run : Run) : Trace := ⟨run.steps.mapIdx fun i step => step.account i⟩

/-- The log of a pass over a batch of a given size. -/
def log (run : Run) (count : Nat) : List LogEvent :=
  let started : LogEvent := ⟨.debug, "solve started", [("constraints", .count count)]⟩
  let ended := match run.result with
    | .ok s => [⟨.debug, "solve finished", [("bindings", .count s.size)]⟩]
    | .error failure => failure.events
  started :: (run.steps.mapIdx (fun i step => step.event i) ++ ended)

end Run

namespace Solver

/-- The solution of a batch with the account of how it was reached. -/
def solveWithTrace (depth : Nat) (config : Config) (constraints : List Constraint) :
    Except Failure (Subst × Trace) :=
  let run := run depth config constraints
  run.result.map fun s => (s, run.trace)

end Solver

end TypeSolver
