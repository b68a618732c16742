import TypeSolver.Constraint

/-!
# Traces

What became of each constraint of a batch: whether it was unified or skipped, and which names its
own unification bound.
-/

namespace TypeSolver

/-- Why a constraint contributed nothing. -/
inductive SkipReason where
  /-- an operand was not a literal when the constraint was reached -/
  | unresolvedOperand
  /-- the type whose field is read was not an object -/
  | notAnObject
  /-- the object has no such field -/
  | missingField
deriving DecidableEq, Inhabited

/-- The name of a reason. -/
def SkipReason.name : SkipReason → String
  | .unresolvedOperand => "UnresolvedOperand"
  | .notAnObject => "NotAnObject"
  | .missingField => "MissingField"

/-- What became of a constraint. -/
inductive StepOutcome where
  | unified
  | skipped (reason : SkipReason)
deriving DecidableEq, Inhabited

/-- The account of one constraint. -/
structure TraceStep where
  /-- the position of the constraint in its batch -/
  index : Nat
  kind : ConstraintKind
  outcome : StepOutcome
  /-- the names bound by the constraint's own unification -/
  bound : List Name
deriving DecidableEq, Inhabited

/-- Whether the constraint was skipped. -/
def TraceStep.isSkipped (step : TraceStep) : Bool :=
  match step.outcome with
  | .unified => false
  | .skipped _ => true

/-- The account of a batch, a step for each constraint. -/
structure Trace where
  steps : List TraceStep
deriving DecidableEq, Inhabited

/-- The trace with one more step. -/
def Trace.push (t : Trace) (step : TraceStep) : Trace := ⟨t.steps ++ [step]⟩

/-- The steps of constraints that were skipped. -/
def Trace.skipped (t : Trace) : List TraceStep := t.steps.filter TraceStep.isSkipped

end TypeSolver
