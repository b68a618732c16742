import TypeSolver.Json.Printer
import TypeSolver.Solver.Trace
import TypeSolver.Wire.Record
import TypeSolver.Wire.Types

/-!
# Traces as JSON

A step of a trace has its outcome among its own members: the member `outcome` says which, and a
skipped step has a `reason`.  The index, the kind and the bound names are checked as they are read;
the outcome is taken from the remaining members once the step has been read and nothing else is
missing.
-/

namespace TypeSolver.Wire

open Json

/-! ## Writing -/

/-- A step as a value. -/
def ofStep (step : TraceStep) : Value :=
  let outcome : List (String × Value) := match step.outcome with
    | .unified => [("outcome", .string "unified")]
    | .skipped reason => [("outcome", .string "skipped"), ("reason", .string (reasonName reason))]
  .object
    ([("index", .number (.nat step.index)), ("kind", .string step.kind.text)] ++ outcome ++
      [("bound", .array (step.bound.map .string))])

/-- A trace as a value. -/
def ofTrace (t : Trace) : Value := .object [("steps", .array (t.steps.map ofStep))]

/-! ## Outcomes -/

/-- The names of the outcomes, with whether they are skips. -/
def outcomeNames : List (String × Bool) := [("unified", false), ("skipped", true)]

/-- Whether a tag in a tree says that a step was skipped, by its name or by its position. -/
def isSkipTag : Value → Except DataError Bool
  | .string name => chosen outcomeNames name
  | .number (.nat i) =>
    match outcomeNames[i]? with
    | some o => .ok o.2
    | none => .error (.invalidValue (.number (.nat i)) "variant index 0 <= i < 2")
  | v => .error (.invalidType v.found "variant identifier")

/-- Whether members say that a step was skipped. -/
def outcomeTag (tag : Option Bool) : List (String × Value) → Except DataError Bool
  | [] =>
    match tag with
    | some skip => .ok skip
    | none => .error (.missingField "outcome")
  | (name, v) :: ms =>
    if name = "outcome" then
      match tag with
      | some _ => .error (.duplicateField "outcome")
      | none => do outcomeTag (some (← isSkipTag v)) ms
    else outcomeTag tag ms

/-- The reason that members give for a skip. -/
def outcomeReason (reason : Option SkipReason) : List (String × Value) → Except DataError SkipReason
  | [] =>
    match reason with
    | some r => .ok r
    | none => .error (.missingField "reason")
  | (name, v) :: ms =>
    if name = "reason" then
      match reason with
      | some _ => .error (.duplicateField "reason")
      | none => do outcomeReason (some (← namedOfValue reasonNames v)) ms
    else outcomeReason reason ms

/-- The outcome that members give. -/
def outcomeOfMembers (ms : List (String × Value)) : Except DataError StepOutcome := do
  if ← outcomeTag none ms then return .skipped (← outcomeReason none ms) else return .unified

/-! ## Steps -/

/-- A step while it is being read; the members that are not its own are kept, last first. -/
structure PartialStep where
  index : Option Nat
  kind : Option ConstraintKind
  bound : Option (List Name)
  others : List (String × Value)

/-- A member that must not be there yet. -/
def onlyOnce {α : Type} (name : String) (seen : Option α) : Except Error Unit :=
  if seen.isSome then .error (.data (.duplicateField name)) else .ok ()

/-- A member of a step. -/
def readStepMember (limit room : Nat) (s : PartialStep) (name : String) (cs : List Char) :
    Except Error (PartialStep × List Char) :=
  if name = "index" then do
    onlyOnce name s.index
    let (n, cs) ← afterColon readCount cs
    return ({ s with index := some n }, cs)
  else if name = "kind" then do
    onlyOnce name s.kind
    let (k, cs) ← afterColon (readNamed constraintKindNames room) cs
    return ({ s with kind := some k }, cs)
  else if name = "bound" then do
    onlyOnce name s.bound
    let (names, cs) ← afterColon (readList (fun _ => readString) limit room) cs
    return ({ s with bound := some names }, cs)
  else do
    let (v, cs) ← afterColon (readValue limit room) cs
    return ({ s with others := (name, v) :: s.others }, cs)

/-- A member that has to have been there. -/
def present {α : Type} (name : String) (seen : Option α) : Except DataError α :=
  match seen with
  | some a => .ok a
  | none => .error (.missingField name)

/-- The step, once all its members have been read. -/
def PartialStep.complete (s : PartialStep) : Except DataError TraceStep := do
  let index ← present "index" s.index
  let kind ← present "kind" s.kind
  let bound ← present "bound" s.bound
  return ⟨index, kind, ← outcomeOfMembers s.others.reverse, bound⟩

/-- A step in a text. -/
def readStep (limit room : Nat) (cs : List Char) : Except Error (TraceStep × List Char) :=
  match skipSpace cs, room with
  | '\x7b' :: _, 0 => .error .malformed
  | '\x7b' :: rest, room + 1 => do
    let (s, rest) ← readMembers (readChars [] none) (readStepMember limit room) limit true
      ⟨none, none, none, []⟩ rest
    return (← liftData s.complete, rest)
  | _, _ => .error (unwanted "struct SolveStep" cs)

/-! ## Traces -/

/-- How a trace is read, within its limits. -/
def traceRecord (limit room : Nat) : Record (List TraceStep) where
  label := "SolveTrace"
  fields := [.of "steps" (readList (readStep limit) limit (room - 1)) fun _ steps => steps]
  closed := false
  mayEnd := false

/-- A trace in a text. -/
def readTrace (limit room : Nat) (cs : List Char) : Except Error (Trace × List Char) := do
  let ((steps, seen), rest) ← (traceRecord limit room).read [] limit room cs
  if seen.contains "steps" then return (⟨steps⟩, rest)
  else throw (.data (.missingField "steps"))

/-- The step that a text stands for. -/
def parseStep (text : String) : Except Error TraceStep := parse readStep text

/-- The trace that a text stands for. -/
def parseTrace (text : String) : Except Error Trace := parse readTrace text

end TypeSolver.Wire
