import TypeSolver.Arguments
import TypeSolver.Batch
import TypeSolver.Config.Document

/-!
# Commands

What the program can be asked to do: solve the constraints of a file, unify two types, or show a
preset.  A command prints one text, or fails with one error.
-/

namespace TypeSolver

/-- What the program is asked to do. -/
inductive Command where
  /-- solve the constraints of a file -/
  | solve (input : String) (settings : Option String) (trace pretty : Bool)
  /-- unify two types, given as JSON texts -/
  | unify (left right : String)
  /-- show the configuration of a preset -/
  | config (preset : String)
deriving DecidableEq, Inhabited

namespace Command

/-! ## Arguments -/

/-- The options of the command that solves. -/
def solveSwitches : List Switch :=
  [⟨"input", some 'i', true⟩, ⟨"config", some 'c', true⟩, ⟨"trace", none, false⟩,
    ⟨"pretty", none, false⟩]

/-- The options of the command that unifies. -/
def unifySwitches : List Switch := [⟨"left", some 'l', true⟩, ⟨"right", some 'r', true⟩]

/-- The options of the command that shows a preset. -/
def configSwitches : List Switch := [⟨"preset", some 'p', true⟩]

/-- The command to solve that options ask for.  A path is not empty. -/
def solveOf? (given : Arguments.Given) : Option Command := do
  let input ← given.lookup "input"
  let settings := given.lookup "config"
  if input.isEmpty || settings = some "" then failure
  return .solve input settings (given.lookup "trace").isSome (given.lookup "pretty").isSome

/-- The command that arguments ask for, if they are well-formed. -/
def ofArguments? : List String → Option Command
  | [] => none
  | name :: rest => do
    if name = "solve" then solveOf? (← Arguments.read solveSwitches [] rest)
    else if name = "unify" then
      let given ← Arguments.read unifySwitches [] rest
      return .unify (← given.lookup "left") (← given.lookup "right")
    else if name = "config" then
      let given ← Arguments.read configSwitches [] rest
      return .config ((given.lookup "preset").getD Preset.standard.name)
    else none

/-- The files that a command reads. -/
def paths : Command → List String
  | .solve input settings _ _ => settings.toList ++ [input]
  | _ => []

/-! ## Performing -/

/-- The text of a value, indented or not. -/
def write (pretty : Bool) (v : Json.Value) : String := if pretty then v.pretty else v.compact

/-- What a command prints, given what reading its files gives. -/
def perform (depth : Nat) (read : String → Except FileError String) :
    Command → Except BatchError String
  | .solve input settings trace pretty => do
    let base ← match settings with
      | some path => (Config.ofFile (read path)).mapError .config
      | none => .ok Preset.standard.config
    let chosen := { base with recordTrace := base.recordTrace || trace }
    let outcome ← Batch.solve depth chosen (.file input (read input))
    return write pretty outcome.toJson
  | .unify left right => do
    let l ← (Wire.parseTy left).mapError .json
    let r ← (Wire.parseTy right).mapError .json
    let s ← (TypeSolver.unify depth l r).mapError .unify
    return write false (Wire.ofSubst s)
  | .config preset => do
    let preset ← (Preset.ofName preset).mapError .config
    return preset.config.toYaml

end Command

/-! ## Replies -/

/-- What the program answers. -/
inductive Reply where
  /-- the arguments make no command -/
  | misused
  | failed (cause : BatchError)
  | printed (text : String)

namespace Reply

/-- The answer to arguments. -/
def toArguments (depth : Nat) (read : String → Except FileError String) (arguments : List String) :
    Reply :=
  match Command.ofArguments? arguments with
  | none => misused
  | some command =>
    match command.perform depth read with
    | .ok text => printed text
    | .error cause => failed cause

/-- The status that the program ends with. -/
def status : Reply → Nat
  | misused => 2
  | failed _ => 1
  | printed _ => 0

/-- What goes to standard output. -/
def output : Reply → String
  | printed text => text ++ "\n"
  | _ => ""

/-- What goes to standard error. -/
def complaint : Reply → String
  | misused =>
    "usage: solve --input FILE [--config FILE] [--trace] [--pretty]\n" ++
      "       unify --left TYPE --right TYPE\n" ++
      "       config [--preset NAME]\n"
  | failed cause => "❌ " ++ cause.message ++ "\n"
  | printed _ => ""

end Reply

end TypeSolver
