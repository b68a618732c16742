import TypeSolver.Config.Basic
import TypeSolver.Json.Printer
import TypeSolver.Wire.Record
import TypeSolver.Wire.Types

/-!
# Configurations and patches as JSON

A configuration takes the default for what a text leaves out and passes over what it does not know.
A patch knows no other members than the settings; a setting that is absent or `null` is not patched,
and is not written.
-/

namespace TypeSolver.Wire

open Json

/-- A configuration as a value. -/
def ofConfig (c : Config) : Value :=
  .object
    [("synthetic_marker", .string c.syntheticMarker),
      ("freshen_nested_functions", .bool c.freshenNestedFunctions),
      ("record_trace", .bool c.recordTrace),
      ("max_constraints", .number (.nat c.maxConstraints))]

/-- A patch as a value. -/
def ofPatch (p : Patch) : Value :=
  let member {α : Type} (name : String) (setting : Option α) (write : α → Value) :
      List (String × Value) :=
    match setting with
    | some a => [(name, write a)]
    | none => []
  .object
    (member "synthetic_marker" p.syntheticMarker .string ++
      member "freshen_nested_functions" p.freshenNestedFunctions .bool ++
      member "record_trace" p.recordTrace .bool ++
      member "max_constraints" p.maxConstraints fun n => .number (.nat n))

/-- How a configuration is read. -/
def configRecord : Record Config where
  label := "SolverConfig"
  fields :=
    [.of "synthetic_marker" readString fun c s => { c with syntheticMarker := s },
      .of "freshen_nested_functions" readBool fun c b => { c with freshenNestedFunctions := b },
      .of "record_trace" readBool fun c b => { c with recordTrace := b },
      .of "max_constraints" readCount fun c n => { c with maxConstraints := n }]
  closed := false
  mayEnd := true

/-- How a patch is read. -/
def patchRecord : Record Patch where
  label := "SolverConfigPatch"
  fields :=
    [.of "synthetic_marker" (readOption readString) fun p s => { p with syntheticMarker := s },
      .of "freshen_nested_functions" (readOption readBool)
        fun p b => { p with freshenNestedFunctions := b },
      .of "record_trace" (readOption readBool) fun p b => { p with recordTrace := b },
      .of "max_constraints" (readOption readCount) fun p n => { p with maxConstraints := n }]
  closed := true
  mayEnd := false

/-- The patch that changes nothing. -/
def emptyPatch : Patch := ⟨none, none, none, none⟩

/-- The configuration that a text stands for. -/
def parseConfig (text : String) : Except Error Config := do
  return (← parse (configRecord.read Preset.standard.config) text).1

/-- The patch that a text stands for. -/
def parsePatch (text : String) : Except Error Patch := do
  return (← parse (patchRecord.read emptyPatch) text).1

/-- The choice that a text names. -/
def parseNamed {α : Type} (names : List (String × α)) (text : String) : Except Error α :=
  parse (fun _ => readNamed names) text

end TypeSolver.Wire
