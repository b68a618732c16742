import TypeSolver.Config.Basic
import TypeSolver.Yaml.Printer

/-!
# Configuration documents

A configuration is kept in a YAML document with a version, a preset to start from, and settings that
override the preset's.  A document may leave out everything but the version; it may have nothing
else in it, and nothing twice.

The whole document is read before anything in it is judged; then come the version, the preset and
the validity of the configuration, in that order.
-/

namespace TypeSolver

open Yaml

/-- What a document says. -/
structure Document where
  version : Option Nat
  preset : Option String
  solver : Option Patch
deriving DecidableEq, Inhabited

namespace Document

/-- The version of the documents that are read and written here. -/
def currentVersion : Nat := 1

/-! ## Reading -/

/-- Whether every name is a known one and none occurs twice. -/
def hasOnly (known : List String) (fields : List (String × Node)) : Bool :=
  let names := fields.map Prod.fst
  names.all known.contains && names.Nodup

/-- A setting that may be left out or be nothing: `some none` where it is. -/
def setting? {α : Type} (fields : List (String × Node)) (name : String) (read : Node → Option α) :
    Option (Option α) :=
  match fields.lookup name with
  | some node => node.option? read
  | none => some none

/-- The settings of a document. -/
def patchOfNode? (node : Node) : Option Patch := do
  let fields ← node.fields?
  if !hasOnly ["synthetic_marker", "freshen_nested_functions", "record_trace", "max_constraints"]
    fields then failure
  return {
    syntheticMarker := ← setting? fields "synthetic_marker" Node.text?
    freshenNestedFunctions := ← setting? fields "freshen_nested_functions" Node.bool?
    recordTrace := ← setting? fields "record_trace" Node.bool?
    maxConstraints := ← setting? fields "max_constraints" (Node.natBelow? (Nat.pow 2 64)) }

/-- The document that a node holds. -/
def ofNode? (node : Node) : Option Document := do
  let fields ← node.fields?
  if !hasOnly ["version", "preset", "solver"] fields then failure
  return {
    version := ← setting? fields "version" (Node.natBelow? (Nat.pow 2 32))
    preset := ← setting? fields "preset" Node.text?
    solver := ← setting? fields "solver" patchOfNode? }

/-- The document that a text holds. -/
def ofText? (text : String) : Option Document := do ofNode? (← Node.ofText text)

/-- The configuration that a document asks for. -/
def config (d : Document) : Except ConfigError Config := do
  match d.version with
  | none => throw .missingVersion
  | some version =>
    if version ≠ currentVersion then throw (.unsupportedVersion version currentVersion)
  let preset ← match d.preset with
    | some name => Preset.ofName name
    | none => .ok .standard
  let config := match d.solver with
    | some patch => preset.config.patch patch
    | none => preset.config
  config.validate
  return config

end Document

namespace Config

/-- The configuration that a YAML text asks for. -/
def ofYaml (text : String) : Except ConfigError Config :=
  match Document.ofText? text with
  | some document => document.config
  | none => .error .malformed

/-- The configuration that a file asks for. -/
def ofFile (content : Except FileError String) : Except ConfigError Config := do
  ofYaml (← content.mapError .file)

/-! ## Writing -/

/-- A line of a document, at a level of indentation. -/
def writeEntry (level : Nat) (name : String) (value : List Char) : List Char :=
  List.replicate (2 * level) ' ' ++ name.toList ++ ':' :: (value ++ ['\n'])

/-- A truth value in a document. -/
def writeSwitch (b : Bool) : List Char := (if b then " true" else " false").toList

/-- A number in a document. -/
def writeCount (n : Nat) : List Char := ' ' :: Nat.toDigits 10 n

/-- The YAML text of a configuration, with every setting spelled out. -/
def toYaml (c : Config) : String :=
  String.ofList
    (writeEntry 0 "version" (writeCount Document.currentVersion) ++
      writeEntry 0 "solver" [] ++
      writeEntry 1 "synthetic_marker" (' ' :: writeScalar c.syntheticMarker) ++
      writeEntry 1 "freshen_nested_functions" (writeSwitch c.freshenNestedFunctions) ++
      writeEntry 1 "record_trace" (writeSwitch c.recordTrace) ++
      writeEntry 1 "max_constraints" (writeCount c.maxConstraints))

end Config

end TypeSolver
