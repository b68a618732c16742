import TypeSolver.Config.File
import TypeSolver.FreshNames
import TypeSolver.Text.Blank
import TypeSolver.Text.Quoted

/-!
# Configuration

The settings of a solver, the presets they start from, and patches that override some of them.  A
configuration is valid when its marker is a non-empty text without white space and its batch limit
is within bounds; the marker is checked first.
-/

namespace TypeSolver

/-- The settings of a solver. -/
structure Config where
  /-- stands between a variable's name and the number of an instance -/
  syntheticMarker : String
  /-- whether instances also rename inside functions that stand in a slot -/
  freshenNestedFunctions : Bool
  /-- whether a solve keeps a trace -/
  recordTrace : Bool
  /-- the largest batch that is accepted -/
  maxConstraints : Nat
deriving DecidableEq

/-! ## Presets -/

/-- A named configuration to start from. -/
inductive Preset where
  | standard
  | debug
deriving DecidableEq, Inhabited

/-- The name of a preset. -/
def Preset.name : Preset → String
  | .standard => "default"
  | .debug => "debug"

/-- The configuration that a preset stands for: debugging keeps a trace. -/
def Preset.config : Preset → Config
  | .standard => ⟨FreshNames.defaultMarker, false, false, 1000000⟩
  | .debug => ⟨FreshNames.defaultMarker, false, true, 1000000⟩

instance : Inhabited Config := ⟨Preset.standard.config⟩

/-! ## Errors -/

/-- Why a configuration is refused. -/
inductive ConfigError where
  /-- a numeric setting is outside its bounds -/
  | outOfBounds (field : String) (value min max : Nat) (reason : String)
  /-- the document does not say which version it is -/
  | missingVersion
  /-- the document has a version that is not read here -/
  | unsupportedVersion (found expected : Nat)
  /-- there is no preset of this name -/
  | unknownPreset (name : String)
  /-- the file cannot be read -/
  | file (cause : FileError)
  /-- the document is malformed, or of the wrong shape -/
  | malformed
  /-- the marker is empty -/
  | emptyMarker
  /-- the marker has white space in it -/
  | blankInMarker (marker : String)
deriving DecidableEq, Inhabited

/-- The text of a configuration error. -/
def ConfigError.message : ConfigError → String
  | .outOfBounds field value min max reason =>
    field ++ " = " ++ toString value ++ " is outside " ++ toString min ++ "..=" ++ toString max ++
      ": " ++ reason
  | .missingVersion => "solver config has no `version` key; start the file with `version: 1`"
  | .unsupportedVersion found expected =>
    "solver config version " ++ toString found ++ " is not supported (this build reads version " ++
      toString expected ++ ")"
  | .unknownPreset name => "unknown preset `" ++ name ++ "` (expected `default` or `debug`)"
  | .file cause => "IO error: " ++ cause.message
  | .malformed => "YAML parsing error: the document is malformed or has an unexpected shape"
  | .emptyMarker => "invalid solver config: synthetic_marker must not be empty"
  | .blankInMarker marker =>
    "invalid solver config: synthetic_marker must not contain whitespace, got " ++
      Text.quoted marker

/-- The preset of a name, in whatever case it is written.  Both names are ASCII, and no letter
outside ASCII has one of theirs as its lower case, so the lower case of ASCII letters decides. -/
def Preset.ofName (name : String) : Except ConfigError Preset :=
  let lower := name.map Char.toLower
  if lower = "default" then .ok .standard
  else if lower = "debug" then .ok .debug
  else .error (.unknownPreset name)

/-! ## Patches -/

/-- Settings to override; what is absent stays. -/
structure Patch where
  syntheticMarker : Option String
  freshenNestedFunctions : Option Bool
  recordTrace : Option Bool
  maxConstraints : Option Nat
deriving DecidableEq, Inhabited

namespace Config

/-- The configuration with a patch applied. -/
def patch (c : Config) (p : Patch) : Config where
  syntheticMarker := p.syntheticMarker.getD c.syntheticMarker
  freshenNestedFunctions := p.freshenNestedFunctions.getD c.freshenNestedFunctions
  recordTrace := p.recordTrace.getD c.recordTrace
  maxConstraints := p.maxConstraints.getD c.maxConstraints

/-- The patch that sets everything as it is here. -/
def toPatch (c : Config) : Patch where
  syntheticMarker := some c.syntheticMarker
  freshenNestedFunctions := some c.freshenNestedFunctions
  recordTrace := some c.recordTrace
  maxConstraints := some c.maxConstraints

/-! ## Validation -/

/-- The largest batch limit that can be set. -/
def maxConstraintsCeiling : Nat := 100000000

/-- Accept a valid configuration, or say what is wrong with it. -/
def validate (c : Config) : Except ConfigError Unit :=
  if c.syntheticMarker.isEmpty then .error .emptyMarker
  else if c.syntheticMarker.toList.any Text.isBlank then .error (.blankInMarker c.syntheticMarker)
  else if c.maxConstraints = 0 || maxConstraintsCeiling < c.maxConstraints then
    .error (.outOfBounds "max_constraints" c.maxConstraints 1 maxConstraintsCeiling
      "an empty batch limit rejects every input")
  else .ok ()

end Config

end TypeSolver
