/-!
# Command line arguments

Options have a long name, after two hyphens, and may have a letter, after one.  An option that takes
a value has it after an equals sign, directly after the letter, or in the next argument; there it
may not start with a hyphen, unless it is one.  No option may be given twice, and there are no other
arguments.  Two hyphens alone end the options.
-/

namespace TypeSolver

/-- An option of a command. -/
structure Switch where
  name : String
  letter : Option Char
  takesValue : Bool

namespace Arguments

/-- The options given, with their values; one that takes none has the empty value. -/
abbrev Given := List (String × String)

/-- Whether an argument can be the value of the option before it. -/
def isValue (argument : String) : Bool :=
  match argument.toList with
  | '-' :: _ :: _ => false
  | _ => true

/-- The value attached to an option by an equals sign. -/
def afterEquals? : List Char → Option String
  | '=' :: value => some (String.ofList value)
  | _ => none

/-- The name part and the attached value of an option in its long form. -/
def splitLong (body : List Char) : String × Option String :=
  (String.ofList (body.takeWhile (· != '=')), afterEquals? (body.dropWhile (· != '=')))

/-- The value attached to an option in its short form. -/
def attached? : List Char → Option String
  | [] => none
  | '=' :: value => some (String.ofList value)
  | value => some (String.ofList value)

/-- The option that an argument gives, and the value attached to it; `none` if it gives no
option. -/
def switchOf? (switches : List Switch) (argument : String) : Option (Switch × Option String) :=
  match argument.toList with
  | '-' :: '-' :: body =>
    let (name, value) := splitLong body
    (switches.find? (·.name = name)).map (·, value)
  | '-' :: letter :: body => (switches.find? (·.letter = some letter)).map (·, attached? body)
  | _ => none

/-- The options that arguments give, after those given before. -/
def read (switches : List Switch) (given : Given) : List String → Option Given
  | [] => some given
  | argument :: rest =>
    if argument = "--" then if rest.isEmpty then some given else none
    else
      match switchOf? switches argument with
      | none => none
      | some (switch, attached) =>
        if (given.lookup switch.name).isSome then none
        else
          match switch.takesValue, attached, rest with
          | false, none, rest => read switches ((switch.name, "") :: given) rest
          | true, some value, rest => read switches ((switch.name, value) :: given) rest
          | true, none, value :: rest =>
            if isValue value then read switches ((switch.name, value) :: given) rest else none
          | _, _, _ => none

end Arguments

end TypeSolver
