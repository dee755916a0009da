import TreeInspector.Failure
import TreeInspector.Options
import TreeInspector.Text.Distance
import TreeInspector.Text.Units

/-!
# Arguments of the command line

The arguments are read from left to right: options anywhere, one file, and `--` before arguments
that look like options but are none.
-/

set_option autoImplicit false

namespace TreeInspector.CommandLine

/-- The line that tells how the program is called. -/
def usage : String :=
  "Usage: parse-tree-inspector <file.json> [--navigation] [--highlight] " ++
    "[--config <path>] [--no-watch]"

/-- What a call of the program asks for. -/
structure Arguments where
  file : String
  config : Option String := none
  navigation : Bool := false
  highlight : Bool := false
  watch : Bool := true
  deriving DecidableEq, Repr

/-- The options that the arguments set. -/
def Arguments.settings (a : Arguments) : Settings :=
  { navigation := if a.navigation then .given true else .absent
    highlight := if a.highlight then .given true else .absent }

/-- A call asks for an inspection or for help. -/
inductive Request where
  | help
  | inspect (arguments : Arguments)
  deriving DecidableEq, Repr

/-- What is wrong with a call. -/
inductive ArgumentError where
  | configMissing
  | unknownOption (argument : String)
  | fileMissing
  | tooMany (count : Nat)
  deriving DecidableEq, Repr

/-- The names of the long options, in alphabetical order. -/
def longOptions : List String := ["config", "help", "highlight", "navigation", "no-watch"]

/-- The greatest distance at which an option is suggested. -/
def greatestDistance : Nat := 3

/-- The distance of a word from the name of an option. Words of very different lengths are as far
apart as the longer one is long. -/
def optionDistance (word name : List CodeUnit) : Nat :=
  let longer := Nat.max word.length name.length
  if longer - Nat.min word.length name.length > greatestDistance then longer
  else Text.distance word name

/-- The options to suggest for a word: the nearest ones, if they are near and have more than two
fifths of the longer word in common with it. -/
def similarOptions (word : List CodeUnit) : List String :=
  let rated := longOptions.filterMap fun name =>
    let units := Text.units name
    let distance := optionDistance word units
    let longer := Nat.max word.length units.length
    if distance ≤ greatestDistance ∧ 2 * longer < 5 * (longer - distance) then
      some (distance, name)
    else none
  let least := rated.foldl (fun n r => Nat.min n r.1) greatestDistance
  (rated.filter fun r => r.1 = least).map (·.2)

/-- The hint that follows an unknown long option. -/
def suggestion (argument : String) : String :=
  match argument.toList with
  | '-' :: '-' :: word =>
    match (similarOptions (Text.units (String.ofList word))).map ("--" ++ ·) with
    | [] => ""
    | [one] => "\n(Did you mean " ++ one ++ "?)"
    | several => "\n(Did you mean one of " ++ ", ".intercalate several ++ "?)"
  | _ => ""

/-- The wording of what is wrong with a call. -/
def ArgumentError.message (e : ArgumentError) : String :=
  let problem := match e with
    | .configMissing => "option '--config <path>' argument missing"
    | .unknownOption argument => "unknown option '" ++ argument ++ "'" ++ suggestion argument
    | .fileMissing => "missing required argument 'file'"
    | .tooMany count =>
      "too many arguments. Expected 1 argument but got " ++ Nat.repr count ++ "."
  problem ++ "\n" ++ usage

/-- What the arguments read so far amount to. Operands and unknown arguments are listed from the
latest. -/
structure Reading where
  config : Option String := none
  navigation : Bool := false
  highlight : Bool := false
  watch : Bool := true
  operands : List String := []
  unknown : List String := []

/-- An argument that looks like an option. -/
def looksLikeOption (argument : String) : Bool :=
  match argument.toList with
  | '-' :: _ :: _ => true
  | _ => false

/-- The value in an argument of the form `--config=value`. -/
def configValue? (argument : String) : Option String :=
  if "--config=".toList.isPrefixOf argument.toList then
    some (String.ofList (argument.toList.drop "--config=".length))
  else none

namespace Reading

/-- Adds arguments that are no known options; once one was unknown, all later ones are. -/
def addOthers (arguments : List String) (r : Reading) : Reading :=
  if r.unknown.isEmpty then { r with operands := arguments.reverse ++ r.operands }
  else { r with unknown := arguments.reverse ++ r.unknown }

/-- Adds one argument that is no known option. -/
def addOther (argument : String) (r : Reading) : Reading :=
  if looksLikeOption argument then { r with unknown := argument :: r.unknown }
  else r.addOthers [argument]

/-- Reads the arguments from left to right. -/
def scan (r : Reading) : List String → Except ArgumentError Reading
  | [] => .ok r
  | argument :: rest =>
    if argument = "--" then
      .ok (r.addOthers (if r.unknown.isEmpty then rest else argument :: rest))
    else if argument = "--navigation" then scan { r with navigation := true } rest
    else if argument = "--highlight" then scan { r with highlight := true } rest
    else if argument = "--no-watch" then scan { r with watch := false } rest
    else if argument = "--config" then
      match rest with
      | [] => .error .configMissing
      | value :: others => scan { r with config := some value } others
    else
      match configValue? argument with
      | some value => scan { r with config := some value } rest
      | none => scan (r.addOther argument) rest

end Reading

/-- What the arguments ask for. -/
def Request.ofArguments (arguments : List String) : Except ArgumentError Request := do
  let r ← Reading.scan {} arguments
  if r.unknown.any fun a => a = "-h" ∨ a = "--help" then return .help
  match r.unknown.reverse, r.operands.reverse with
  | argument :: _, _ => throw (.unknownOption argument)
  | [], [] => throw .fileMissing
  | [], [file] =>
    return .inspect
      { file := file
        config := r.config
        navigation := r.navigation
        highlight := r.highlight
        watch := r.watch }
  | [], operands => throw (.tooMany operands.length)

end TreeInspector.CommandLine
