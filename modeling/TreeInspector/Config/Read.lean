import TreeInspector.Config.Value
import TreeInspector.Failure
import TreeInspector.Options

/-!
# Reading a configuration

A configuration text is a document whose options stand at the top or in a section of their own.
Only the known options may be given, and only as true, false or null.
-/

set_option autoImplicit false

namespace TreeInspector.Config

open Document (Dialect lenient Fault)

/-- The name of the configuration file that is read unless another is named. -/
def defaultFile : String := "parse-tree-inspector.jsonc"

/-- The name of the section that may hold the options. -/
def sectionName : String := "parseTreeInspector"

/-- The names of the options, in the order in which they are checked. -/
def optionNames : List String := ["enableNavigation", "highlightOnNavigate"]

/-- Where the options stand: in the section if the top is an object that has one, else at the
top. -/
def candidate (top : Value) : Value :=
  (top.lookup? (Text.units sectionName)).getD top

/-- The value is one that an option may have. -/
def isSetting : Value → Bool
  | .boolean _ => true
  | .null => true
  | _ => false

/-- What is wrong with the options: names that are no options, then options of another type. -/
def issues (options : Value) : List String :=
  match options with
  | .object .. =>
    let known := optionNames.map Text.units
    let unknown := options.names.filter fun n => !known.contains n
    let mistyped := optionNames.filter fun o =>
      match options.lookup? (Text.units o) with
      | some v => !isSetting v
      | none => false
    unknown.map (fun n => "/: unknown option \"" ++ Text.ofUnits n ++ "\"") ++
      mistyped.map fun o => "/" ++ o ++ ": must be boolean"
  | _ => ["/: must be object"]

/-- What an object itself says about an option. -/
def ownSetting (options : Value) (name : String) : Setting :=
  match options with
  | .object entries _ =>
    match get? (Text.units name) entries with
    | some (.boolean b) => .given b
    | some .null => .null
    | _ => .absent
  | _ => .absent

/-- What an object itself says about all options. -/
def ownSettings (options : Value) : Settings :=
  { navigation := ownSetting options "enableNavigation"
    highlight := ownSetting options "highlightOnNavigate" }

/-- The parse options of a configuration text, which may also be empty. -/
def dialect : Dialect := { lenient with emptyContent := true }

/-- The error of a configuration text that is not accepted. -/
def rejected (file : String) (issues : List String) : Failure :=
  .view (.config ("Invalid configuration file " ++ file ++ ":") issues)

/-- The settings that a configuration text gives. -/
def readUnits (text : List CodeUnit) (file : String) : Except Failure Settings :=
  let parsed := Document.parse dialect text
  if parsed.faults.isEmpty then
    match parsed.root with
    | none => .ok {}
    | some root =>
      let options := candidate (Value.ofTree root)
      match issues options with
      | [] => .ok (ownSettings options)
      | wrong => .error (rejected file wrong)
  else .error (rejected file (parsed.faults.map (Fault.describe text)))

/-- The settings that a configuration text gives. -/
def read (text : String) (file : String) : Except Failure Settings :=
  readUnits (Text.units text) file

end TreeInspector.Config
