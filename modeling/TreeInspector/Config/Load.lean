import TreeInspector.Config.Read
import TreeInspector.Disk

/-!
# Loading a configuration

Options come from three layers: defaults, the configuration file, and what was asked explicitly. A
missing default file is fine; a missing file that was named is not.
-/

set_option autoImplicit false

namespace TreeInspector.Config

/-- What to load: from which directory, which file if not the default one, and what was asked. -/
structure Request where
  directory : Option String := none
  file : Option String := none
  overrides : Settings := {}

/-- The options in force and the file they come from, if one was read. -/
structure Loaded where
  options : Options
  source : Option Path

/-- The path of the configuration file of a request. -/
def Request.path (r : Request) (disk : Disk) : Path :=
  (disk.resolve (r.directory.getD "")).resolve (r.file.getD defaultFile)

/-- The text of a configuration file; none if it is missing and need not be there. -/
def readFile (disk : Disk) (path : Path) (required : Bool) : Except Failure (Option String) :=
  match disk.readText path with
  | .ok text => .ok (some text)
  | .error e =>
    if !required && e.isMissingFile then .ok none
    else
      .error (.view (.config
        ("Unable to read configuration file " ++ path.text ++ ": " ++ e.message) []))

/-- Loads the options of a request. -/
def load (disk : Disk) (r : Request) : Except Failure Loaded := do
  let path := r.path disk
  match ← readFile disk path r.file.isSome with
  | none => return ⟨r.overrides.resolve, none⟩
  | some text =>
    let settings ← read text path.text
    return ⟨(r.overrides.overlay settings).resolve, some path⟩

end TreeInspector.Config
