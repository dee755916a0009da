import TreeInspector.Number.Text

/-!
# Failures

Every way an operation can fail, as a cause. `Failure.message` holds all wording.
-/

set_option autoImplicit false

namespace TreeInspector

/-- Whether a session is bound to a view. -/
inductive SessionState where
  | inactive
  | active
  deriving DecidableEq, Repr

/-- The word for a state. -/
def SessionState.text : SessionState → String
  | .inactive => "inactive"
  | .active => "active"

/-- What was asked of a session. -/
inductive SessionOperation where
  | enable
  | disable
  | sourceChanged
  | sourceDestroyed
  deriving DecidableEq, Repr

/-- The name of an operation. -/
def SessionOperation.text : SessionOperation → String
  | .enable => "enable"
  | .disable => "disable"
  | .sourceChanged => "sourceChanged"
  | .sourceDestroyed => "sourceDestroyed"

/-- What an operation does, as a phrase after "Cannot". -/
def SessionOperation.phrase : SessionOperation → String
  | .enable => "enable"
  | .disable => "disable"
  | .sourceChanged => "refresh on source change"
  | .sourceDestroyed => "tear down on source destruction"

/-- Why a line could not be followed to its source. -/
inductive NavigationReason where
  | noSourceBound
  | noSuchLine
  | notNavigable
  | sourceUnavailable
  deriving DecidableEq, Repr

/-- The word for a reason. -/
def NavigationReason.text : NavigationReason → String
  | .noSourceBound => "no-source-bound"
  | .noSuchLine => "no-such-line"
  | .notNavigable => "not-navigable"
  | .sourceUnavailable => "source-unavailable"

/-- The part of the inspector an error comes from. -/
inductive Category where
  | lifecycle
  | navigation
  | config
  | sourceOpen
  deriving DecidableEq, Repr

/-- The word for a category. -/
def Category.text : Category → String
  | .lifecycle => "lifecycle"
  | .navigation => "navigation"
  | .config => "config"
  | .sourceOpen => "source-open"

/-- The errors of the inspector itself. -/
inductive ViewError where
  | general (message : String) (category : Category)
  | lifecycle (operation : SessionOperation) (state : String) (detail : Option String)
  | navigation (reason : NavigationReason) (message : String)
  | sourceUnavailable (title : String)
  | config (headline : String) (issues : List String)
  | sourceOpen (message : String) (path : String)
  deriving DecidableEq, Repr

namespace ViewError

/-- The part of the inspector an error comes from. -/
def category : ViewError → Category
  | .general _ category => category
  | .lifecycle .. => .lifecycle
  | .navigation .. => .navigation
  | .sourceUnavailable _ => .navigation
  | .config .. => .config
  | .sourceOpen .. => .sourceOpen

/-- The wording of an error. -/
def message : ViewError → String
  | .general message _ => message
  | .lifecycle operation state detail =>
    detail.getD ("Cannot " ++ operation.phrase ++ ": session is " ++ state ++ ".")
  | .navigation _ message => message
  | .sourceUnavailable title =>
    "Cannot navigate: source no longer available: " ++ title ++ "."
  | .config headline issues =>
    headline ++ String.join (issues.map fun issue => "\n  - " ++ issue)
  | .sourceOpen message _ => message

/-- A second view was asked for a source that has one. -/
def alreadyViewed (state : SessionState) (title : String) : ViewError :=
  .lifecycle .enable state.text
    (some ("Cannot enable: " ++ title ++ " already has an active tree view."))

/-- A jump from a session that has never been bound, or was disabled. -/
def noSourceBound : ViewError :=
  .navigation .noSourceBound "Cannot navigate: no source is bound to this tree view."

/-- A jump to a line that the view does not have. -/
def noSuchLine (index : Number) (count : Nat) : ViewError :=
  .navigation .noSuchLine ("Cannot navigate: line " ++ index.text ++ " does not exist (view has " ++
    Nat.repr count ++ " lines).")

/-- A jump from a line without a span. -/
def notNavigable (label : String) : ViewError :=
  .navigation .notNavigable ("Cannot navigate: \"" ++ label ++ "\" is not a navigable line.")

/-- A closed source was used. -/
def closed (name path : String) : ViewError :=
  .sourceOpen ("Source " ++ name ++ " is closed.") path

end ViewError

/-- What a step of a run may name. -/
inductive ReferenceKind where
  | session
  | source
  | line
  | listener
  deriving DecidableEq, Repr

/-- The word for what is named. -/
def ReferenceKind.text : ReferenceKind → String
  | .session => "session"
  | .source => "source"
  | .line => "line"
  | .listener => "listener"

/-- Everything that can end an operation early. -/
inductive Failure where
  /-- An error of the inspector. -/
  | view (error : ViewError)
  /-- A depth limit that is no count and not unbounded. -/
  | badDepthLimit (given : Number)
  /-- A number of repetitions that is negative or infinite. -/
  | repetition (given : Number)
  /-- A repetition that would give more text than there can be. -/
  | tooLong
  /-- A pattern for paths that is longer than one may be. -/
  | longPattern
  /-- A clock reading without a date. -/
  | clock
  /-- An error of the system below, with its code. -/
  | system (code : Option String) (message : String)
  /-- An error raised by whoever drives the run. -/
  | raised (message : String)
  /-- A bare text raised in place of an error. -/
  | bare (text : String)
  /-- A step names something that does not exist. -/
  | noSuch (kind : ReferenceKind) (index : Number)
  /-- Steps called one another more deeply than a run allows. -/
  | tooDeep
  deriving DecidableEq

namespace Failure

/-- The wording of a failure. -/
def message : Failure → String
  | .view error => error.message
  | .badDepthLimit given =>
    "Depth limit must be a non-negative integer or Unbounded, got " ++ given.text ++ "."
  | .repetition given => "Invalid count value: " ++ given.text
  | .tooLong => "Invalid string length"
  | .longPattern => "pattern is too long"
  | .clock => "Invalid time value"
  | .system _ message => message
  | .raised message => message
  | .bare text => text
  | .noSuch kind index => "no " ++ kind.text ++ " " ++ index.text
  | .tooDeep => "steps are nested too deeply"

/-- The failure carries a code. -/
def hasCode : Failure → Bool
  | .view _ => true
  | .system .. => true
  | _ => false

/-- The failure says that a file does not exist. -/
def isMissingFile : Failure → Bool
  | .system code _ => code = some "ENOENT"
  | _ => false

end Failure

end TreeInspector
