import TreeInspector.Document.Analysis
import TreeInspector.Path
import TreeInspector.Session.Basic

/-!
# File sources

An open document. Its tree and faults always belong to its text; the saved text is the one that the
disk last had.
-/

set_option autoImplicit false

namespace TreeInspector

/-- A watcher of a path, by its number on the desk. -/
abbrev WatcherId := Nat

/-- A document that is open, or was. -/
structure SourceFile where
  path : String
  /-- The text is made of whole characters: half of a surrogate pair is not one, so texts that hold
  such a half are not among those that a source can have. -/
  text : String := ""
  saved : String := ""
  tree : Option ParseTree := none
  faults : List Document.Fault := []
  closed : Bool := false
  watcher : Option WatcherId := none
  selection : Option Span := none
  highlighted : Bool := false
  commitListeners : List SubscriptionId := []
  destroyListeners : List SubscriptionId := []

namespace SourceFile

/-- The name under which a source is shown. -/
def name (s : SourceFile) : String := Path.baseName s.path

/-- The text differs from the saved one. -/
def isUnsaved (s : SourceFile) : Bool := s.text ≠ s.saved

/-- The source with a new text, which is saved or not. -/
def update (text : String) (saved : Bool) (s : SourceFile) : SourceFile :=
  let analysis := Document.analyze Document.lenient text
  { s with
    text := text
    tree := some analysis.root
    faults := analysis.faults
    saved := if saved then text else s.saved }

/-- The error of using a closed source. -/
def closedError (s : SourceFile) : Failure := .view (.closed s.name s.path)

/-- The tree of a source that is open and has a text. -/
def currentTree (s : SourceFile) : Except Failure ParseTree :=
  match s.closed, s.tree with
  | false, some tree => .ok tree
  | _, _ => .error s.closedError

/-- The subscriptions to an event, in the order in which they were made. -/
def listeners (s : SourceFile) : Notice → List SubscriptionId
  | .commit => s.commitListeners
  | .destroy => s.destroyListeners

/-- The source with the subscriptions to an event changed. -/
def modifyListeners (event : Notice) (f : List SubscriptionId → List SubscriptionId)
    (s : SourceFile) : SourceFile :=
  match event with
  | .commit => { s with commitListeners := f s.commitListeners }
  | .destroy => { s with destroyListeners := f s.destroyListeners }

/-- The wording of the faults of a source. -/
def faultTexts (s : SourceFile) : List String :=
  s.faults.map (Document.Fault.describe (Text.units s.text))

end SourceFile

end TreeInspector
