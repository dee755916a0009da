import TreeInspector.Disk
import TreeInspector.Desk.SourceFile
import TreeInspector.Journal
import TreeInspector.Pattern.Match

/-!
# The desk of a file host

The state of a host whose sources are files and whose views are panes of text on an output.
-/

set_option autoImplicit false

namespace TreeInspector

/-- The pattern of the files that are opened unless another is given. -/
def defaultPattern : String := "*.\x7bjson,jsonc\x7d"

/-- A view as text. -/
structure Pane where
  title : String
  lines : List String := []
  disposed : Bool := false
  deriving DecidableEq, Repr

/-- A watcher of the path of a source. -/
structure Watcher where
  path : Path
  source : SourceId
  isOpen : Bool := true
  deriving DecidableEq

/-- The state of a file host. Sources, subscriptions, panes and watchers are numbered in the order
in which they were made. -/
structure Desk where
  disk : Disk
  /-- Sources are watched for changes made by others. -/
  watching : Bool := false
  /-- Only files whose path matches are opened. -/
  pattern : PathPattern := .ofText defaultPattern
  sources : List SourceFile := []
  subscriptions : List Subscription := []
  panes : List Pane := []
  watchers : List Watcher := []
  output : Sink := {}
  journal : JournalKind := .silent
  messages : List String := []
  /-- Noteworthy happenings, for whoever follows the run. -/
  trace : List String := []

namespace Desk

section

variable {C : Type}

/-- Writes text to the output. -/
def write (text : String) : Action Desk C Unit := do
  let (result, output) := (← Action.host).output.write text
  Action.modifyHost fun d => { d with output := output }
  Action.ofExcept result

/-- Logs a message. -/
def log (message : String) : Action Desk C Unit := do
  match (← Action.host).journal.entry? message with
  | .error e => throw e
  | .ok none => return
  | .ok (some entry) =>
    Action.modifyHost fun d => { d with messages := d.messages ++ [entry] }

/-- Notes a happening. -/
def note (happening : String) : Action Desk C Unit :=
  Action.modifyHost fun d => { d with trace := d.trace ++ [happening] }

/-- A source by its number. -/
def findSource (id : SourceId) : Action Desk C SourceFile := do
  match (← Action.host).sources[id]? with
  | some s => return s
  | none => throw (.noSuch .source id)

/-- Changes a source. -/
def modifySource (id : SourceId) (f : SourceFile → SourceFile) : Action Desk C Unit :=
  Action.modifyHost fun d => { d with sources := d.sources.modify id f }

/-- Adds a source that has no text yet. -/
def addSource (path : String) : Action Desk C SourceId := do
  let d ← Action.host
  Action.modifyHost fun d => { d with sources := d.sources ++ [{ path := path }] }
  return d.sources.length

/-- Refuses a closed source. -/
def requireOpen (id : SourceId) : Action Desk C SourceFile := do
  let s ← findSource id
  if s.closed then throw s.closedError
  return s

/-- Adds a subscription. -/
def subscribe (source : SourceId) (event : Notice) (callback : Callback) :
    Action Desk C SubscriptionId := do
  let id := (← Action.host).subscriptions.length
  Action.modifyHost fun d =>
    { d with subscriptions := d.subscriptions ++ [{ source, event, callback }] }
  modifySource source (·.modifyListeners event (· ++ [id]))
  return id

/-- Ends a subscription; a second time does nothing. -/
def unsubscribe (id : SubscriptionId) : Action Desk C Unit := do
  match (← Action.host).subscriptions[id]? with
  | none => return
  | some s =>
    if s.ended then return
    Action.modifyHost fun d =>
      { d with subscriptions := d.subscriptions.modify id ({ · with ended := true }) }
    modifySource s.source (·.modifyListeners s.event (·.filter (· ≠ id)))

/-- Announces an event to those who listen when it begins, in the order in which they subscribed;
the first failure ends it. -/
def announce (deliver : Callback → Action Desk C Unit) (source : SourceId) (event : Notice) :
    Action Desk C Unit := do
  ((← findSource source).listeners event).forM fun id => do
    match (← Action.host).subscriptions[id]? with
    | some s => deliver s.callback
    | none => return

/-- Stops a watcher. -/
def stopWatcher (id : WatcherId) : Action Desk C Unit := do
  match (← Action.host).watchers[id]? with
  | none => return
  | some w =>
    Action.modifyHost fun d =>
      { d with watchers := d.watchers.modify id ({ · with isOpen := false }) }
    note ("unwatch " ++ w.path.text)

/-- Gives a source another watcher, or none, and stops the one it had. -/
def replaceWatcher (source : SourceId) (watcher : Option WatcherId) : Action Desk C Unit := do
  match (← findSource source).watcher with
  | some old => stopWatcher old
  | none => pure ()
  modifySource source ({ · with watcher := watcher })

/-- Marks a source as closed: it is no longer watched and has no selection. -/
def shut (source : SourceId) : Action Desk C Unit := do
  modifySource source ({ · with closed := true })
  replaceWatcher source none
  modifySource source ({ · with selection := none })

/-- Forgets all who listen to a source. -/
def forgetListeners (source : SourceId) : Action Desk C Unit :=
  modifySource source ({ · with commitListeners := [], destroyListeners := [] })

/-- Logs the faults of a source. -/
def reportFaults (source : SourceId) : Action Desk C Unit := do
  let s ← findSource source
  s.faultTexts.forM fun text => log (s.name ++ ": " ++ text)

/-- Starts watching the path of a source. -/
def watchSource (source : SourceId) : Action Desk C Unit := do
  let d ← Action.host
  let path := d.disk.resolve (← findSource source).path
  Action.ofExcept (d.disk.checkWatch path)
  let id := d.watchers.length
  Action.modifyHost fun d => { d with watchers := d.watchers ++ [{ path, source }] }
  note ("watch " ++ path.text)
  replaceWatcher source (some id)

/-- Opens a file. -/
def openFile (name : String) : Action Desk C SourceId := do
  let d ← Action.host
  let path := d.disk.resolve name
  if d.pattern.isTooLong then throw .longPattern
  if !d.pattern.accepts path then
    throw (.view (.sourceOpen
      ("Unsupported file " ++ name ++ ": expected a path matching " ++ d.pattern.text ++ ".") name))
  match d.disk.readText path with
  | .error e => throw (.view (.sourceOpen ("Unable to read " ++ name ++ ": " ++ e.message) name))
  | .ok text =>
    let id ← addSource path.text
    modifySource id (·.update text true)
    reportFaults id
    if d.watching then watchSource id
    log ("Opened " ++ (← findSource id).name ++ ".")
    return id

/-- Gives an open source another text without saving it. -/
def edit (source : SourceId) (text : String) : Action Desk C Unit := do
  let _ ← requireOpen source
  modifySource source (·.update text false)

/-- Writes a text to a file. What a failed write has done to the file stays done. -/
def writeFile (path : String) (text : String) : Action Desk C Unit := do
  let disk := (← Action.host).disk
  let (result, disk) := disk.writeText (disk.resolve path) text
  Action.modifyHost fun d => { d with disk := disk }
  Action.ofExcept result

/-- Saves an open source, with another text if one is given, and announces the commit. -/
def save (deliver : Callback → Action Desk C Unit) (source : SourceId) (text : Option String) :
    Action Desk C Unit := do
  let _ ← requireOpen source
  match text with
  | some text => modifySource source (·.update text false)
  | none => pure ()
  let s ← findSource source
  writeFile s.path s.text
  modifySource source (·.update s.text true)
  reportFaults source
  log ("Saved " ++ s.name ++ ".")
  announce deliver source .commit

/-- Closes a source that is open and announces its end. -/
def close (deliver : Callback → Action Desk C Unit) (source : SourceId) : Action Desk C Unit := do
  let s ← findSource source
  if s.closed then return
  shut source
  log ("Closed " ++ s.name ++ ".")
  announce deliver source .destroy
  forgetListeners source

/-- The text of a pane as it is printed. -/
def paneText (pane : Pane) : String :=
  String.join (("=== " ++ pane.title ++ " ===\n") :: pane.lines.map (· ++ "\n"))

/-- A pane by its number. -/
def findPane (id : ViewId) : Action Desk C Pane := do
  return ((← Action.host).panes[id]?).getD { title := "" }

/-- Changes a pane. -/
def modifyPane (id : ViewId) (f : Pane → Pane) : Action Desk C Unit :=
  Action.modifyHost fun d => { d with panes := d.panes.modify id f }

/-- Prints a pane. -/
def print (id : ViewId) : Action Desk C Unit := do write (paneText (← findPane id))

/-- Makes an empty pane. -/
def createPane (title : String) : Action Desk C ViewId := do
  let id := (← Action.host).panes.length
  Action.modifyHost fun d => { d with panes := d.panes ++ [{ title := title }] }
  return id

/-- The digits of a number, with blanks in front up to the given width. -/
def rightAligned (width n : Nat) : String :=
  let digits := (Nat.repr n).toList
  String.ofList (List.replicate (width - digits.length) ' ' ++ digits)

/-- The rows of a pane: each line behind its index, all indices equally wide. -/
def paneRows (lines : List ViewLine) : List String :=
  let width := (Nat.repr (lines.length - 1)).length
  lines.zipIdx.map fun (line, index) => rightAligned width index ++ " | " ++ line.text

/-- The number of code units of a row of a pane with the given number of lines. -/
def rowLength (count : Nat) (line : ViewLine) : Nat :=
  (Nat.repr (count - 1)).length + 3 + line.length

/-- The number of code units of a pane as it is printed. -/
def printedLength (title : String) (lines : List ViewLine) : Nat :=
  lines.foldl (fun n line => n + (rowLength lines.length line + 1))
    (Text.units (paneText { title := title })).length

/-- Shows lines in a pane and prints it. -/
def setPaneContent (id : ViewId) (lines : List ViewLine) : Action Desk C Unit := do
  modifyPane id ({ · with lines := paneRows lines })
  print id

/-- Ends a pane. -/
def destroyPane (id : ViewId) : Action Desk C Unit := do
  modifyPane id ({ · with disposed := true })
  write ("=== closed: " ++ (← findPane id).title ++ " ===\n")

/-- A character repeated as often as a number says. -/
def repeated (c : Char) (count : Number) : Except Failure String :=
  match count.toCount? with
  | some n => .ok (String.ofList (List.replicate n c))
  | none => .error (.repetition count)

/-- What is printed for a span: its place, its first line, and if asked a row of carets under the
part of the span on that line. -/
def focusReport (name : String) (text : List CodeUnit) (span : Span) (highlight : Bool) :
    Except Failure (List String) := do
  let start := Text.positionOf text span.start
  let stop := Text.positionOf text span.stop
  let line := Text.lineText text start.line
  let gutter := Nat.repr (start.line + 1)
  let place := name ++ ":" ++ gutter ++ ":" ++ (start.character + 1).text
  let shown := gutter ++ " | " ++ Text.ofUnits line
  if highlight then
    let last := if stop.line = start.line then stop.character else (line.length : Number)
    let width := Number.max 1 (last - start.character)
    let margin := String.ofList (List.replicate gutter.length ' ')
    let blanks ← repeated ' ' start.character
    let carets ← repeated '^' width
    return [place, shown, margin ++ " | " ++ blanks ++ carets]
  else return [place, shown]

/-- Selects a span of an open source and prints where it is. -/
def focus (source : SourceId) (span : Span) (highlight : Bool) : Action Desk C Unit := do
  let s ← requireOpen source
  modifySource source ({ · with selection := some span, highlighted := highlight })
  let rows ← Action.ofExcept (focusReport s.name (Text.units s.text) span highlight)
  write (String.join (rows.map (· ++ "\n")))

/-- The desk as the host of sessions. -/
def host : Host Desk C where
  tree source := do Action.ofExcept (← findSource source).currentTree
  subscribe := subscribe
  unsubscribe := unsubscribe
  isAvailable source := do return !(← findSource source).closed
  sourceName source := do return (← findSource source).name
  createView := createPane
  showLines := setPaneContent
  destroyView := destroyPane
  focus := focus
  log := log

end

end Desk

end TreeInspector
