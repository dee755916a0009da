import TreeInspector.Scenario.Basic

/-!
# Scenarios with files

Scenarios in which the host is a desk of files.
-/

set_option autoImplicit false

namespace TreeInspector.Scenario

/-- The steps of a scenario with files. -/
inductive FileStep where
  | common (step : CommonStep)
  | on (source : Number) (event : Notice) (body : Option FileStep) (failure : Option String)
  | sequence (steps : List FileStep)
  | attempt (step : FileStep)
  | naming (session source : Option Number) (step : FileStep)
  | disk (step : Desk.DiskStep)
  | openFile (path : String)
  | edit (source : Number) (text : String)
  | save (source : Number) (text : Option String)
  | close (source : Number)
  | source (source : Number)
  | tree (source : Number)
  | describe (source : Number)
  | focus (source : Number) (span : Span) (highlight : Bool)
  | pane (title : String) (lines : List (Number × Target)) (reprint : Bool)
  | readBack (path : String)
  | command (session : Number) (text : String) (failWrite : Bool)

/-- An action of a scenario with files. -/
abbrev FileAct (α : Type) := Act Desk FileStep α

namespace Files

/-- What a pane looks like. -/
def showPane (id : ViewId) : FileAct Answer := do return .pane (← Desk.findPane id)

/-- The two hexadecimal digits of a byte. -/
def hexByte (b : UInt8) : List Char :=
  [Nat.digitChar (b.toNat / 16), Nat.digitChar (b.toNat % 16)]

/-- The bytes of a file in hexadecimal digits. -/
def readBack (path : String) : FileAct Answer := do
  let disk := (← Action.host).disk
  match disk.entry? (disk.resolve path) with
  | some (.file bytes) => return .text (some (String.ofList (bytes.flatMap hexByte)))
  | _ => return .text none

/-- Shows lines in a pane of their own, prints it again if asked, and ends it. -/
def showOnce (title : String) (lines : List (Number × Target)) (reprint : Bool) :
    FileAct Answer := do
  let fitting := fun (given : Number × Target) => do
    let line ← ViewLine.ofNumber given.1 given.2
    if ViewLine.greatestLength < Desk.rowLength lines.length line then throw Failure.tooLong
    return line
  let lines ← Action.ofExcept (lines.mapM fitting)
  if ViewLine.greatestLength < Desk.printedLength title lines then throw .tooLong
  let id ← Desk.createPane title
  Desk.setPaneContent id lines
  if reprint then Desk.print id
  Desk.destroyPane id
  let pane ← Desk.findPane id
  return .paneContent pane.lines pane.disposed

/-- Notes a line that a command writes, and fails if writing is to. -/
def noteWrite (failWrite : Bool) (line : String) : FileAct Unit := do
  Desk.note ("write " ++ line)
  if failWrite then throw (.raised "write failed")

/-- Takes a step. Steps that it calls through listeners have one level of depth less. -/
def step : Nat → FileStep → FileAct Answer
  | 0, _ => throw .tooDeep
  | depth + 1, s =>
    let run := fun inner => do
      let _ ← step depth inner
    let host : Host Desk (Roster FileStep) := Desk.host
    let deliver := deliver host Desk.note run
    match s with
    | .common s => commonStep host showPane s
    | .on source event body failure => listen host source event body failure
    | .sequence steps => do
      steps.forM run
      return .nothing
    | .attempt inner => tried Desk.note (run inner)
    | .naming session source inner => do
      requireNamed session source
      step depth inner
    | .disk s => do
      Desk.diskStep deliver s
      return .nothing
    | .openFile path => do
      let id ← Desk.openFile path
      let n := (← Action.client).sources.length
      Action.modifyClient fun r => { r with sources := r.sources ++ [id] }
      return .number (some n)
    | .edit source text => do
      Desk.edit (← sourceAt source) text
      return .nothing
    | .save source text => do
      Desk.save deliver (← sourceAt source) text
      return .nothing
    | .close source => do
      Desk.close deliver (← sourceAt source)
      return .nothing
    | .source source => do return .source (← Desk.findSource (← sourceAt source))
    | .tree source => do
      let tree ← host.tree (← sourceAt source)
      return .texts ((tree.render true).map (·.text))
    | .describe source => do
      let id ← sourceAt source
      return .description (← host.sourceName id) (← host.isAvailable id)
    | .focus source span highlight => do
      host.focus (← sourceAt source) span highlight
      return .nothing
    | .pane title lines reprint => showOnce title lines reprint
    | .readBack path => readBack path
    | .command session text failWrite => do
      let id ← sessionAt session
      return .command (← CommandLine.run (noteWrite failWrite) id (CommandLine.Command.ofLine text))

/-- Takes a step of the scenario and reports on it. -/
def reportedStep (s : FileStep) (w : World Desk (Roster FileStep)) :
    Report SourceFile × World Desk (Roster FileStep) :=
  let fresh := { w.host.output with written := "" }
  let w := { w with host := { w.host with messages := [], trace := [], output := fresh } }
  let (answer, w) := (step greatestDepth s).outcome w
  ({ answer := answer
     log := w.host.messages
     trace := w.host.trace
     sessions := sessionReports w
     active := Registry.count w
     sources := w.client.sources.filterMap fun id => w.host.sources[id]?
     output := w.host.output.written }, w)

/-- Plays a scenario on a desk. -/
def play (desk : Desk) (steps : List FileStep) : List (Report SourceFile) :=
  reports reportedStep { host := desk, client := {} } steps

end Files

end TreeInspector.Scenario
