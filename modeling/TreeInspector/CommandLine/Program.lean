import TreeInspector.CommandLine.Arguments
import TreeInspector.CommandLine.Interactive
import TreeInspector.Config.Load
import TreeInspector.Desk.Watch

/-!
# The program

One run of the command line: the arguments are read, the file is opened and shown, and commands are
carried out until the input ends, the user quits or the file is gone. A signal that nobody handles
kills the process in the midst of that.
-/

set_option autoImplicit false

namespace TreeInspector.CommandLine

/-- The run of the program, once a file is shown. -/
structure Run where
  source : SourceId
  session : SessionId
  /-- The subscription through which the program learns that the file is gone. -/
  farewell : SubscriptionId
  /-- No more lines are read. -/
  readerClosed : Bool := false
  code : Nat := 0
  /-- The exit code, once the program has finished. -/
  finished : Option Nat := none
  /-- The process has been killed. -/
  killed : Bool := false

/-- The world of a program: before a file is shown there is no run. -/
abbrev ProgramWorld := World Desk (Option Run)

/-- An action of the program. -/
abbrev ProgramAct (α : Type) := Action Desk (Option Run) α

/-- The text that help prints. -/
def helpText : String :=
  usage ++ "\n\nCommands:\n" ++ String.join (commandList.map fun line => "  " ++ line ++ "\n")

/-- Writes a line to standard output. -/
def writeLine (line : String) : ProgramAct Unit := Desk.write (line ++ "\n")

/-- Writes a line to standard error. -/
def writeError (line : String) : ProgramAct Unit :=
  Action.modifyHost fun d => { d with messages := d.messages ++ [line] }

/-- Changes the run. -/
def modifyRun (f : Run → Run) : ProgramAct Unit := Action.modifyClient (·.map f)

/-- Announces events before the program listens itself. -/
def deliverToSessions : Callback → ProgramAct Unit
  | .session id event => Session.notify Desk.host id event
  | .client _ => pure ()

/-- Says that the file is gone. -/
def sayFarewell (r : Run) : ProgramAct Unit := do
  let title ← Session.title Desk.host r.session
  writeLine (title ++ " is no longer available.")

/-- Announces events once the reader is closed, when nothing is left to be closed. -/
def deliverAfterClosing : Callback → ProgramAct Unit
  | .session id event => Session.notify Desk.host id event
  | .client _ => do
    match ← Action.client with
    | some r => sayFarewell r
    | none => pure ()

/-- Stops reading lines, which ends the program: all views and the file are closed. A second time
does nothing. -/
def closeReader : ProgramAct Unit := do
  match ← Action.client with
  | none => return
  | some r =>
    if r.readerClosed then return
    modifyRun ({ · with readerClosed := true })
    Desk.unsubscribe r.farewell
    Registry.dispose Desk.host
    Desk.close deliverAfterClosing r.source
    modifyRun fun r => { r with finished := some r.code }

/-- Announces events while lines are read; the end of the file closes the reader. -/
def deliver : Callback → ProgramAct Unit
  | .session id event => Session.notify Desk.host id event
  | .client _ => do
    match ← Action.client with
    | some r =>
      sayFarewell r
      closeReader
    | none => pure ()

/-- Carries out the command of a line, whether or not the reader is closed. An error that is not of
the inspector ends the program. -/
def handleLine (line : String) : ProgramAct Unit := do
  match ← Action.client with
  | none => return
  | some r =>
    let obey : ProgramAct Unit := do
      match ← run writeLine r.session (Command.ofLine line) with
      | .continue => return
      | .quit => closeReader
    match ← obey.attempt with
    | .ok _ => return
    | .error e =>
      writeError ("Error: " ++ e.message)
      modifyRun ({ · with code := 1 })
      closeReader

/-- Loads the configuration, opens the file and shows it. If showing it fails the file is closed
again. -/
def startInspection (a : Arguments) : ProgramAct (SourceId × SessionId) := do
  let disk := (← Action.host).disk
  let config ← Action.ofExcept (Config.load disk { file := a.config, overrides := a.settings })
  match config.source with
  | some path => Desk.log ("Loaded configuration from " ++ path.text ++ ".")
  | none => pure ()
  Action.modifyHost fun d => { d with watching := a.watch }
  let source ← Desk.openFile a.file
  match ← (Registry.enable Desk.host source (.ofOptions config.options)).attempt with
  | .ok session => return (source, session)
  | .error e =>
    Desk.close deliverToSessions source
    throw e

/-- What happens while the program runs. -/
inductive Event where
  /-- Input is read, and some lines are complete with it. -/
  | lines (texts : List String)
  /-- The reader says that it was interrupted. Only a reader that is made for a terminal does so, and
  the one of the program is not. -/
  | interrupt
  /-- The process is sent the interrupt signal, which nothing in it handles. -/
  | signal
  | disk (step : Desk.DiskStep)

/-- A line that is read alone. -/
def Event.line (text : String) : Event := .lines [text]

/-- Takes in an event; once the program has finished or is killed it takes in none. Of lines that
are read together all are handed on, even if one of them closes the reader. -/
def handleEvent (e : Event) : ProgramAct Unit := do
  match ← Action.client with
  | none => return
  | some r =>
    if r.killed || r.finished.isSome then return
    match e with
    | .lines texts =>
      if r.readerClosed then return
      texts.forM handleLine
    | .interrupt => closeReader
    | .signal => modifyRun ({ · with killed := true })
    | .disk step => Desk.diskStep deliver step

/-- How a run ends: with an exit code, by a failure of the reader of lines or of the output, or
because the process is killed. -/
inductive Ending where
  | exit (code : Nat)
  | failed (reason : Failure)
  | killed
  deriving DecidableEq

/-- Reads the arguments and shows the file; says how the program has ended unless it goes on.
`reader` is the failure of the reader of lines, if it cannot be made. -/
def start (arguments : List String) (reader : Option Failure) : ProgramAct (Option Ending) := do
  match Request.ofArguments arguments with
  | .error e =>
    writeError ("Error: " ++ e.message)
    return some (.exit 1)
  | .ok .help =>
    match ← (Desk.write helpText).attempt with
    | .ok _ => return some (.exit 0)
    | .error e => return some (.failed e)
  | .ok (.inspect a) =>
    match ← (startInspection a).attempt with
    | .error e =>
      writeError ("Error: " ++ e.message)
      return some (.exit 1)
    | .ok (source, session) =>
      match reader with
      | some e => return some (.failed e)
      | none =>
        let farewell ← Desk.subscribe source .destroy (.client 0)
        Action.modifyClient fun _ => some { source, session, farewell }
        return none

/-- Ends the program because its input has ended, unless it has been killed. -/
def endOfInput : ProgramAct Ending := do
  if (← Action.client).any (·.killed) then return .killed
  closeReader
  let r ← Action.client
  return .exit ((r.map fun r => r.finished.getD r.code).getD 0)

/-- Runs the program on its arguments and events. Failures that escape an event are those of the
action itself. -/
def program (arguments : List String) (reader : Option Failure) (events : List Event) :
    ProgramAct Ending := do
  match ← start arguments reader with
  | some ending => return ending
  | none =>
    events.forM handleEvent
    endOfInput

/-- What can be seen of a run that has ended. -/
structure Summary where
  exit : Nat
  output : String
  errors : String
  watching : Nat

/-- The exit code that is reported of a process that the interrupt signal has killed, which gave none
itself. -/
def killedCode : Nat := 130

/-- What can be seen of a run with the given exit code. -/
def summary (code : Nat) (d : Desk) : Summary :=
  { exit := code
    output := d.output.written
    errors := String.join (d.messages.map (· ++ "\n"))
    watching := (d.watchers.filter (·.isOpen)).length }

/-- The desk of a program: its messages carry the time of the clock. -/
def programDesk (disk : Disk) (clock : Number) (failingWrite : Option Nat) : Desk :=
  { disk := disk, journal := .stamped clock, output := { failing := failingWrite } }

/-- Runs the program. A failure of the reader of lines or of the output is shown and gives exit
code 1 if the program stands alone; otherwise it is the caller's. -/
def runProgram (desk : Desk) (standalone : Bool) (arguments : List String)
    (reader : Option Failure) (events : List Event) : Except Failure Summary :=
  match program arguments reader events { host := desk, client := none } with
  | .ok (.exit code) w => .ok (summary code w.host)
  | .ok (.failed e) w =>
    if standalone then .ok (summary 1 { w.host with messages := w.host.messages ++ [e.message] })
    else .error e
  | .ok .killed w => .ok (summary killedCode w.host)
  | .error e _ => .error e

end TreeInspector.CommandLine
