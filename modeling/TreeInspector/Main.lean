import Std.Time.DateTime.Timestamp
import TreeInspector.CommandLine.Program

/-!
# The command line

Runs the program on the real disk, clock and standard streams. The files the program needs are read
before it starts; before each line of input the inspected file is read again, and a difference is
reported to the program as a change made by others.
-/

set_option autoImplicit false

namespace TreeInspector

open CommandLine (ProgramWorld ProgramAct Event handleEvent endOfInput)

/-- The cause that stands for an error of the operating system. -/
def accessErrorOf : IO.Error → AccessError
  | .noFileOrDirectory .. => .missing
  | .permissionDenied .. => .denied
  | .inappropriateType .. => .isDirectory
  | .resourceExhausted .. => .noSpace
  | _ => .inputOutput

/-- The disk with what the real one has at a path. -/
def refreshPath (disk : Disk) (path : Path) : IO Disk := do
  let cleared := { disk.remove path with obstacles := disk.obstacles.filter fun o => o.1 ≠ path }
  match ← (IO.FS.readBinFile path.text).toBaseIO with
  | .ok bytes => return cleared.putFile path bytes.toList
  | .error e =>
    match accessErrorOf e with
    | .missing => return cleared
    | cause =>
      let obstacle := (path, { read := some cause : Obstacles })
      return { cleared with obstacles := obstacle :: cleared.obstacles }

/-- The reading of the real clock. -/
def readClock : IO Number := do
  let now ← Std.Time.Timestamp.now
  return .finite now.toMillisecondsSinceUnixEpoch.toInt

/-- Takes an action of the program at the present time and prints what it wrote. -/
def takeAction {α : Type} (action : ProgramAct α) (w : ProgramWorld) :
    IO (Except Failure α × ProgramWorld) := do
  let clock ← readClock
  let (result, w) := action.outcome { w with host := { w.host with journal := .stamped clock } }
  (← IO.getStdout).putStr w.host.output.written
  (← IO.getStdout).flush
  (← IO.getStderr).putStr (String.join (w.host.messages.map (· ++ "\n")))
  let output := { w.host.output with written := "" }
  return (result, { w with host := { w.host with output := output, messages := [] } })

/-- The event of a change made by others to the inspected file, if there is one. -/
def notice? (w : ProgramWorld) : IO (Option Event × ProgramWorld) := do
  match w.client.bind fun r => w.host.sources[r.source]? with
  | none => return (none, w)
  | some source =>
    let path := w.host.disk.resolve source.path
    let disk ← refreshPath w.host.disk path
    let changed := disk.entry? path ≠ w.host.disk.entry? path
    let event := Event.disk (.fileEvent path.text false false)
    return (if changed then some event else none, { w with host := { w.host with disk := disk } })

/-- The exit code of a failure that nothing handled, which is shown. -/
def reportFailure (e : Failure) : IO UInt32 := do
  (← IO.getStderr).putStrLn e.message
  return 1

/-- Reads and handles lines until the program has finished or the input ends. -/
partial def readLines (w : ProgramWorld) : IO UInt32 := do
  let finished := w.client.bind (·.finished)
  match finished with
  | some code => return code.toUInt32
  | none =>
    let line ← (← IO.getStdin).getLine
    let (event, w) ← notice? w
    let noticed := event.toList
    if line.isEmpty then
      let (result, _) ← takeAction (do noticed.forM handleEvent; endOfInput) w
      match result with
      | .ok (.exit code) => return code.toUInt32
      | .ok (.failed e) => reportFailure e
      | .ok .killed => return CommandLine.killedCode.toUInt32
      | .error e => reportFailure e
    else
      let isEnding := fun c : Char => c = '\n' || c = '\r'
      let text := String.ofList (line.toList.reverse.dropWhile isEnding).reverse
      let (result, w) ← takeAction ((noticed ++ [Event.line text]).forM handleEvent) w
      match result with
      | .ok _ => readLines w
      | .error e => reportFailure e

/-- The real disk as far as a call of the program concerns it. -/
def surveyDisk (arguments : List String) : IO Disk := do
  let base : Disk := { workingDirectory := Path.resolve ⟨[]⟩ (toString (← IO.currentDir)) }
  match CommandLine.Request.ofArguments arguments with
  | .ok (.inspect a) =>
    let config : Config.Request := { file := a.config }
    let disk ← refreshPath base (config.path base)
    refreshPath disk (disk.resolve a.file)
  | _ => return base

end TreeInspector

/-- Runs the program. -/
def main (arguments : List String) : IO UInt32 := do
  let disk ← TreeInspector.surveyDisk arguments
  let desk := TreeInspector.CommandLine.programDesk disk 0 none
  let (result, w) ← TreeInspector.takeAction (TreeInspector.CommandLine.start arguments none)
    { host := desk, client := none }
  match result with
  | .ok none => TreeInspector.readLines w
  | .ok (some (.exit code)) => return code.toUInt32
  | .ok (some (.failed e)) => TreeInspector.reportFailure e
  | .ok (some .killed) => return TreeInspector.CommandLine.killedCode.toUInt32
  | .error e => TreeInspector.reportFailure e
