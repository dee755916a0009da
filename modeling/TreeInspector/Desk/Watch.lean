import TreeInspector.Desk.Basic

/-!
# Changes made by others

What a watcher reports about the file of a source: another text on disk is taken over and
committed, a file that is gone closes its source.
-/

set_option autoImplicit false

namespace TreeInspector.Desk

section

variable {C : Type}

/-- Takes over the text on disk if it is not the one last saved. -/
def reload (deliver : Callback → Action Desk C Unit) (source : SourceId) : Action Desk C Unit := do
  let s ← findSource source
  let disk := (← Action.host).disk
  match disk.readText (disk.resolve s.path) with
  | .error e =>
    if e.isMissingFile then close deliver source
    else log ("Unable to reload " ++ s.name ++ ": " ++ e.message)
  | .ok text =>
    if text = s.saved then return
    modifySource source (·.update text true)
    reportFaults source
    log (s.name ++ " changed on disk.")
    announce deliver source .commit

/-- Takes in that the file of a source was changed, or renamed. A rename ends the watch, so the
path is watched anew; if that fails the source is closed. -/
def fileEvent (deliver : Callback → Action Desk C Unit) (source : SourceId) (renamed : Bool) :
    Action Desk C Unit := do
  let s ← findSource source
  if s.closed then return
  if renamed then
    match ← (watchSource source).attempt with
    | .ok _ => reload deliver source
    | .error e =>
      log ("Stopped watching " ++ s.name ++ ": " ++ e.message)
      close deliver source
  else reload deliver source

/-- Takes in that a watcher failed, which closes its source. -/
def watcherFailed (deliver : Callback → Action Desk C Unit) (source : SourceId) (message : String) :
    Action Desk C Unit := do
  log ("Watcher for " ++ (← findSource source).name ++ " failed: " ++ message)
  close deliver source

/-- What others do to the disk, and what watchers report of it. A stale report also comes from
watchers that have been stopped. -/
inductive DiskStep where
  | write (path : String) (bytes : List UInt8)
  | remove (path : String)
  | setObstacles (obstacles : List (String × Obstacles))
  | setShortages (shortages : List (String × Shortage))
  | fileEvent (path : String) (renamed : Bool) (stale : Bool)
  | watchError (path : String) (message : String) (stale : Bool)

/-- Lets the watchers of a path report, in the order in which they were made; those stopped by then
do not, unless the report is stale. -/
def fromWatchers (path : String) (stale : Bool) (report : SourceId → Action Desk C Unit) :
    Action Desk C Unit := do
  let d ← Action.host
  let path := d.disk.resolve path
  (List.range d.watchers.length).forM fun id => do
    match (← Action.host).watchers[id]? with
    | some w => if w.path = path && (stale || w.isOpen) then report w.source
    | none => return

/-- Carries out a step of others. -/
def diskStep (deliver : Callback → Action Desk C Unit) : DiskStep → Action Desk C Unit
  | .write path bytes =>
    Action.modifyHost fun d => { d with disk := d.disk.putFile (d.disk.resolve path) bytes }
  | .remove path =>
    Action.modifyHost fun d => { d with disk := d.disk.remove (d.disk.resolve path) }
  | .setObstacles obstacles =>
    Action.modifyHost fun d =>
      { d with
        disk := { d.disk with
          obstacles := obstacles.map fun (path, o) => (d.disk.resolve path, o) } }
  | .setShortages shortages =>
    Action.modifyHost fun d =>
      { d with
        disk := { d.disk with
          shortages := shortages.map fun (path, s) => (d.disk.resolve path, s) } }
  | .fileEvent path renamed stale => fromWatchers path stale (fileEvent deliver · renamed)
  | .watchError path message stale => fromWatchers path stale (watcherFailed deliver · message)

end

end TreeInspector.Desk
