import TreeInspector.Failure
import TreeInspector.Path
import TreeInspector.Text.Utf8

/-!
# The disk

Files hold bytes and stand in directories. An access fails for the state of the disk, or because a
failure has been laid on the path. A file is opened before it is written, which empties it; so a
write that fails after that leaves the file cut off.
-/

set_option autoImplicit false

namespace TreeInspector

/-- The causes of a failed access. -/
inductive AccessError where
  | missing
  | denied
  | isDirectory
  | notDirectory
  | noSpace
  | inputOutput
  | notPermitted
  | readOnly
  | tooManyFiles
  /-- The system watches as many files as it can. -/
  | tooManyWatchers
  deriving DecidableEq, Repr

namespace AccessError

/-- All causes. -/
def all : List AccessError :=
  [.missing, .denied, .isDirectory, .notDirectory, .noSpace, .inputOutput, .notPermitted,
   .readOnly, .tooManyFiles, .tooManyWatchers]

/-- The code of a cause. A system that is out of watchers has the code of a full device. -/
def code : AccessError → String
  | .missing => "ENOENT"
  | .denied => "EACCES"
  | .isDirectory => "EISDIR"
  | .notDirectory => "ENOTDIR"
  | .noSpace => "ENOSPC"
  | .inputOutput => "EIO"
  | .notPermitted => "EPERM"
  | .readOnly => "EROFS"
  | .tooManyFiles => "EMFILE"
  | .tooManyWatchers => "ENOSPC"

/-- The first cause with the given code. -/
def ofCode? (code : String) : Option AccessError := all.find? (·.code = code)

/-- What a cause means. -/
def description : AccessError → String
  | .missing => "no such file or directory"
  | .denied => "permission denied"
  | .isDirectory => "illegal operation on a directory"
  | .notDirectory => "not a directory"
  | .noSpace => "no space left on device"
  | .inputOutput => "i/o error"
  | .notPermitted => "operation not permitted"
  | .readOnly => "read-only file system"
  | .tooManyFiles => "too many open files"
  | .tooManyWatchers => "System limit for number of file watchers reached"

/-- The failure of an action, on a path if one is to be named. -/
def failure (e : AccessError) (action : String) (path : Option Path) : Failure :=
  .system (some e.code) (e.code ++ ": " ++ e.description ++ ", " ++ action ++
    match path with
    | some p => " '" ++ p.text ++ "'"
    | none => "")

end AccessError

/-- The failures laid on a path: each keeps the file from being opened in a way, or watched. -/
structure Obstacles where
  read : Option AccessError := none
  write : Option AccessError := none
  watch : Option AccessError := none
  deriving DecidableEq, Repr

/-- A device that gives out while a file is written: it takes so many bytes and refuses the next. -/
structure Shortage where
  room : Nat
  cause : AccessError
  deriving DecidableEq, Repr

/-- What stands at a path. -/
inductive Entry where
  | file (bytes : List UInt8)
  | directory
  deriving DecidableEq

/-- A disk with its entries and obstacles, and the directory relative paths start from. -/
structure Disk where
  workingDirectory : Path
  entries : List (Path × Entry) := []
  obstacles : List (Path × Obstacles) := []
  /-- The devices that give out, by the paths of their files. -/
  shortages : List (Path × Shortage) := []

namespace Disk

/-- What stands at a path. -/
def entry? (d : Disk) (p : Path) : Option Entry :=
  (d.entries.find? fun e => e.1 = p).map (·.2)

/-- The disk after the entry of a path has been set. -/
def setEntry (p : Path) (e : Entry) (d : Disk) : Disk :=
  { d with entries := (p, e) :: d.entries.filter fun other => other.1 ≠ p }

/-- The disk after the directories above a path have been made where nothing stands. -/
def makeParents (p : Path) (d : Disk) : Disk :=
  p.ancestors.foldl (fun d a => if (d.entry? a).isNone then d.setEntry a .directory else d) d

/-- The disk after a file has been put at a path, with the directories it needs. -/
def putFile (p : Path) (bytes : List UInt8) (d : Disk) : Disk :=
  (d.makeParents p).setEntry p (.file bytes)

/-- The disk after a directory has been made at a path, with those it needs. -/
def putDirectory (p : Path) (d : Disk) : Disk :=
  (d.makeParents p).setEntry p .directory

/-- The disk without the entry of a path. -/
def remove (p : Path) (d : Disk) : Disk :=
  { d with entries := d.entries.filter fun e => e.1 ≠ p }

/-- The failures laid on a path: of several entries for it, only the last one counts. -/
def obstaclesAt (d : Disk) (p : Path) : Obstacles :=
  ((d.obstacles.reverse.find? fun o => o.1 = p).map (·.2)).getD {}

/-- Something above the path, the root apart, is a file. -/
def isBelowFile (d : Disk) (p : Path) : Bool :=
  (p.ancestors.drop 1).any fun a =>
    match d.entry? a with
    | some (.file _) => true
    | _ => false

/-- The path that a name stands for. -/
def resolve (d : Disk) (name : String) : Path := d.workingDirectory.resolve name

/-- The bytes of a file. -/
def readBytes (d : Disk) (p : Path) : Except Failure (List UInt8) :=
  match (d.obstaclesAt p).read with
  | some e => .error (e.failure "open" (some p))
  | none =>
    match d.entry? p with
    | some (.file bytes) => .ok bytes
    | some .directory => .error (AccessError.isDirectory.failure "read" none)
    | none =>
      let e : AccessError := if d.isBelowFile p then .notDirectory else .missing
      .error (e.failure "open" (some p))

/-- The text of a file. -/
def readText (d : Disk) (p : Path) : Except Failure String :=
  (d.readBytes p).map Text.Utf8.decode

/-- The shortage at a path: of several entries for it, only the last one counts. -/
def shortageAt? (d : Disk) (p : Path) : Option Shortage :=
  (d.shortages.reverse.find? fun s => s.1 = p).map (·.2)

/-- The disk after a file has been opened for writing, which makes it or empties it. -/
def openForWriting (d : Disk) (p : Path) : Except Failure Disk :=
  let emptied := d.setEntry p (.file [])
  match (d.obstaclesAt p).write with
  | some e => .error (e.failure "open" (some p))
  | none =>
    match d.entry? p with
    | some (.file _) => .ok emptied
    | some .directory => .error (AccessError.isDirectory.failure "open" (some p))
    | none =>
      if d.isBelowFile p then .error (AccessError.notDirectory.failure "open" (some p))
      else if (d.entry? p.parent).isNone then
        .error (AccessError.missing.failure "open" (some p))
      else .ok emptied

/-- What comes of writing bytes to an opened file, and the disk after it. If the device gives out,
the file holds what it took before; the failure names no path. -/
def fill (d : Disk) (p : Path) (bytes : List UInt8) : Except Failure Unit × Disk :=
  let written := (.ok (), d.setEntry p (.file bytes))
  match d.shortageAt? p with
  | none => written
  | some s =>
    if bytes.length ≤ s.room then written
    else (.error (s.cause.failure "write" none), d.setEntry p (.file (bytes.take s.room)))

/-- What comes of writing a text to a file, and the disk after it. -/
def writeText (d : Disk) (p : Path) (text : String) : Except Failure Unit × Disk :=
  match d.openForWriting p with
  | .error e => (.error e, d)
  | .ok opened => opened.fill p (Text.Utf8.encode text)

/-- Whether a path can be watched. -/
def checkWatch (d : Disk) (p : Path) : Except Failure Unit :=
  match (d.obstaclesAt p).watch with
  | some e => .error (e.failure "watch" (some p))
  | none =>
    if (d.entry? p).isSome then .ok ()
    else .error (AccessError.missing.failure "watch" (some p))

end Disk

end TreeInspector
