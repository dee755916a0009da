import TreeInspector.Failure
import TreeInspector.Timestamp

/-!
# Logs and outputs

A journal takes messages; a stamped one puts the time of the clock in front of each. A sink takes
writes, of which one may be set to fail.
-/

set_option autoImplicit false

namespace TreeInspector

/-- What a journal does with a message. -/
inductive JournalKind where
  /-- It is dropped. -/
  | silent
  /-- It is kept as it is. -/
  | plain
  /-- It is kept with the time of the clock. -/
  | stamped (clock : Number)

/-- The entry that a stamped journal makes of a message. -/
def stampedEntry (clock : Number) (message : String) : Except Failure String :=
  match Timestamp.text? clock with
  | some time => .ok ("[" ++ time ++ "] " ++ message)
  | none => .error .clock

/-- The entry that a journal makes of a message, if it makes one. -/
def JournalKind.entry? (kind : JournalKind) (message : String) : Except Failure (Option String) :=
  match kind with
  | .silent => .ok none
  | .plain => .ok (some message)
  | .stamped clock => (stampedEntry clock message).map some

/-- A place that text is written to: what was written, how often, and which write fails. -/
structure Sink where
  written : String := ""
  writes : Nat := 0
  failing : Option Nat := none

/-- The sink after a write, which is counted even if it fails. -/
def Sink.write (text : String) (s : Sink) : Except Failure Unit × Sink :=
  let s := { s with writes := s.writes + 1 }
  if s.failing = some s.writes then (.error (.raised "write EPIPE"), s)
  else (.ok (), { s with written := s.written ++ text })

end TreeInspector
