import TreeInspector.Desk.Basic
import TreeInspector.Session.Registry
import TreeInspector.Text.Blank

/-!
# Interactive commands

What may be typed while a file is inspected: the number of a line to jump there, an offset to find
its line, and a few words.
-/

set_option autoImplicit false

namespace TreeInspector.CommandLine

/-- The list of commands that help shows. -/
def commandList : List String :=
  ["<n>            jump to the source span of display line n",
   "at <offset>    show the display line covering a source offset",
   "render         print the tree view again",
   "help           show this list",
   "quit           close the tree view and exit"]

/-- A command. -/
inductive Command where
  | nothing
  | quit
  | help
  | render
  | locate (offset : Number)
  | jump (line : Number)
  | unknown (text : String)
  deriving DecidableEq

/-- A decimal digit. -/
def isDigit (c : Char) : Bool := '0' ≤ c && c ≤ '9'

/-- The number that some digits spell. -/
def number? (cs : List Char) : Option Number :=
  if cs.isEmpty ∨ cs.any (fun c => !isDigit c) then none else some (Number.ofDigits cs)

/-- The offset in a command of the form `at offset`. -/
def locateOffset? : List Char → Option Number
  | 'a' :: 't' :: c :: rest =>
    if Text.isBlank c then number? (rest.dropWhile Text.isBlank) else none
  | _ => none

/-- The command that a line holds. Lines are made of whole characters: half of a surrogate pair is
not one, and a line that held such a half would be no command that is known. -/
def Command.ofLine (line : String) : Command :=
  let cs := Text.trim line.toList
  let text := String.ofList cs
  if cs.isEmpty then .nothing
  else if text = "q" ∨ text = "quit" then .quit
  else if text = "help" then .help
  else if text = "render" then .render
  else
    match locateOffset? cs, number? cs with
    | some offset, _ => .locate offset
    | none, some line => .jump line
    | none, none => .unknown text

/-- Whether to read another command. -/
inductive Outcome where
  | continue
  | quit
  deriving DecidableEq, Repr

section

variable {C : Type}

/-- Shows the line that covers an offset. -/
def showCoveringLine (write : String → Action Desk C Unit) (id : SessionId) (offset : Number) :
    Action Desk C Unit := do
  let s ← Session.find id
  if !s.options.navigation then
    write "Spans are not rendered; restart with --navigation to locate offsets."
  else
    match (Session.locate? s.lines offset).bind fun i => s.lines[i]?.map fun l => (i, l) with
    | none => write ("No rendered node covers offset " ++ offset.text ++ ".")
    | some (index, line) => write (Nat.repr index ++ " | " ++ line.text)

/-- Carries out a command for a session; `write` takes the lines that the command itself writes.
Errors of the inspector are shown, all others end the command. -/
def run (write : String → Action Desk C Unit) (id : SessionId) :
    Command → Action Desk C Outcome
  | .nothing => return .continue
  | .quit => do
    if (← Session.find id).state = .active then Registry.disable Desk.host id
    return .quit
  | .help => do
    commandList.forM write
    return .continue
  | .render => do
    match (← Session.find id).view? with
    | some pane => Desk.print pane
    | none => write "The tree view is closed."
    return .continue
  | .locate offset => do
    showCoveringLine write id offset
    return .continue
  | .jump line => do
    match ← (Registry.navigate Desk.host id line).attempt with
    | .ok _ => return .continue
    | .error (.view e) =>
      write ("Error: " ++ e.message)
      return .continue
    | .error e => throw e
  | .unknown text => do
    write ("Unknown command \"" ++ text ++ "\". Type \"help\" for a list of commands.")
    return .continue

end

end TreeInspector.CommandLine
