import TreeInspector.Text.Units
import TreeInspector.Tree.Search

/-!
# Display lines

A tree is shown as one line per node, in pre-order, indented by depth. With navigation each line
carries the span it can jump to.
-/

set_option autoImplicit false

namespace TreeInspector

/-- What a line says and where it leads, if anywhere. -/
structure Target where
  label : String
  span : Option Span
  deriving DecidableEq

/-- A line of a view. -/
structure ViewLine extends Target where
  indent : Nat
  deriving DecidableEq

namespace ViewLine

/-- The line of a node at the given depth. -/
def ofNode (navigation : Bool) (node : Node) (depth : Nat) : ViewLine :=
  { label := node.label
    span := if navigation then some node.span else none
    indent := depth }

/-- The greatest number of code units that a text may have. -/
def greatestLength : Nat := Nat.pow 2 29 - 24

/-- What is written of a line behind its indent: the label and the span. -/
def caption (line : ViewLine) : String :=
  line.label ++ ":" ++
    match line.span with
    | some span => " " ++ span.text
    | none => ""

/-- The written form of a line: two blanks for each level and the caption. -/
def text (line : ViewLine) : String :=
  String.ofList (List.replicate (2 * line.indent) ' ') ++ line.caption

/-- The number of code units of the written form. -/
def length (line : ViewLine) : Nat := 2 * line.indent + (Text.units line.caption).length

/-- The line with an indent given as a number, which must be a count with which the written form
is not too long for a text. -/
def ofNumber (indent : Number) (target : Target) : Except Failure ViewLine :=
  match indent.toCount? with
  | some count =>
    let line : ViewLine := { toTarget := target, indent := count }
    if line.length ≤ greatestLength then .ok line else .error .tooLong
  | none => .error (.repetition indent)

end ViewLine

/-- The lines of a tree. -/
def ParseTree.render (navigation : Bool) (root : ParseTree) : List ViewLine :=
  (root.listing.map fun (node, depth) => ViewLine.ofNode navigation node depth).toList

end TreeInspector
