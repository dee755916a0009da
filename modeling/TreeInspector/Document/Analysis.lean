import TreeInspector.Document.Element
import TreeInspector.Tree.ViewLine

/-!
# Analysis of a text

The faults of a text and its parse tree. A text without any value has a tree of one node that
covers it all.
-/

set_option autoImplicit false

namespace TreeInspector.Document

/-- An element as a node of a parse tree. -/
def Element.toNode (e : Element) : Node := ⟨e.kind.label, .between e.start e.stop⟩

/-- The node of a text without any value. -/
def emptyNode (length : Nat) : Node := ⟨"document", .between 0 length⟩

/-- The faults of a text and its parse tree. -/
structure Analysis where
  faults : List Fault
  root : ParseTree

/-- Analyses a text given by its units. -/
def analyzeUnits (options : Dialect) (text : List CodeUnit) : Analysis :=
  let parsed := parse options text
  { faults := parsed.faults
    root :=
      match parsed.root with
      | some root => root.map Element.toNode
      | none => .node (emptyNode text.length) [] }

/-- Analyses a text. -/
def analyze (options : Dialect) (text : String) : Analysis :=
  analyzeUnits options (Text.units text)

end TreeInspector.Document
