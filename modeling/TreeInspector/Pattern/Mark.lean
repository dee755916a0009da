import TreeInspector.Text.Units

/-!
# Marks

A pattern with groups is a list of marks: units that have their special meaning or have lost it.
-/

set_option autoImplicit false

namespace TreeInspector.Pattern

/-- A unit of a pattern; a quoted one has lost its special meaning. -/
structure Mark where
  unit : CodeUnit
  quoted : Bool
  deriving DecidableEq

namespace Mark

/-- A unit that keeps its special meaning. -/
def plain (c : Char) : Mark := ⟨Text.unit c, false⟩

/-- How much a mark counts towards the size of what a pattern stands for. A quoted unit counts as
the long word by which it is set apart. -/
def weight (m : Mark) : Nat :=
  if !m.quoted then 1
  else if m.unit = Text.unit '\x7b' then 24
  else if m.unit = Text.unit '.' then 26
  else 25

/-- The marks of a pattern: a backslash quotes another backslash and what is special in a group. -/
def ofUnits : List CodeUnit → List Mark
  | [] => []
  | [u] => [⟨u, false⟩]
  | u :: v :: rest =>
    if u = Text.unit '\\' ∧ v ∈ "\\\x7b\x7d,.".toList.map Text.unit then
      ⟨v, true⟩ :: ofUnits rest
    else ⟨u, false⟩ :: ofUnits (v :: rest)

end Mark

/-- The brace that opens a group. -/
def openBrace : Mark := .plain '\x7b'

/-- The brace that closes a group. -/
def closeBrace : Mark := .plain '\x7d'

/-- The comma between the members of a group. -/
def comma : Mark := .plain ','

end TreeInspector.Pattern
