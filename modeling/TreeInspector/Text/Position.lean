import TreeInspector.Number.Rounding
import TreeInspector.Text.Units

/-!
# Lines and columns

`positionOf` gives the line and column of an offset, `lineText` the text of a line. Lines are
counted by line feeds; a carriage return before a line feed is part of the line ending, not of the
line.
-/

set_option autoImplicit false

namespace TreeInspector

/-- A place in a text, both parts counted from zero. -/
structure Position where
  line : Nat
  character : Number
  deriving DecidableEq

namespace Text

/-- The offset at which the last line of `before` starts. -/
def lastLineStart (before : List CodeUnit) : Nat :=
  before.length - (before.reverse.takeWhile (· ≠ lineFeed)).length

/-- How many indices are less than the bound. -/
def indicesBelow : Number → Nat
  | .finite r => r.ceil.toNat
  | _ => 0

/-- The place of an offset, which is first moved into the text. -/
def positionOf (text : List CodeUnit) (offset : Number) : Position :=
  let clamped := Number.max 0 (Number.min offset text.length)
  let before := text.take (indicesBelow clamped)
  { line := before.count lineFeed
    character := clamped - (lastLineStart before : Number) }

/-- The lines of a text without their endings. There is always at least one. -/
def lines : List CodeUnit → List (List CodeUnit)
  | [] => [[]]
  | u :: rest =>
    if u = lineFeed then [] :: lines rest
    else if u = carriageReturn ∧ rest.head? = some lineFeed then lines rest
    else
      match lines rest with
      | [] => [[u]]
      | line :: others => (u :: line) :: others

/-- The line with the given index; empty when there is none. -/
def lineText (text : List CodeUnit) (line : Number) : List CodeUnit :=
  match line.toIndex? with
  | some i => (lines text)[i]?.getD []
  | none => []

end Text

end TreeInspector
