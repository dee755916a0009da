import TreeInspector.Text.Case.Folding

/-!
# Pieces of a pattern

The pattern of a segment is a list of pieces: single units, question marks, stars and bracket
expressions. Units are compared by their capitals.
-/

set_option autoImplicit false

namespace TreeInspector.Pattern

open Text (unit)

/-- A part of a pattern for one segment. -/
inductive Piece where
  | exactly (u : CodeUnit)
  | anyUnit
  | anyRun
  | oneOf (negated : Bool) (ranges : List (CodeUnit × CodeUnit))
  | nothing

/-- A unit is of a class if it or the same letter in another case is in one of the ranges. -/
def inRanges (u : CodeUnit) (ranges : List (CodeUnit × CodeUnit)) : Bool :=
  (Text.caseVariants u).any fun v => ranges.any fun (low, high) => low ≤ v && v ≤ high

/-- All ends of a list, the list itself first and the empty one last. -/
def suffixes {α : Type} : List α → List (List α)
  | [] => [[]]
  | a :: rest => (a :: rest) :: suffixes rest

/-- What is left of the units after a piece for just one of them. -/
def afterUnit? (piece : Piece) : List CodeUnit → Option (List CodeUnit)
  | [] => none
  | u :: rest =>
    let fits :=
      match piece with
      | .exactly v => Text.sameLetter u v
      | .anyUnit => true
      | .oneOf negated ranges => negated != inRanges u ranges
      | .anyRun | .nothing => false
    if fits then some rest else none

/-- What may be left of the units after a piece, given what may be left before it. The possible
rests are ends of one list, the longest first; a run can leave every end of the longest. -/
def afterPiece (rests : List (List CodeUnit)) : Piece → List (List CodeUnit)
  | .anyRun =>
    match rests with
    | [] => []
    | longest :: _ => suffixes longest
  | piece => rests.filterMap (afterUnit? piece)

/-- The pieces match the units of a segment. -/
def matchPieces (pieces : List Piece) (us : List CodeUnit) : Bool :=
  (pieces.foldl afterPiece [us]).contains []

/-- What a bracket expression lists, while it is read. -/
structure ClassReader where
  ranges : List (CodeUnit × CodeUnit) := []
  lower : Option CodeUnit := none
  started : Bool := false
  escaping : Bool := false

/-- Reads a bracket expression after its bracket and negation sign: its ranges and what follows it,
if it is closed. `skip` units have been read already. -/
def readClass : Nat → ClassReader → List CodeUnit →
    Option (List (CodeUnit × CodeUnit) × List CodeUnit)
  | _, _, [] => none
  | skip + 1, r, _ :: rest => readClass skip r rest
  | 0, r, u :: rest =>
    if u = unit ']' ∧ r.started ∧ !r.escaping then some (r.ranges.reverse, rest)
    else if u = unit '\\' ∧ !r.escaping then
      readClass 0 { r with started := true, escaping := true } rest
    else
      let r := { r with started := true, escaping := false }
      match r.lower with
      | some low =>
        let ranges := if low ≤ u then (low, u) :: r.ranges else r.ranges
        readClass 0 { r with ranges := ranges, lower := none } rest
      | none =>
        match rest with
        | d :: e :: _ =>
          if d = unit '-' ∧ e = unit ']' then
            readClass 1 { r with ranges := (d, d) :: (u, u) :: r.ranges } rest
          else if d = unit '-' then readClass 1 { r with lower := some u } rest
          else readClass 0 { r with ranges := (u, u) :: r.ranges } rest
        | [d] =>
          if d = unit '-' then readClass 1 { r with lower := some u } rest
          else readClass 0 { r with ranges := (u, u) :: r.ranges } rest
        | [] => readClass 0 { r with ranges := (u, u) :: r.ranges } rest

/-- The piece of a bracket expression. One unit stands for itself. A caret listed first negates the
others, as one before the list does, and leaves of a range that it starts the hyphen and the end. -/
def classPiece (negated : Bool) (ranges : List (CodeUnit × CodeUnit)) : Piece :=
  let caret := unit '^'
  let hyphen := unit '-'
  match ranges with
  | [] => .nothing
  | (low, high) :: more =>
    if negated then .oneOf true ranges
    else if more.isEmpty ∧ low = high then .exactly low
    else if low ≠ caret then .oneOf false ranges
    else if high = caret then .oneOf true more
    else .oneOf true ((hyphen, hyphen) :: (high, high) :: more)

/-- A bracket expression after its opening bracket: its piece and what follows, if it is closed.
With an expression that lists nothing the pattern ends. -/
def readBracket (us : List CodeUnit) : Option (Piece × List CodeUnit) :=
  let negated := us.head? = some (unit '!') ∨ us.head? = some (unit '^')
  (readClass 0 {} (if negated then us.drop 1 else us)).map fun (ranges, rest) =>
    (classPiece negated ranges, if ranges.isEmpty then [] else rest)

/-- The pieces of a segment's pattern, with nothing in the place of a quoted bar; `skip` units
belong to the piece read last. Several stars in a row count as one. -/
def readPieces : Nat → List CodeUnit → List (Option Piece)
  | _, [] => []
  | skip + 1, _ :: rest => readPieces skip rest
  | 0, u :: rest =>
    if u = unit '\\' then
      match rest with
      | [] => [some (.exactly u)]
      | v :: _ => (if v = unit '|' then none else some (.exactly v)) :: readPieces 1 rest
    else if u = unit '*' then
      if rest.head? = some u then readPieces 0 rest else some .anyRun :: readPieces 0 rest
    else if u = unit '?' then some .anyUnit :: readPieces 0 rest
    else if u = unit '[' then
      match readBracket rest with
      | some (piece, after) => some piece :: readPieces (rest.length - after.length) rest
      | none => some (.exactly u) :: readPieces 0 rest
    else some (.exactly u) :: readPieces 0 rest

end TreeInspector.Pattern
