import TreeInspector.Pattern.Piece
import TreeInspector.Text.Case.Lower

/-!
# Patterns of a segment

Most patterns of a segment are choices between lists of pieces. One that is just an ending is
compared with the end of the segment in small letters.
-/

set_option autoImplicit false

namespace TreeInspector.Pattern

open Text (unit)

/-- A pattern for one segment. -/
inductive Segment where
  /-- The segment of just these units. -/
  | literal (units : List CodeUnit)
  /-- The segments with an ending, given in small letters. -/
  | ending (last : List Char)
  /-- The segments of a length with an ending, given in small letters. -/
  | sized (length : Nat) (last : List Char)
  /-- The segments that the pieces of one of the choices match. -/
  | choice (choices : List (List Piece))

/-- The segment ends with the given characters, but for case. -/
def hasEnding (us : List CodeUnit) (last : List Char) : Bool :=
  last.isSuffixOf (Text.lower (Text.charsOfUnits us))

/-- The pattern matches one segment. -/
def Segment.covers (us : List CodeUnit) : Segment → Bool
  | .literal vs => us == vs
  | .ending last => hasEnding us last
  | .sized length last => us.length == length && hasEnding us last
  | .choice choices => choices.any fun pieces => matchPieces pieces us

/-- The units that the pieces stand for, if each stands for one. -/
def literal? (pieces : List (Option Piece)) : Option (List CodeUnit) :=
  pieces.mapM fun
    | some (.exactly u) => some u
    | none => some (unit '|')
    | _ => none

/-- The choices between quoted bars. Each but the first may start anywhere in the segment, and each
but the last may end anywhere. -/
def choices : List (Option Piece) → List (List Piece)
  | [] => [[]]
  | none :: rest =>
    match choices rest with
    | [] => [[.anyRun], [.anyRun]]
    | next :: others => [.anyRun] :: (.anyRun :: next) :: others
  | some piece :: rest =>
    match choices rest with
    | [] => [[piece]]
    | next :: others => (piece :: next) :: others

/-- An ending that is compared as it is written, its backslashes included. -/
def isPlainEnding (us : List CodeUnit) : Bool :=
  us.all fun u => u ∉ ("+@!?*[(".toList.map unit)

/-- The pattern of one segment, or nothing for any number of segments. A run of stars or of question
marks before a plain ending is read as such; stars alone match every segment but the empty one. A
pattern without special units and without letters that have a case is compared as it stands. -/
def segment (us : List CodeUnit) : Option Segment :=
  let star := unit '*'
  let query := unit '?'
  let afterStars := us.dropWhile (· = star)
  let afterQueries := us.dropWhile (· = query)
  let small := fun last => Text.lower (Text.charsOfUnits last)
  if us = [star, star] then none
  else if us.head? = some star ∧ isPlainEnding afterStars then
    some (if afterStars.isEmpty then .choice [[.anyUnit, .anyRun]] else .ending (small afterStars))
  else if us.head? = some query ∧ isPlainEnding afterQueries then
    some (.sized us.length (small afterQueries))
  else
    let pieces := readPieces 0 us
    match literal? pieces with
    | some vs =>
      some (if (Text.charsOfUnits us).any Text.hasCase then .choice (choices pieces)
        else .literal vs)
    | none => some (.choice (choices pieces))

end TreeInspector.Pattern
