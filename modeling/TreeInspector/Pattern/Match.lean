import TreeInspector.Path
import TreeInspector.Pattern.Braces
import TreeInspector.Pattern.Segment

/-!
# File name patterns

A pattern without a slash is matched against the last segment of a path, one with a slash against
the whole path, segment by segment. Letters match in either case.
-/

set_option autoImplicit false

namespace TreeInspector

namespace Pattern

open Text (unit)

/-- The patterns match the segments one by one. An empty segment at the end does not count. -/
def matchEach : List Segment → List (List CodeUnit) → Bool
  | [], rest => rest.isEmpty || rest == [[]]
  | p :: ps, s :: rest => p.covers s && matchEach ps rest
  | _ :: _, [] => false

/-- The sections of a pattern between the places for any number of segments, which are given as
nothing. -/
def sections : List (Option Segment) → List (List Segment)
  | [] => [[]]
  | none :: rest => [] :: sections rest
  | some p :: rest =>
    match sections rest with
    | [] => [[p]]
    | first :: others => (p :: first) :: others

/-- How many segments must follow each section besides the tail: as many as there are in the
sections of the same number at the front. -/
def roomBehind (middle : List (List Segment)) : List Nat :=
  (List.range middle.length).reverse.map fun n => (middle.take n).flatten.length

/-- The sections match in order, with any number of segments around each; something is left behind
the last one. Each section comes with the least number of segments from its start on, and matches
as early as it can: that leaves the most for the others. -/
def matchMiddle : List (List Segment × Nat) → List (List CodeUnit) → Bool
  | [], rest => !rest.isEmpty
  | (ps, room) :: others, rest =>
    match (suffixes rest).find? fun s => room ≤ s.length && matchEach ps (s.take ps.length) with
    | some s => matchMiddle others (s.drop ps.length)
    | none => false

/-- How many sections there may be between the first and the last one. -/
def greatestMiddle : Nat := 200

/-- The segments of a pattern match the segments of a path. The first section matches at the start
and the last at the end. -/
def matchSegments (pattern : List (Option Segment)) (path : List (List CodeUnit)) : Bool :=
  match sections pattern with
  | [] => false
  | [only] => matchEach only path
  | head :: others =>
    let middle := others.dropLast
    let tail := others.getLast?.getD []
    let below := path.drop head.length
    let needed := (middle.zip (roomBehind middle)).map fun (ps, behind) =>
      (ps, ps.length + behind + tail.length)
    middle.length ≤ greatestMiddle && matchEach head (path.take head.length) &&
      tail.length ≤ below.length && matchEach tail (below.drop (below.length - tail.length)) &&
      matchMiddle needed below

/-- The pieces between slashes, several slashes in a row counting as one. -/
def slashParts : List CodeUnit → List (List CodeUnit)
  | [] => [[]]
  | u :: rest =>
    if u = unit '/' then
      if rest.head? = some (unit '/') then slashParts rest else [] :: slashParts rest
    else
      match slashParts rest with
      | [] => [[u]]
      | part :: parts => (u :: part) :: parts

/-- Adds a segment to those read so far, innermost first: a repeated `**` counts once, and `..`
takes back an ordinary segment. -/
def addPart (parts : List (List CodeUnit)) (part : List CodeUnit) : List (List CodeUnit) :=
  let stars := [unit '*', unit '*']
  let dots := [unit '.', unit '.']
  match parts with
  | [] => [part]
  | last :: before =>
    if part = stars ∧ last = stars then parts
    else if part = dots ∧ last ∉ [[], [unit '.'], dots, stars] then before
    else part :: parts

/-- The segments of a pattern without groups. -/
def segments (pattern : List CodeUnit) : List (Option Segment) :=
  let parts := ((slashParts pattern).foldl addPart []).reverse
  (if parts.isEmpty then [[]] else parts).map segment

/-- A pattern without groups matches an absolute path. -/
def matchOne (pattern : List CodeUnit) (path : Path) : Bool :=
  match segments pattern with
  | [only] => matchSegments [only] [Text.units (path.segments.getLast?.getD "")]
  | several =>
    let names := if path.segments.isEmpty then [""] else path.segments
    matchSegments several ([] :: names.map Text.units)

end Pattern

open Text (unit)

/-- A pattern for paths: its text, and the patterns without groups one of which matches or, if it is
negated, none of which does. -/
structure PathPattern where
  text : String
  negated : Bool := false
  alternatives : List (List CodeUnit) := []

namespace PathPattern

/-- The greatest number of code units of a pattern. -/
def greatestLength : Nat := Nat.pow 2 16

/-- A pattern that is longer than one may be. -/
def isTooLong (p : PathPattern) : Bool := greatestLength < (Text.units p.text).length

/-- The pattern with the given text. Leading exclamation marks negate it, each the one before; one
that starts with a number sign is a comment and matches nothing, as does an empty one. -/
def ofText (text : String) : PathPattern :=
  let us := Text.units text
  if us.head? = some (unit '#') ∨ us.isEmpty ∨ greatestLength < us.length then { text := text }
  else
    let body := us.dropWhile (· = unit '!')
    { text := text
      negated := (us.length - body.length) % 2 = 1
      alternatives := Pattern.alternatives body }

/-- A pattern matches an absolute path. -/
def accepts (p : PathPattern) (path : Path) : Bool :=
  p.negated != p.alternatives.any (Pattern.matchOne · path)

end PathPattern

end TreeInspector
