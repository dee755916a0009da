import TreeInspector.Pattern.Item
import TreeInspector.Pattern.Range

/-!
# Alternatives in braces

A group `{a,b}` in a pattern stands for one pattern with `a` and one with `b`; a group that spells a
range stands for its members. A group that is neither is left as it is. How many patterns there may
be, how long and how deep in one another groups may stand is bounded; what goes beyond is left out
or left as it is.
-/

set_option autoImplicit false

namespace TreeInspector.Pattern

/-- A pattern that another one stands for: its stretches, the last one first, and its size. -/
structure Expansion where
  stretches : List (List Mark) := []
  size : Nat := 0

namespace Expansion

/-- The marks with their size. -/
def ofMarks (ms : List Mark) : Expansion := ⟨[ms], ms.foldl (fun n m => n + m.weight) 0⟩

/-- The marks of a pattern. -/
def marks (e : Expansion) : List Mark := e.stretches.reverse.flatten

/-- The number of marks of a pattern. -/
def length (e : Expansion) : Nat := e.stretches.foldl (fun n ms => n + ms.length) 0

/-- One pattern and then another. -/
def append (a b : Expansion) : Expansion := ⟨b.stretches ++ a.stretches, a.size + b.size⟩

/-- The marks between braces. -/
def inBraces (e : Expansion) : List Mark := openBrace :: e.marks ++ [closeBrace]

end Expansion

/-- The greatest size of patterns that are collected together. -/
def greatestSize : Nat := 4000000

/-- Patterns that are being collected, up to the first one for which there is no room. -/
structure Collection where
  found : Array Expansion := #[]
  size : Nat := 0
  full : Bool := false

namespace Collection

/-- Adds a pattern if there is room for it. -/
def add (e : Expansion) (c : Collection) : Collection :=
  if c.found.size < greatestExpansion && c.size + e.size ≤ greatestSize then
    { c with found := c.found.push e, size := c.size + e.size }
  else { c with full := true }

/-- Adds what begins with `start` and goes on with one of the given patterns, but not the empty
pattern if `dropEmpty`. -/
def addFrom (dropEmpty : Bool) (start : Expansion) : List Expansion → Collection → Collection
  | [], c => c
  | e :: rest, c =>
    let whole := start.append e
    if c.full then c
    else if dropEmpty && whole.size = 0 then addFrom dropEmpty start rest c
    else addFrom dropEmpty start rest (c.add whole)

end Collection

/-- The patterns that begin with one of `starts` and go on with one of `ends`, those with an earlier
start first, as far as there is room for them. -/
def combine (dropEmpty : Bool) (starts ends : List Expansion) : List Expansion :=
  let step := fun (c : Collection) start => if c.full then c else c.addFrom dropEmpty start ends
  (starts.foldl step {}).found.toList

/-- What a pattern up to some item stands for: `found` up to its last group, then the marks of
`text`, the last one first. -/
structure Draft where
  found : List Expansion := [{}]
  text : List Mark := []
  /-- Whether the first group lists its members, if there has been one. -/
  listed : Option Bool := none
  /-- How much has been gathered in groups. -/
  gathered : Nat := 0

namespace Draft

/-- Goes on with marks that stand for themselves. -/
def write (ms : List Mark) (d : Draft) : Draft := { d with text := ms.reverseAux d.text }

/-- Goes on with one of several patterns, which a group lists or a range has. The empty pattern is
left out if `dropEmpty` and the first group is a list. -/
def choose (listed dropEmpty : Bool) (members : List Expansion) (d : Draft) : Draft :=
  let first := d.listed.getD listed
  let ends :=
    if d.text.isEmpty then members else members.map (Expansion.ofMarks d.text.reverse).append
  { d with
    found := combine (dropEmpty && first) d.found ends
    text := []
    listed := some first }

/-- Counts what has been gathered. -/
def gather (amount : Nat) (d : Draft) : Draft := { d with gathered := d.gathered + amount }

end Draft

/-- How much may be gathered in the groups of a pattern. -/
def greatestGathering : Nat := 4000000

/-- What a pattern stands for, and how much has been gathered in its groups to find it. -/
structure Yield where
  found : List Expansion
  gathered : Nat := 0

/-- What the whole pattern stands for: nothing if too much has been gathered. -/
def Draft.result (d : Draft) : Yield :=
  let found :=
    if greatestGathering < d.gathered then []
    else if d.text.isEmpty then d.found
    else combine false d.found [.ofMarks d.text.reverse]
  ⟨found, d.gathered⟩

/-- What one of several parts stands for. All that the parts come to is gathered, also what has been
gathered in them before. -/
def Yield.ofParts (parts : List Yield) : Yield :=
  let found := parts.flatMap (·.found)
  let gathered := parts.foldl (fun n part => n + part.gathered) 0
  ⟨found, found.foldl (fun n e => n + e.length) gathered⟩

/-- There is a comma that no comma follows, with a closing brace after it on the same line. -/
def hasLaterAlternative (ms : List Mark) : Bool :=
  let step := fun (m : Mark) (next, closes, found) =>
    let found := found || m = comma && next ≠ some comma && closes
    (some m, !Text.isLineEnd m.unit && (m = closeBrace || closes), found)
  (ms.foldr step ((none : Option Mark), false, false)).2.2

/-- How far the reading of a pattern has come. If a group is to be taken up to a later brace, the
items from there on are left. -/
structure Reading where
  draft : Draft
  left : Option (List Item) := none

/-- Reads items, finding what the parts of groups stand for by `inner`. A group after a dollar sign
stands for itself. With a group that has no alternatives, and to which no later comma can belong,
all that follows stands for itself. The empty pattern does not count as one if `top`. -/
def readItems (inner : List Item → Yield) (top : Bool) : List Item → Draft → Reading
  | [], d => { draft := d }
  | .mark m :: rest, d => readItems inner top rest (d.write [m])
  | .group body :: rest, d =>
    let dropEmpty := top && rest.isEmpty
    let list := fun (y : Yield) (d : Draft) => (d.choose true dropEmpty y.found).gather y.gathered
    if d.text.head? = some (.plain '$') then
      readItems inner top rest (d.write (marks [.group body]))
    else
      match (body.mapM Item.mark?).bind range? with
      | some members =>
        readItems inner top rest (d.choose false dropEmpty (members.map .ofMarks))
      | none =>
        if !anyComma body then
          if hasLaterAlternative (marks rest) then
            { draft := d, left := some (retaken body rest) }
          else { draft := d.write (marks (.group body :: rest)) }
        else
          match commaParts body with
          | [part] =>
            let y := inner part
            let d := d.gather y.gathered
            match y.found with
            | [e] => readItems inner top rest (d.write e.inBraces)
            | es =>
              let parts := es.map fun e => inner (itemsOf e.inBraces)
              readItems inner top rest (list (.ofParts parts) d)
          | parts => readItems inner top rest (list (.ofParts (parts.map inner)) d)

/-- Finds what items stand for. Groups are taken up to later braces so many times at most. -/
def readAll (inner : List Item → Yield) (top : Bool) : Nat → List Item → Draft → Yield
  | retakes, items, d =>
    let r := readItems inner top items d
    match r.left, retakes with
    | none, _ => r.draft.result
    | some left, 0 => (r.draft.write (marks left)).result
    | some left, n + 1 => readAll inner top n left r.draft

/-- How many times groups of one level are taken up to later braces. -/
def greatestRetakes : Nat := 1000

/-- How many levels of groups in one another are worked off. -/
def greatestNesting : Nat := 1001

/-- Finds what items stand for, with groups worked off so many levels deep. -/
def expandItems : Nat → Bool → List Item → Yield
  | 0, _, items => { found := [.ofMarks (marks items)] }
  | nesting + 1, top, items => readAll (expandItems nesting false) top greatestRetakes items {}

/-- The patterns that a pattern with groups stands for. -/
def expand (ms : List Mark) : List (List Mark) :=
  (expandItems greatestNesting true (itemsOf ms)).found.map (·.marks)

/-- A pattern has a group if a closing brace follows an opening one on the same line and with no
other opening one between them. -/
def hasGroup : List CodeUnit → Bool
  | [] => false
  | u :: rest =>
    (u = openBrace.unit &&
      (rest.takeWhile fun v => v != openBrace.unit && !Text.isLineEnd v).contains
        closeBrace.unit) ||
      hasGroup rest

/-- The patterns without groups that a pattern stands for. -/
def alternatives (pattern : List CodeUnit) : List (List CodeUnit) :=
  if hasGroup pattern then
    let escaped :=
      match pattern with
      | a :: b :: rest =>
        if a = openBrace.unit ∧ b = closeBrace.unit then
          ⟨a, true⟩ :: ⟨b, true⟩ :: Mark.ofUnits rest
        else Mark.ofUnits pattern
      | _ => Mark.ofUnits pattern
    (expand escaped).map fun ms => ms.map (·.unit)
  else [pattern]

end TreeInspector.Pattern
