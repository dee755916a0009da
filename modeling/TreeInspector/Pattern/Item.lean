import TreeInspector.Pattern.Mark

/-!
# Items

A pattern is a list of items: single marks, and groups with what stands between their braces. A
brace without a partner is a mark like any other.
-/

set_option autoImplicit false

namespace TreeInspector.Pattern

/-- A part of a pattern. -/
inductive Item where
  | mark (m : Mark)
  | group (body : List Item)

mutual

/-- The marks of an item, before others. -/
def Item.marksThen (after : List Mark) : Item → List Mark
  | .mark m => m :: after
  | .group body => openBrace :: marksThen (closeBrace :: after) body

/-- The marks of items, before others. -/
def marksThen (after : List Mark) : List Item → List Mark
  | [] => after
  | item :: items => item.marksThen (marksThen after items)

end

/-- The marks of items. -/
def marks (items : List Item) : List Mark := marksThen [] items

mutual

/-- There is a comma in an item. -/
def Item.hasComma : Item → Bool
  | .mark m => m = comma
  | .group body => anyComma body

/-- There is a comma in one of the items. -/
def anyComma : List Item → Bool
  | [] => false
  | item :: items => item.hasComma || anyComma items

end

/-- The item is just the given mark. -/
def Item.is (m : Mark) : Item → Bool
  | .mark n => n = m
  | .group _ => false

/-- The mark that an item is. -/
def Item.mark? : Item → Option Mark
  | .mark m => some m
  | .group _ => none

/-- The items read so far, the last ones first: those of the innermost open group, and those before
each opening brace, from the inside out. -/
structure Levels where
  items : List Item := []
  outer : List (List Item) := []

/-- Reads a mark. A closing brace closes the innermost open group, if there is one. -/
def Levels.read (l : Levels) (m : Mark) : Levels :=
  if m = openBrace then ⟨[], l.items :: l.outer⟩
  else if m = closeBrace then
    match l.outer with
    | [] => ⟨.mark m :: l.items, []⟩
    | before :: outer => ⟨.group l.items.reverse :: before, outer⟩
  else ⟨.mark m :: l.items, l.outer⟩

/-- The items of a pattern. -/
def itemsOf (ms : List Mark) : List Item :=
  let l := ms.foldl Levels.read {}
  (List.intercalate [.mark openBrace] (l.items :: l.outer)).reverse

/-- The parts of the body of a group between commas that are in no inner group. -/
def commaParts : List Item → List (List Item)
  | [] => [[]]
  | item :: rest =>
    if item.is comma then [] :: commaParts rest
    else
      match commaParts rest with
      | [] => [[item]]
      | part :: parts => (item :: part) :: parts

/-- The items from a group on, when the brace that closes it is quoted: the group goes on to the
next brace without a partner, or is none if there is no such brace. -/
def retaken (body rest : List Item) : List Item :=
  let quoted : Item := .mark ⟨closeBrace.unit, true⟩
  match rest.dropWhile (!·.is closeBrace) with
  | [] => .mark openBrace :: body ++ quoted :: rest
  | _ :: after => .group (body ++ quoted :: rest.takeWhile (!·.is closeBrace)) :: after

end TreeInspector.Pattern
