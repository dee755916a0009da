import TreeInspector.Number.Text
import TreeInspector.Pattern.Mark

/-!
# Ranges

A group such as `{1..3}` or `{a..e}` stands for the numbers or letters of a range, a step apart.
-/

set_option autoImplicit false

namespace TreeInspector.Pattern

open Text (unit isDigit)

/-- The whole number that the marks spell. -/
def number? (ms : List Mark) : Option Number :=
  let digits? (ds : List Mark) : Option Number :=
    if ds.isEmpty ∨ ds.any (fun m => m.quoted || !isDigit m.unit) then none
    else some (Number.ofDigits (ds.map fun m => Char.ofNat m.unit.toNat))
  match ms with
  | [] => none
  | m :: rest => if m = .plain '-' then (digits? rest).map Number.neg else digits? ms

/-- The pieces of a range between its double dots. -/
def dotParts : List Mark → List (List Mark)
  | [] => [[]]
  | [m] => [[m]]
  | m :: n :: rest =>
    if m = .plain '.' ∧ n = .plain '.' then [] :: dotParts rest
    else
      match dotParts (n :: rest) with
      | [] => [[m]]
      | part :: parts => (m :: part) :: parts

/-- How many patterns a pattern with groups stands for at most; further ones do not count. -/
def greatestExpansion : Nat := 100000

/-- Adds to the list the written numbers from `i` on, a step apart, until one has passed `last` or
there are `limit` more. A number that the step is too small to change stays to the end. -/
def numbersFrom {α : Type} (write : Number → α) (last step : Number) (descending : Bool) :
    Nat → Number → Array α → Array α
  | 0, _, found => found
  | limit + 1, i, found =>
    if (if descending then last ≤ i else i ≤ last) then
      let next := i.sum step
      if next = i then found ++ Array.replicate (limit + 1) (write i)
      else numbersFrom write last step descending limit next (found.push (write i))
    else found

/-- The written numbers from `first` to `last`, in steps of at least one. -/
def numbersBetween {α : Type} (write : Number → α) (first last step : Number) : List α :=
  let size := Number.max 1 step.abs
  let descending : Bool := last < first
  let step := if descending then size.neg else size
  (numbersFrom write last step descending greatestExpansion first #[]).toList

/-- The text of a number with zeros in front, the sign counting towards the width. -/
def paddedNumber (width : Nat) (n : Number) : List CodeUnit :=
  let text := Text.units n.text
  let zeros := List.replicate (width - text.length) (unit '0')
  if n < 0 then text.take 1 ++ zeros ++ text.drop 1 else zeros ++ text

/-- A bound of a range written with a needless zero in front. -/
def isPadded (ms : List Mark) : Bool :=
  match ms.map (·.unit) with
  | a :: b :: c =>
    if a = unit '-' then b = unit '0' && c.any isDigit
    else a = unit '0' && isDigit b
  | _ => false

/-- A letter of the ASCII range. -/
def isLetter (m : Mark) : Bool :=
  !m.quoted && (unit 'a' ≤ m.unit && m.unit ≤ unit 'z' || unit 'A' ≤ m.unit && m.unit ≤ unit 'Z')

/-- The members of a range of numbers or letters. Between capital and small letters the backslash
counts as nothing. -/
def range? (body : List Mark) : Option (List (List Mark)) :=
  let step? (parts : List (List Mark)) : Option Number :=
    match parts with
    | [] => some 1
    | [step] => number? step
    | _ => none
  match dotParts body with
  | first :: last :: more =>
    match number? first, number? last, step? more with
    | some a, some b, some step =>
      let width :=
        if (first :: last :: more).any isPadded then Nat.max first.length last.length else 0
      let write := fun n => (paddedNumber width n).map fun u => ⟨u, false⟩
      some (numbersBetween write a b step)
    | _, _, some step =>
      match first, last with
      | [a], [b] =>
        if isLetter a && isLetter b then
          let write := fun (n : Number) =>
            (n.toIndex?.filter (· ≠ '\\'.toNat)).toList.map fun code => ⟨code.toUInt16, false⟩
          some (numbersBetween write a.unit.toNat b.unit.toNat step)
        else none
      | _, _ => none
    | _, _, none => none
  | _ => none

end TreeInspector.Pattern
