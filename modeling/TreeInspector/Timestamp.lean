import TreeInspector.Number.Basic

/-!
# Timestamps

A clock reading counts milliseconds since 1970 in universal time. It is written as a date and time
of the proleptic Gregorian calendar, with a four-digit year where one suffices.
-/

set_option autoImplicit false

namespace TreeInspector.Timestamp

/-- The greatest distance from 1970 that has a date, in milliseconds. -/
def greatest : Nat := 8640000000000000

/-- The whole milliseconds of a clock reading that has a date. -/
def milliseconds? (clock : Number) : Option Int :=
  match clock.truncated? with
  | some ms => if ms.natAbs ≤ greatest then some ms else none
  | none => none

/-- A day of the calendar. -/
structure Date where
  year : Int
  month : Nat
  day : Nat
  deriving DecidableEq, Repr

/-- The date of the given day, counted from the first of January 1970. The count runs over eras of
400 years that begin in March, so that a leap day is the last day of its year. -/
def dateOfDay (day : Int) : Date :=
  let shifted := day + 719468
  let era := shifted.fdiv 146097
  let dayOfEra := (shifted - era * 146097).toNat
  let yearOfEra := (dayOfEra - dayOfEra / 1460 + dayOfEra / 36524 - dayOfEra / 146096) / 365
  let dayOfYear := dayOfEra - (365 * yearOfEra + yearOfEra / 4 - yearOfEra / 100)
  let marchMonth := (5 * dayOfYear + 2) / 153
  let month := if marchMonth < 10 then marchMonth + 3 else marchMonth - 9
  { year := yearOfEra + era * 400 + (if month ≤ 2 then 1 else 0)
    month := month
    day := dayOfYear - (153 * marchMonth + 2) / 5 + 1 }

/-- The digits of a number, with zeros in front up to the given width. -/
def padded (width n : Nat) : String :=
  let digits := (Nat.repr n).toList
  String.ofList (List.replicate (width - digits.length) '0' ++ digits)

/-- Years from 0 to 9999 have four digits; others have a sign and six. -/
def yearText (year : Int) : String :=
  if 0 ≤ year ∧ year ≤ 9999 then padded 4 year.toNat
  else (if year < 0 then "-" else "+") ++ padded 6 year.natAbs

/-- The written form of a clock reading, if it has a date. -/
def text? (clock : Number) : Option String :=
  match milliseconds? clock with
  | none => none
  | some ms =>
    let date := dateOfDay (ms.fdiv 86400000)
    let inDay := (ms.fmod 86400000).toNat
    some (yearText date.year ++ "-" ++ padded 2 date.month ++ "-" ++ padded 2 date.day ++ "T" ++
      padded 2 (inDay / 3600000) ++ ":" ++ padded 2 (inDay / 60000 % 60) ++ ":" ++
      padded 2 (inDay / 1000 % 60) ++ "." ++ padded 3 (inDay % 1000) ++ "Z")

end TreeInspector.Timestamp
