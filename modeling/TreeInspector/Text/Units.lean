/-!
# Code units

Offsets, lengths and columns count 16-bit code units: a character outside the basic plane takes
two of them. `units` cuts a text into its units and `ofUnits` joins units into a text again.
-/

set_option autoImplicit false

namespace TreeInspector

/-- A 16-bit code unit of a text. -/
abbrev CodeUnit := UInt16

namespace Text

/-- The unit of a character of the basic plane. -/
def unit (c : Char) : CodeUnit := c.val.toUInt16

/-- The line feed, which ends a line. -/
def lineFeed : CodeUnit := 0x0A

/-- The carriage return, which belongs to the line ending when a line feed follows. -/
def carriageReturn : CodeUnit := 0x0D

/-- A unit that ends a line in any convention: the line feed, the carriage return, and the
separators of lines and paragraphs. -/
def isLineEnd (u : CodeUnit) : Bool :=
  u == lineFeed || u == carriageReturn || u == 0x2028 || u == 0x2029

/-- The units of one character: itself, or a high and a low surrogate. -/
def unitsOfChar (c : Char) : List CodeUnit :=
  if c.val < 0x10000 then [c.val.toUInt16]
  else
    let v := c.val - 0x10000
    [(0xD800 : CodeUnit) + (v >>> 10).toUInt16, (0xDC00 : CodeUnit) + (v &&& 0x3FF).toUInt16]

/-- The units of a text. -/
def units (s : String) : List CodeUnit := s.toList.flatMap unitsOfChar

/-- The first unit of a pair. -/
def isHigh (u : CodeUnit) : Bool := 0xD800 ≤ u && u ≤ 0xDBFF

/-- The second unit of a pair. -/
def isLow (u : CodeUnit) : Bool := 0xDC00 ≤ u && u ≤ 0xDFFF

/-- The character of a pair of surrogates. -/
def charOfPair (high low : CodeUnit) : Char :=
  Char.ofNat (0x10000 + (high.toNat - 0xD800) * 0x400 + (low.toNat - 0xDC00))

/-- The character that stands for what cannot be decoded. -/
def replacement : Char := Char.ofNat 0xFFFD

/-- The characters of a list of units; a surrogate without its partner becomes `replacement`. -/
def charsOfUnits : List CodeUnit → List Char
  | [] => []
  | u :: rest =>
    if isHigh u then
      match rest with
      | [] => [replacement]
      | l :: rest' =>
        if isLow l then charOfPair u l :: charsOfUnits rest'
        else replacement :: charsOfUnits (l :: rest')
    else if isLow u then replacement :: charsOfUnits rest
    else Char.ofNat u.toNat :: charsOfUnits rest

/-- The text made of the given units. -/
def ofUnits (us : List CodeUnit) : String := String.ofList (charsOfUnits us)

/-- A decimal digit. -/
def isDigit (u : CodeUnit) : Bool := unit '0' ≤ u && u ≤ unit '9'

/-- The value of a hexadecimal digit. -/
def hexValue? (u : CodeUnit) : Option Nat :=
  if isDigit u then some (u.toNat - '0'.toNat)
  else if unit 'a' ≤ u && u ≤ unit 'f' then some (u.toNat - 'a'.toNat + 10)
  else if unit 'A' ≤ u && u ≤ unit 'F' then some (u.toNat - 'A'.toNat + 10)
  else none

end Text

end TreeInspector
