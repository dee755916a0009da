import TreeInspector.Text.Units

/-!
# UTF-8

Files hold bytes. Every text has its bytes; reading is total, since each longest run of bytes that
begins a character and cannot be finished becomes one replacement character.
-/

set_option autoImplicit false

namespace TreeInspector.Text.Utf8

/-- The bytes of a text. -/
def encode (s : String) : List UInt8 := s.toList.flatMap String.utf8EncodeChar

/-- An unfinished character: how many bytes it still needs, the range of the next one, and the bits
read so far. -/
structure Pending where
  needed : Nat
  least : UInt8
  greatest : UInt8
  bits : Nat

/-- Where the reader stands between two bytes. -/
abbrev State := Option Pending

/-- Reads the first byte of a character. -/
def lead (b : UInt8) : State × List Char :=
  if b ≤ 0x7F then (none, [Char.ofNat b.toNat])
  else if 0xC2 ≤ b ∧ b ≤ 0xDF then (some ⟨1, 0x80, 0xBF, b.toNat - 0xC0⟩, [])
  else if 0xE0 ≤ b ∧ b ≤ 0xEF then
    let least := if b = 0xE0 then 0xA0 else 0x80
    let greatest := if b = 0xED then 0x9F else 0xBF
    (some ⟨2, least, greatest, b.toNat - 0xE0⟩, [])
  else if 0xF0 ≤ b ∧ b ≤ 0xF4 then
    let least := if b = 0xF0 then 0x90 else 0x80
    let greatest := if b = 0xF4 then 0x8F else 0xBF
    (some ⟨3, least, greatest, b.toNat - 0xF0⟩, [])
  else (none, [replacement])

/-- Reads one byte; a byte that cannot continue a character ends it and is read as a first byte. -/
def step : State → UInt8 → State × List Char
  | none, b => lead b
  | some p, b =>
    if p.least ≤ b ∧ b ≤ p.greatest then
      let bits := p.bits * 0x40 + (b.toNat - 0x80)
      if p.needed ≤ 1 then (none, [Char.ofNat bits])
      else (some ⟨p.needed - 1, 0x80, 0xBF, bits⟩, [])
    else
      let (state, chars) := lead b
      (state, replacement :: chars)

/-- The characters that the bytes hold, continuing from a state. -/
def decodeFrom : State → List UInt8 → List Char
  | none, [] => []
  | some _, [] => [replacement]
  | state, b :: rest =>
    let (state', chars) := step state b
    chars ++ decodeFrom state' rest

/-- The text that the bytes hold. -/
def decode (bytes : List UInt8) : String := String.ofList (decodeFrom none bytes)

end TreeInspector.Text.Utf8
