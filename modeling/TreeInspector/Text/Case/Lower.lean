import TreeInspector.Text.Case.Context

/-!
# Texts in small letters

A text in small letters has the small form of each of its letters. A capital sigma at the end of a
word becomes the final sigma, and the capital I with a dot becomes an i with a combining dot.
-/

set_option autoImplicit false

namespace TreeInspector.Text

/-- The small form of a character between those `before` it, the nearest first, and those
`after` it. -/
def smallChars (before : List Char) (c : Char) (after : List Char) : List Char :=
  if c.toNat < 0x80 then [c.toLower]
  else if c = dottedCapitalI then ['i', Char.ofNat 0x307]
  else if c = 'Σ' then [if leadsToLetter before && !leadsToLetter after then 'ς' else 'σ']
  else [Char.ofNat (smallForm c.toNat)]

/-- The characters in small letters, after those `before` them, the nearest first. -/
def lowerAfter (before : List Char) : List Char → List Char
  | [] => []
  | c :: rest => smallChars before c rest ++ lowerAfter (c :: before) rest

/-- The characters of a text in small letters. -/
def lower (cs : List Char) : List Char := lowerAfter [] cs

end TreeInspector.Text
