import TreeInspector.Text.Case.Mapping
import TreeInspector.Text.Units

/-!
# Units without regard to case

Two units are the same letter in different case if they have the same capital. The capital of a
unit is again one unit, and a unit outside ASCII never has one inside it.
-/

set_option autoImplicit false

namespace TreeInspector.Text

/-- The capital that a unit is compared by. -/
def capitalUnit (u : CodeUnit) : CodeUnit :=
  if u < 0x80 then if unit 'a' ≤ u && u ≤ unit 'z' then u - 0x20 else u
  else
    let c := capitalForm u.toNat
    if 0x80 ≤ c && c < 0x10000 then c.toUInt16 else u

/-- The units that are compared by the same capital. -/
def caseVariants (u : CodeUnit) : List CodeUnit :=
  let c := capitalUnit u
  c :: (capitalForms.filterMap fun r => r.preimage? c.toNat).filterMap fun v =>
    let v' := v.toUInt16
    if v < 0x10000 && capitalUnit v' == c then some v' else none

/-- The units are the same but for their case. -/
def sameLetter (u v : CodeUnit) : Bool := u == v || capitalUnit u == capitalUnit v

end TreeInspector.Text
