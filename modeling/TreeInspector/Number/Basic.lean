/-!
# Numbers

Offsets, indices, counts and clock readings arrive as binary64 numbers: they may be fractional,
infinite or no number at all. A finite number is kept as the rational it stands for, so that
comparison is comparison of rationals.
-/

set_option autoImplicit false

namespace TreeInspector

/-- A binary64 number. The two zeros are one value, since nothing here tells them apart. -/
inductive Number where
  | nan
  | infinite (negative : Bool)
  | finite (value : Rat)
  deriving DecidableEq

namespace Number

/-- The number that counts `n` things. -/
def ofNat (n : Nat) : Number := .finite (n : Rat)

instance : Coe Nat Number := ⟨ofNat⟩

instance (n : Nat) : OfNat Number n := ⟨ofNat n⟩

instance : Inhabited Number := ⟨.finite 0⟩

/-- Positive infinity. -/
def infinity : Number := .infinite false

/-- Strict order; a value that is no number is not comparable with anything. -/
def lt : Number → Number → Bool
  | .nan, _ => false
  | _, .nan => false
  | .infinite a, .infinite b => a && !b
  | .infinite a, .finite _ => a
  | .finite _, .infinite b => !b
  | .finite a, .finite b => decide (a < b)

/-- Order; a value that is no number is not comparable with anything. -/
def le : Number → Number → Bool
  | .nan, _ => false
  | _, .nan => false
  | .infinite a, .infinite b => a || !b
  | .infinite a, .finite _ => a
  | .finite _, .infinite b => !b
  | .finite a, .finite b => decide (a ≤ b)

instance : LT Number := ⟨fun a b => a.lt b = true⟩

instance : LE Number := ⟨fun a b => a.le b = true⟩

instance (a b : Number) : Decidable (a < b) := inferInstanceAs (Decidable (a.lt b = true))

instance (a b : Number) : Decidable (a ≤ b) := inferInstanceAs (Decidable (a.le b = true))

/-- Rationals are ordered as numbers in the way they are as rationals. -/
@[simp]
theorem finite_lt_finite {a b : Rat} : Number.finite a < Number.finite b ↔ a < b :=
  decide_eq_true_iff

/-- For rationals, to be at most another means the same as numbers and as rationals. -/
@[simp]
theorem finite_le_finite {a b : Rat} : Number.finite a ≤ Number.finite b ↔ a ≤ b :=
  decide_eq_true_iff

/-- The smaller of two numbers; no number if either is none. -/
def min : Number → Number → Number
  | .nan, _ => .nan
  | _, .nan => .nan
  | a, b => if a < b then a else b

/-- The larger of two numbers; no number if either is none. -/
def max : Number → Number → Number
  | .nan, _ => .nan
  | _, .nan => .nan
  | a, b => if a < b then b else a

/-- The integer a whole number stands for. -/
def toInt? : Number → Option Int
  | .finite r => if r.den = 1 then some r.num else none
  | _ => none

/-- The position in a list that a number names: whole numbers from zero on name one. -/
def toIndex? (n : Number) : Option Nat :=
  match n.toInt? with
  | some (.ofNat i) => some i
  | _ => none

/-- The integer part, towards zero, of a finite number. -/
def truncated? : Number → Option Int
  | .finite r => some (r.num.tdiv r.den)
  | _ => none

/-- How often to repeat something: the integer part, with no number counting as zero. Negative and
infinite counts are refused. -/
def toCount? : Number → Option Nat
  | .nan => some 0
  | .infinite _ => none
  | .finite r =>
    match r.num.tdiv r.den with
    | .ofNat n => some n
    | .negSucc _ => none

/-- A natural number is the index that it is. -/
@[simp]
theorem toIndex?_ofNat (n : Nat) : (ofNat n).toIndex? = some n := rfl

end Number

end TreeInspector
