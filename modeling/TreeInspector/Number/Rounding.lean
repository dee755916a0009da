import TreeInspector.Number.Basic

/-!
# Rounding to binary64

A rational becomes the nearest binary64 number, a tie going to the even significand. Sums and
differences are formed exactly and then rounded.
-/

set_option autoImplicit false

namespace TreeInspector.Number

/-- The quotient `num / den` rounded to the nearest integer, a tie going to the even one. -/
def roundDiv (num den : Nat) : Nat :=
  let whole := num / den
  let twice := 2 * (num % den)
  if twice < den then whole
  else if den < twice then whole + 1
  else if whole % 2 = 0 then whole else whole + 1

/-- The exponent `k` with `2 ^ k ≤ p / q < 2 ^ (k + 1)`, for positive `p` and `q`. -/
def leadingExponent (p q : Nat) : Int :=
  let k : Int := (p.log2 : Int) - (q.log2 : Int)
  let reached := if 0 ≤ k then q * Nat.pow 2 k.toNat ≤ p else q ≤ p * Nat.pow 2 (-k).toNat
  if reached then k else k - 1

/-- The least exponent of a unit in the last place. -/
def leastExponent : Int := -1074

/-- The binary64 number nearest to the positive rational `p / q`. -/
def roundPositive (p q : Nat) : Number :=
  let e := Max.max (leadingExponent p q - 52) leastExponent
  if 0 ≤ e then
    let value := roundDiv p (q * Nat.pow 2 e.toNat) * Nat.pow 2 e.toNat
    if value < Nat.pow 2 1024 then .finite (value : Nat) else .infinite false
  else .finite (mkRat (roundDiv (p * Nat.pow 2 (-e).toNat) q : Nat) (Nat.pow 2 (-e).toNat))

/-- The sign-reversed number. -/
def neg : Number → Number
  | .nan => .nan
  | .infinite negative => .infinite !negative
  | .finite r => .finite (-r)

/-- The binary64 number nearest to a rational. -/
def round (r : Rat) : Number :=
  if r.num = 0 then .finite 0
  else if 0 < r.num then roundPositive r.num.natAbs r.den
  else neg (roundPositive r.num.natAbs r.den)

/-- The binary64 sum of two numbers: the nearest one to their exact sum. -/
def sum : Number → Number → Number
  | .finite a, .finite b => round (a + b)
  | .infinite a, .infinite b => if a = b then .infinite a else .nan
  | .infinite a, .finite _ => .infinite a
  | .finite _, .infinite b => .infinite b
  | _, _ => .nan

/-- The magnitude of a number. -/
def abs : Number → Number
  | .nan => .nan
  | .infinite _ => .infinite false
  | .finite r => .finite (if r < 0 then -r else r)

/-- A sum or difference of columns as a number: whole ones stand as they are, since a text is far
shorter than the magnitude from which whole binary64 numbers thin out, and fractions are rounded. -/
def ofColumns (r : Rat) : Number :=
  if r.den = 1 then .finite r else round r

/-- The sum of two columns. -/
def add : Number → Number → Number
  | .finite a, .finite b => ofColumns (a + b)
  | .infinite a, .infinite b => if a = b then .infinite a else .nan
  | .infinite a, .finite _ => .infinite a
  | .finite _, .infinite b => .infinite b
  | _, _ => .nan

/-- The difference of two columns. -/
def sub (a b : Number) : Number := add a (neg b)

instance : Add Number := ⟨add⟩

instance : Sub Number := ⟨sub⟩

end TreeInspector.Number
