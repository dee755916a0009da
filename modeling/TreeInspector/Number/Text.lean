import TreeInspector.Number.Rounding

/-!
# The text of a number

A number is written with the fewest digits that read back as it, positionally unless its magnitude
is extreme.
-/

set_option autoImplicit false

namespace TreeInspector.Number

/-- A positive decimal `coefficient · 10 ^ scale`. -/
structure Decimal where
  coefficient : Nat
  scale : Int
  deriving DecidableEq, Repr

namespace Decimal

/-- The rational that a decimal stands for. -/
def toRat (d : Decimal) : Rat :=
  if 0 ≤ d.scale then ((d.coefficient * Nat.pow 10 d.scale.toNat : Nat) : Rat)
  else mkRat d.coefficient (Nat.pow 10 (-d.scale).toNat)

/-- The decimal without zeros at the end of its coefficient, for at most `fuel` of them. -/
def stripZeros : Nat → Decimal → Decimal
  | 0, d => d
  | fuel + 1, d =>
    if d.coefficient ≠ 0 ∧ d.coefficient % 10 = 0 then
      stripZeros fuel ⟨d.coefficient / 10, d.scale + 1⟩
    else d

end Decimal

/-- How many decimal digits a natural number has. -/
def digitCount (n : Nat) : Nat := (Nat.toDigits 10 n).length

/-- The position `n` of the decimal point: `10 ^ (n - 1) ≤ r < 10 ^ n`, for positive `r`. -/
def pointPosition (r : Rat) : Int :=
  if 1 ≤ r then digitCount r.floor.toNat
  else
    let d := digitCount (r.den / r.num.natAbs)
    if r.num = 1 ∧ r.den = Nat.pow 10 (d - 1) then 2 - (d : Int) else 1 - (d : Int)

/-- The two neighbours of `r` among the decimals of the given scale. -/
def gridNeighbours (r : Rat) (scale : Int) : Decimal × Decimal :=
  let scaled : Rat :=
    if 0 ≤ scale then r / (Nat.pow 10 scale.toNat : Rat)
    else r * (Nat.pow 10 (-scale).toNat : Rat)
  let below := scaled.floor.toNat
  (⟨below, scale⟩, ⟨below + 1, scale⟩)

/-- The decimal with the given count of digits that reads back as `r`; of two the nearer one, and
the even one of a tie. -/
def withDigits? (r : Rat) (digits : Nat) : Option Decimal :=
  let (low, high) := gridNeighbours r (pointPosition r - digits)
  let readsBack := fun d : Decimal => decide (round d.toRat = .finite r)
  match readsBack low, readsBack high with
  | true, true =>
    let fromLow := r - low.toRat
    let fromHigh := high.toRat - r
    if fromLow < fromHigh then some low
    else if fromHigh < fromLow then some high
    else if low.coefficient % 2 = 0 then some low else some high
  | true, false => some low
  | false, true => some high
  | false, false => none

/-- The shortest decimal that reads back as the positive number `r`. Seventeen digits are always
enough for a binary64 number. -/
def shortest (r : Rat) : Decimal :=
  let found := (List.range 17).findSome? fun k => withDigits? r (k + 1)
  (found.getD (gridNeighbours r (pointPosition r - 17)).1).stripZeros 17

/-- Where positional writing ends, as positions of the decimal point. -/
structure DecimalStyle where
  leastPoint : Int
  greatestPoint : Int

/-- Numbers from `0.000001` up to, but not including, `10 ^ 21` are written positionally. -/
def plainStyle : DecimalStyle := ⟨-5, 21⟩

/-- The digits of a positive decimal in the given style. -/
def Decimal.text (style : DecimalStyle) (d : Decimal) : String :=
  let digits := Nat.repr d.coefficient
  let point : Int := digits.length + d.scale
  if 0 ≤ d.scale ∧ point ≤ style.greatestPoint then
    digits ++ String.ofList (List.replicate d.scale.toNat '0')
  else if 0 < point ∧ point ≤ style.greatestPoint then
    String.ofList (digits.toList.take point.toNat) ++ "." ++
      String.ofList (digits.toList.drop point.toNat)
  else if style.leastPoint ≤ point ∧ point ≤ 0 then
    "0." ++ String.ofList (List.replicate (-point).toNat '0') ++ digits
  else
    let exponent := point - 1
    let mark := (if exponent < 0 then "e-" else "e+") ++ Nat.repr exponent.natAbs
    match digits.toList with
    | [d] => String.ofList [d] ++ mark
    | d :: rest => String.ofList (d :: '.' :: rest) ++ mark
    | [] => mark

/-- The text of the positive number `r`. Below `2 ^ 53` a whole number is its own shortest form. -/
def positiveText (r : Rat) : String :=
  if r.den = 1 ∧ r.num.natAbs < Nat.pow 2 53 then Nat.repr r.num.natAbs
  else (shortest r).text plainStyle

/-- The text of a number. -/
def text : Number → String
  | .nan => "NaN"
  | .infinite false => "Infinity"
  | .infinite true => "-Infinity"
  | .finite r =>
    if r.num = 0 then "0"
    else if 0 < r.num then positiveText r
    else "-" ++ positiveText (-r)

/-- The number a string of decimal digits stands for. -/
def ofDigits (digits : List Char) : Number :=
  round ((digits.foldl (fun n c => 10 * n + (c.toNat - '0'.toNat)) 0 : Nat) : Rat)

end TreeInspector.Number
