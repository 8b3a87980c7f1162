import TreeSchema.Number.Binary64

/-!
# The shortest decimal of a floating-point number

The shortest decimal of a number is the one with the fewest digits among the decimals that round to
it; among those of that many digits it is the nearest to the number, and of two as near the one with
the even last digit. On the grid of decimals with a given number of digits only the two neighbours
of the number can be the nearest, so `shortest` tries the neighbours on one grid after the other
(`onGrid?`).
-/

namespace TreeSchema

/-- The decimal `digits · 10 ^ exponent`. -/
structure DecimalForm where
  digits : Nat
  exponent : Int
  deriving DecidableEq, Repr

namespace Shortest

/-- A positive number and the bounds of the reals that round to it, all three as multiples of
`2 ^ exponent`, and whether the bounds round to it themselves. -/
structure Interval where
  low : Nat
  value : Nat
  high : Nat
  exponent : Int
  closed : Bool

/-- The reals that round to `mantissa · 2 ^ exponent`. Below a power of two the next number is only
half as far away, unless the exponent is the least one. -/
def interval (mantissa : Nat) (exponent : Int) : Interval where
  low :=
    if mantissa = Binary64.mantissas ∧ -1074 < exponent then 4 * mantissa - 1
    else 4 * mantissa - 2
  value := 4 * mantissa
  high := 4 * mantissa + 2
  exponent := exponent - 2
  closed := mantissa % 2 = 0

/-- A decimal and a bound as two natural numbers in a common unit. -/
def commonUnits (d : DecimalForm) (bound : Nat) (exponent : Int) : Nat × Nat :=
  (d.digits * Nat.pow 10 d.exponent.toNat * Nat.pow 2 (-exponent).toNat,
    bound * Nat.pow 2 exponent.toNat * Nat.pow 10 (-d.exponent).toNat)

/-- Whether a decimal rounds to the number of the interval. -/
def Interval.holds (i : Interval) (d : DecimalForm) : Bool :=
  let (x, low) := commonUnits d i.low i.exponent
  let (y, high) := commonUnits d i.high i.exponent
  if i.closed then low ≤ x && y ≤ high else low < x && y < high

/-- The greatest power of ten that does not exceed a positive quotient. -/
def quotientLog10 (num den : Nat) : Int :=
  let guess : Int := ((Nat.toDigits 10 num).length : Int) - (Nat.toDigits 10 den).length
  let (n, d) := scaled 10 num den guess
  if d ≤ n then guess else guess - 1

/-- The nearest decimal on the grid of `10 ^ exponent` that rounds to the number. -/
def onGrid? (i : Interval) (exponent : Int) : Option DecimalForm :=
  let (num, den) := scaled 2 i.value 1 (-i.exponent)
  let (n, d) := scaled 10 num den exponent
  let below : DecimalForm := ⟨n / d, exponent⟩
  let above : DecimalForm := ⟨n / d + 1, exponent⟩
  let nearest := if roundQuotient n d = below.digits then below else above
  let other := if nearest = below then above else below
  if i.holds nearest then some nearest else if i.holds other then some other else none

/-- A decimal without zeros at its end. -/
def trimZeros (digits : Nat) (exponent : Int) : DecimalForm :=
  if h : 0 < digits ∧ digits % 10 = 0 then trimZeros (digits / 10) (exponent + 1)
  else ⟨digits, exponent⟩
termination_by digits
decreasing_by omega

/-- The most digits that the shortest decimal can need. -/
def mostDigits : Nat := 17

/-- The shortest decimal of `mantissa · 2 ^ exponent`, for a positive mantissa. -/
def shortest (mantissa : Nat) (exponent : Int) : DecimalForm :=
  let i := interval mantissa exponent
  let (num, den) := scaled 2 i.value 1 (-i.exponent)
  let leading := quotientLog10 num den
  let found := (List.range mostDigits).findSome? fun n : Nat => onGrid? i (leading - n)
  match found with
  | some d => trimZeros d.digits d.exponent
  | none => ⟨0, 0⟩

end Shortest

end TreeSchema
