/-!
# Binary floating-point numbers

A floating-point number is taken apart into a sign, a mantissa and a power of two
(`Binary64.ofFloat`), so that it can be compared with integers and decimals exactly. In the other
direction `nearestFloat` rounds a quotient of natural numbers to the nearest number, and a tie to
the even mantissa.
-/

namespace TreeSchema

/-- A floating-point number of 64 bits, taken apart. -/
inductive Binary64 where
  /-- Not a number. -/
  | nan
  /-- An infinity. -/
  | infinite (negative : Bool)
  /-- The value `mantissa · 2 ^ exponent`, with its sign. -/
  | finite (negative : Bool) (mantissa : Nat) (exponent : Int)
  deriving DecidableEq, Repr

namespace Binary64

/-- The number of mantissas between a power of two and the next one: fifty-two bits follow the first
one. -/
def mantissas : Nat := 0x10000000000000

/-- The bit of the sign. -/
def signBit : Nat := 0x8000000000000000

/-- The parts of the number with the bits `bits`. -/
def ofBits (bits : Nat) : Binary64 :=
  let negative := bits / signBit % 2 == 1
  let field : Nat := bits / mantissas % 2048
  let fraction : Nat := bits % mantissas
  if field = 2047 then
    if fraction = 0 then .infinite negative else .nan
  else if field = 0 then .finite negative fraction (-1074)
  else .finite negative (fraction + mantissas) ((field : Int) - 1075)

/-- The parts of a number. -/
def ofFloat (x : Float) : Binary64 :=
  ofBits x.toBits.toNat

/-- The integer that a number is equal to, if it is one. -/
def toInt? : Binary64 → Option Int
  | nan | infinite _ => none
  | finite negative mantissa exponent =>
    let sign : Int := if negative then -1 else 1
    let unit := Nat.pow 2 exponent.natAbs
    if 0 ≤ exponent then some (sign * Int.ofNat (mantissa * unit))
    else if mantissa % unit = 0 then some (sign * Int.ofNat (mantissa / unit))
    else none

end Binary64

/-- The quotient of two natural numbers rounded to the nearest one, a tie to the even one. -/
def roundQuotient (num den : Nat) : Nat :=
  let q := num / den
  let r := num % den
  if 2 * r < den then q
  else if den < 2 * r then q + 1
  else if q % 2 = 0 then q else q + 1

/-- The numerator and denominator of `num / den / base ^ exponent`. -/
def scaled (base num den : Nat) (exponent : Int) : Nat × Nat :=
  if 0 ≤ exponent then (num, den * Nat.pow base exponent.toNat)
  else (num * Nat.pow base exponent.natAbs, den)

/-- The greatest power of two that does not exceed a positive quotient. -/
def quotientLog2 (num den : Nat) : Int :=
  let guess : Int := (num.log2 : Int) - den.log2
  let (n, d) := scaled 2 num den guess
  if d ≤ n then guess else guess - 1

/-- The bits, without the sign, of the number nearest to a quotient. A carry of the mantissa runs
into the exponent as it should. -/
def nearestBits (num den : Nat) : Nat :=
  if num = 0 then 0
  else
    let exponent := max (quotientLog2 num den - 52) (-1074)
    let (n, d) := scaled 2 num den exponent
    let unit := Binary64.mantissas
    min ((exponent + 1074).toNat * unit + roundQuotient n d) (2047 * unit)

/-- The floating-point number nearest to a quotient of natural numbers, with a sign. -/
def nearestFloat (negative : Bool) (num den : Nat) : Float :=
  Float.ofBits (UInt64.ofNat (nearestBits num den + if negative then Binary64.signBit else 0))

/-- The floating-point number nearest to a natural number, unless that is greater than all of
them. -/
def nearestFloat? (n : Nat) : Option Float :=
  if nearestBits n 1 < 2047 * Binary64.mantissas then some (nearestFloat false n 1) else none

/-- The infinity with a sign. -/
def infinity (negative : Bool) : Float := nearestFloat negative (Nat.pow 2 1024) 1

/-- The floating-point number nearest to `digits · 10 ^ exponent`. Far beyond either end of the
range the power of ten is not formed. -/
def nearestDecimal (negative : Bool) (digits : Nat) (exponent : Int) : Float :=
  let size : Int := (Nat.toDigits 10 digits).length
  if digits = 0 ∨ size + exponent < -400 then nearestFloat negative 0 1
  else if 400 < size + exponent then infinity negative
  else if 0 ≤ exponent then nearestFloat negative (digits * Nat.pow 10 exponent.toNat) 1
  else nearestFloat negative digits (Nat.pow 10 exponent.natAbs)

end TreeSchema
