import TreeSchema.Number.Integer
import TreeSchema.Number.Shortest

/-!
# Floating-point numbers as text

A number is written with the digits of its shortest decimal. How the digits are laid out is a
`RealStyle`: the positions of the point that are written without an exponent, and the names of the
numbers that have no digits. `readReal` reads a number back.
-/

namespace TreeSchema

/-- How the digits of a floating-point number are laid out. -/
structure RealStyle where
  /-- The point stands at most this many places before the first digit without an exponent. -/
  placesBefore : Nat
  /-- The point stands at most this many places after the first digit without an exponent. -/
  placesAfter : Nat
  /-- The name of what is not a number. -/
  nan : String
  /-- The name of the infinity. -/
  infinity : String

/-- Literals have an exponent from `1e+16` on and below `0.0001`. -/
def RealStyle.literal : RealStyle where
  placesBefore := 3
  placesAfter := 16
  nan := "nan"
  infinity := "inf"

namespace RealText

/-- The digits `ds` with the point after the first `point` of them, and at least one place on each
side of it. -/
def positional (ds : List Char) (point : Int) : List Char :=
  if point ≤ 0 then '0' :: '.' :: List.replicate point.natAbs '0' ++ ds
  else
    let whole := ds.take point.toNat
    let places := ds.drop point.toNat
    whole ++ List.replicate (point.toNat - ds.length) '0' ++
      '.' :: (if places.isEmpty then ['0'] else places)

/-- The digits `ds` with the point after the first one, and an exponent of a sign and at least two
digits. -/
def withExponent (ds : List Char) (point : Int) : List Char :=
  let exponent := point - 1
  let sign := if exponent < 0 then '-' else '+'
  let digits := decimalDigits exponent.natAbs
  let padded := if digits.length < 2 then '0' :: digits else digits
  ds.take 1 ++ (if ds.length ≤ 1 then [] else '.' :: ds.drop 1) ++ 'e' :: sign :: padded

/-- The text of a number that is taken apart. -/
def ofParts (style : RealStyle) : Binary64 → List Char
  | .nan => style.nan.toList
  | .infinite negative => (if negative then ['-'] else []) ++ style.infinity.toList
  | .finite negative mantissa exponent =>
    let sign := if negative then ['-'] else []
    if mantissa = 0 then sign ++ ['0', '.', '0']
    else
      let d := Shortest.shortest mantissa exponent
      let ds := decimalDigits d.digits
      let point := d.exponent + ds.length
      sign ++ (if -(style.placesBefore : Int) ≤ point ∧ point ≤ style.placesAfter
        then positional ds point else withExponent ds point)

end RealText

/-- The text of a floating-point number. -/
def realText (style : RealStyle) (x : Float) : String :=
  String.ofList (RealText.ofParts style (Binary64.ofFloat x))

/-- A decimal numeral split into its parts: the digits before and after the point, and the
exponent. -/
structure RealNumeral where
  whole : List Char
  places : List Char
  exponent : Int

namespace RealNumeral

/-- The value of a digit, or zero. -/
def digitOrZero (c : Char) : Nat := (Text.digitValue? c).getD 0

/-- The number nearest to a numeral. -/
def toFloat (negative : Bool) (n : RealNumeral) : Float :=
  let digits := ofDigits 10 ((n.whole ++ n.places).map digitOrZero)
  nearestDecimal negative digits (n.exponent - n.places.length)

/-- The exponent that a signed numeral spells. -/
def readExponent (cs : List Char) : Int :=
  match cs with
  | '-' :: r => -(ofDigits 10 (r.map digitOrZero) : Int)
  | '+' :: r => ofDigits 10 (r.map digitOrZero)
  | _ => ofDigits 10 (cs.map digitOrZero)

/-- Splits a numeral into its parts: digits with perhaps a point among them, and perhaps an
exponent. There is a digit beside the point and in the exponent. -/
def parse? (cs : List Char) : Option RealNumeral :=
  let isDigit := fun c => (Text.digitValue? c).isSome
  let whole := cs.takeWhile isDigit
  let (places, rest) :=
    match cs.dropWhile isDigit with
    | '.' :: r => (r.takeWhile isDigit, r.dropWhile isDigit)
    | r => ([], r)
  if whole.isEmpty && places.isEmpty then none
  else
    match rest with
    | [] => some ⟨whole, places, 0⟩
    | c :: r =>
      let digits := match r with
        | '-' :: t | '+' :: t => t
        | _ => r
      if (c = 'e' ∨ c = 'E') ∧ !digits.isEmpty ∧ digits.all isDigit then
        some ⟨whole, places, readExponent r⟩
      else none

end RealNumeral

/-- Not a number. -/
def notANumber : Float := Float.ofBits 0x7FF8000000000000

/-- Reads a floating-point number: blanks, a sign, and a numeral or the name of a number without
digits in letters of either case. -/
def readReal (text : String) : Except NumeralFault Float :=
  let cs := Text.trimBlanks text.toList
  let (negative, cs) :=
    match cs with
    | '-' :: r => (true, r)
    | '+' :: r => (false, r)
    | _ => (false, cs)
  let name := String.ofList (cs.map Char.toLower)
  if name = "nan" then .ok notANumber
  else if name = "inf" ∨ name = "infinity" then .ok (infinity negative)
  else
    match RealNumeral.parse? cs with
    | some n => .ok (n.toFloat negative)
    | none => .error (.notReal text)

end TreeSchema
