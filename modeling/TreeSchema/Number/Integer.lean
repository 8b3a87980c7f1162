import TreeSchema.Text.Blank
import TreeSchema.Text.Digit
import TreeSchema.Text.Hexadecimal
import TreeSchema.Text.Quoted

/-!
# Integers as text

Integers are written in decimal (`decimal`) and read from digits of any script (`readDecimal`). A
numeral of more than `digitLimit` digits is refused, in writing as in reading, whatever its value.
`readNumeral` reads a numeral in a given base with blanks and a sign around its digits.
-/

namespace TreeSchema

/-- The most digits that a decimal numeral may have. -/
def digitLimit : Nat := 4300

/-- The reasons why a numeral is refused. -/
inductive NumeralFault where
  /-- A numeral to be read has more digits than `digitLimit`. -/
  | tooLongToRead (digits : Nat)
  /-- An integer to be written would need more digits than `digitLimit`. -/
  | tooLongToWrite
  /-- The text is not a numeral in the base. -/
  | notInteger (base : Nat) (text : String)
  /-- The text is not a number. -/
  | notReal (text : String)
  /-- The text has no character at all where its first one is looked at. -/
  | empty
  /-- An integer is greater than every floating-point number. -/
  | beyondReal
  deriving DecidableEq

namespace NumeralFault

/-- The wording of a refused numeral. -/
def message : NumeralFault → String
  | tooLongToRead digits =>
    s!"Exceeds the limit ({digitLimit} digits) for integer string conversion: value has " ++
      s!"{digits} digits; use sys.set_int_max_str_digits() to increase the limit"
  | tooLongToWrite =>
    s!"Exceeds the limit ({digitLimit} digits) for integer string conversion; " ++
      "use sys.set_int_max_str_digits() to increase the limit"
  | notInteger base text =>
    let shown := String.ofList ((Text.quotedChars text.toList).take 200)
    s!"invalid literal for int() with base {base}: {shown}"
  | notReal text =>
    let shown := Text.quoted text
    s!"could not convert string to float: {shown}"
  | empty => "string index out of range"
  | beyondReal => "int too large to convert to float"

end NumeralFault

/-- The decimal digits of a natural number. -/
def decimalDigits (n : Nat) : List Char :=
  Nat.toDigits 10 n

/-- The decimal text of an integer, as characters. -/
def decimalChars (n : Int) : List Char :=
  if n < 0 then '-' :: decimalDigits n.natAbs else decimalDigits n.natAbs

/-- The decimal text of an integer within the limit. -/
def decimal (n : Int) : Except NumeralFault String :=
  if digitLimit < (decimalDigits n.natAbs).length then .error .tooLongToWrite
  else .ok (String.ofList (decimalChars n))

/-- The number that digits spell in a base, the leading one first. -/
def ofDigits (base : Nat) (ds : List Nat) : Nat :=
  ds.foldl (fun n d => base * n + d) 0

/-- The number that decimal digits of any script spell. The limit counts leading zeros too. -/
def readDecimal (cs : List Char) : Except NumeralFault Nat :=
  if digitLimit < cs.length then .error (.tooLongToRead cs.length)
  else .ok (ofDigits 10 (cs.filterMap Text.digitValue?))

/-- The value of a digit of any script, or of a letter as a digit beyond nine. -/
def alphanumericValue? (c : Char) : Option Nat :=
  (Text.digitValue? c).or (Text.hexValue? c)

/-- The letter that may follow a leading zero to show the base. -/
def baseMark? : Nat → Option Char
  | 2 => some 'b'
  | 8 => some 'o'
  | 16 => some 'x'
  | _ => none

/-- Digits without the mark of their base. -/
def dropBaseMark (base : Nat) : List Char → List Char
  | '0' :: c :: cs => if baseMark? base = some c.toLower then cs else '0' :: c :: cs
  | cs => cs

/-- The values of the digits in front of a text, and the text after them. -/
def leadingDigits (base : Nat) : List Char → List Nat × List Char
  | [] => ([], [])
  | c :: cs =>
    match (alphanumericValue? c).filter (· < base) with
    | some d =>
      let (ds, rest) := leadingDigits base cs
      (d :: ds, rest)
    | none => ([], c :: cs)

/-- Reads an integer in a base: blanks, a sign, perhaps the mark of the base, and at least one
digit. Only the decimal base has a limit on the digits, and it holds even where something else
follows them. -/
def readNumeral (base : Nat) (text : String) : Except NumeralFault Int :=
  let cs := Text.trimBlanks text.toList
  let (sign, cs) : Int × List Char :=
    match cs with
    | '-' :: r => (-1, r)
    | '+' :: r => (1, r)
    | _ => (1, cs)
  let (ds, rest) := leadingDigits base (dropBaseMark base cs)
  if base = 10 ∧ digitLimit < ds.length then .error (.tooLongToRead ds.length)
  else if ds.isEmpty || !rest.isEmpty then .error (.notInteger base text)
  else .ok (sign * ofDigits base ds)

end TreeSchema
