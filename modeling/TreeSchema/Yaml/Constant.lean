import TreeSchema.Number.RealText
import TreeSchema.Text.Base64
import TreeSchema.Text.Lowercase
import TreeSchema.Value.Basic
import TreeSchema.Yaml.Basic
import TreeSchema.Yaml.Plain

/-!
# What a scalar is read to

The value of a scalar, by its tag and its text. A text that was given a tag of its own need not have
the form that its tag asks for, so each reader has faults.

The readers do not share one class of faults. A text that is no octets in base 64 is malformed, and
told as such. But a truth value that is none, a day that no month has, a number without digits or
with too many of them, and a timestamp of another form are not: whoever asked for the document gets
the fault of the reader itself, and none of these is a `Fault.malformed`.

Floating-point numbers in sixties are the one place where such numbers are added and multiplied. It
is done in the order of the places, from the least one on, and a weight that is beyond all
floating-point numbers is a fault even if nothing would be added for it.
-/

namespace TreeSchema.Yaml.Constant

/-- A numeral without the marks between its digits. -/
def withoutMarks (s : String) : String := String.ofList (s.toList.filter (· ≠ '_'))

/-- The characters of a numeral without the sign in front, and whether that was a minus. -/
def signed (s : String) : Except NumeralFault (Bool × List Char) :=
  match s.toList with
  | [] => .error .empty
  | '-' :: r => .ok (true, r)
  | '+' :: r => .ok (false, r)
  | r => .ok (false, r)

/-- The number that integers in sixties amount to, the greatest place first. -/
def ofSixties (ns : List Int) : Int := ns.foldl (fun n d => n * 60 + d) 0

/-- The magnitude of an integer without its sign. -/
def magnitude : List Char → Except NumeralFault Int
  | [] => .error .empty
  | ['0'] => .ok 0
  | '0' :: 'b' :: r => readNumeral 2 (String.ofList r)
  | '0' :: 'x' :: r => readNumeral 16 (String.ofList r)
  | '0' :: r => readNumeral 8 (String.ofList ('0' :: r))
  | cs => do
    let ns ← (Text.pieces ':' cs).mapM fun p => readNumeral 10 (String.ofList p)
    return ofSixties ns

/-- The integer that a text spells. -/
def integer (s : String) : Except NumeralFault Int := do
  let (negative, body) ← signed (withoutMarks s)
  let n ← magnitude body
  return if negative then -n else n

/-- The number that floating-point numbers in sixties amount to, the least place first. Each place
has a weight, which must be a floating-point number itself. -/
def ofReversedSixties (xs : List Float) : Except NumeralFault Float :=
  xs.zipIdx.foldlM (fun sum (x, place) =>
    match nearestFloat? (Nat.pow 60 place) with
    | some weight => .ok (sum + x * weight)
    | none => .error .beyondReal) (nearestFloat false 0 1)

/-- The sign of a floating-point number and its characters, letters in lower case. -/
def signedReal (s : String) : Except NumeralFault (Bool × List Char) :=
  signed (Text.lowercase (withoutMarks s))

/-- The name of what is not a number. -/
def nanName : List Char := ['.', 'n', 'a', 'n']

/-- Whether a text is the name of what is not a number, with a sign or without. -/
def namesNaN (s : String) : Bool :=
  match signedReal s with
  | .ok (_, body) => body = nanName
  | .error _ => false

/-- The floating-point number that a text spells. -/
def real (s : String) : Except NumeralFault Float := do
  let (negative, body) ← signedReal s
  if body = nanName then return notANumber
  let text := String.ofList body
  if text = ".inf" then return infinity negative
  let x ←
    match Text.pieces ':' body with
    | [_] => readReal text
    | parts => do
      let xs ← parts.mapM fun p => readReal (String.ofList p)
      ofReversedSixties xs.reverse
  return if negative then -x else x

/-- The truth value that a text names. -/
def truth (s : String) : Except Fault Bool :=
  let name := Text.lowercase s
  if ["yes", "true", "on"].contains name then .ok true
  else if ["no", "false", "off"].contains name then .ok false
  else .error (.notBoolean name)

/-- The number that the digits of a timestamp spell. -/
def field (cs : List Char) : Nat := ofDigits 10 (cs.filterMap Text.digitValue?)

/-- The microseconds that a fraction of a second amounts to. Digits beyond the sixth are dropped. -/
def microseconds (cs : List Char) : Nat :=
  let ds := cs.take 6
  field (ds ++ List.replicate (6 - ds.length) '0')

/-- The distance from universal time in seconds, by its sign, hours and minutes. -/
def distance : Char × List Char × List Char → Int
  | (sign, hours, minutes) =>
    let seconds : Int := field hours * 3600 + field minutes * 60
    if sign = '-' then -seconds else seconds

/-- The date or the moment that a text names. -/
def timestamp (cs : List Char) : Except Fault Value :=
  match Plain.timestamp? (Plain.dropLineFeed cs) with
  | none => .error .notTimestamp
  | some t =>
    let (year, month, day) := (field t.year, field t.month, field t.day)
    match t.time with
    | none => ((Date.make year month day).map .date).mapError .calendar
    | some (hour, minute, second, fraction) =>
      ((Moment.make year month day (field hour) (field minute) (field second)
        (microseconds fraction) (t.zone.map distance)).map .moment).mapError .calendar

/-- The octets that a text stands for. -/
def binary (cs : List Char) : Except Fault (List UInt8) :=
  match (if cs.all fun c => c.toNat < 0x80 then Text.Base64.decode? cs else none) with
  | some bytes => .ok bytes
  | none => .error (.malformed .badBinary)

/-- The reader for scalars of a tag, if it is one of scalars. -/
def reader? : Tag → Option (String → Except Fault Value)
  | .null => some fun _ => .ok .null
  | .bool => some fun s => (truth s).map .bool
  | .int => some fun s => ((integer s).map .int).mapError .numeral
  | .float => some fun s => ((real s).map .real).mapError .numeral
  | .binary => some fun s => (binary s.toList).map .bytes
  | .timestamp => some fun s => timestamp s.toList
  | .str => some fun s => .ok (.text s)
  | _ => none

end TreeSchema.Yaml.Constant
