import TreeSchema.Text.Hexadecimal
import TreeSchema.Text.Pieces

/-!
# What a plain scalar means

A plain scalar without a tag is of the first kind whose form its text has: a truth value, a number,
a merge key, a null, a timestamp or the value key; any other text is just text (`Tag.ofPlain`). A
line feed at the end of the text does not count.

The forms are those of version 1.1 of the language, and they are wider than those of most formats:
words such as `yes` are truth values, `1:30` is a number in sixties, digits may be separated by low
lines, and a number that begins with a zero is octal. The order of the forms matters where two of
them overlap. What has one of these forms is of that kind even if there is no such value, an
impossible date for example, and it is left to the reader of the kind to refuse it.
-/

namespace TreeSchema.Yaml

/-- The tags that have a meaning. -/
inductive Tag where
  | null
  | bool
  | int
  | float
  | binary
  | timestamp
  | omap
  | pairs
  | set
  | str
  | seq
  | map
  | merge
  | value
  /-- Any other tag. -/
  | other (text : String)
  deriving DecidableEq

namespace Tag

/-- The start of the tags that every document knows. -/
def standard : String := "tag:yaml.org,2002:"

/-- The tags with a meaning, by the ends of their texts. -/
def named : List (String × Tag) :=
  [("null", null), ("bool", bool), ("int", int), ("float", float), ("binary", binary),
    ("timestamp", timestamp), ("omap", omap), ("pairs", pairs), ("set", set), ("str", str),
    ("seq", seq), ("map", map), ("merge", merge), ("value", value)]

/-- The tag with a text. -/
def ofText (s : String) : Tag :=
  match named.find? fun e => standard ++ e.1 = s with
  | some (_, t) => t
  | none => other s

end Tag

namespace Plain

/-- Whether a character is a digit or the separator of digits. -/
def isDigitOrLow (c : Char) : Bool := c.isDigit || c = '_'

/-- A text without the sign in front of it. -/
def dropSign : List Char → List Char
  | '-' :: r | '+' :: r => r
  | cs => cs

/-- Whether the text is made of one or more characters that pass a test. -/
def someOf (p : Char → Bool) (cs : List Char) : Bool := !cs.isEmpty && cs.all p

/-- Whether the text is empty, or an exponent with its sign. -/
def isExponent : List Char → Bool
  | [] => true
  | e :: s :: ds => (e = 'e' || e = 'E') && (s = '-' || s = '+') && someOf Char.isDigit ds
  | _ => false

/-- Whether a piece is a digit, or two of which the first one is less than six. -/
def isSixty : List Char → Bool
  | [d] => d.isDigit
  | [t, d] => '0' ≤ t && t ≤ '5' && d.isDigit
  | _ => false

/-- Whether a text is a number in sixties: digits, and after each colon a number below sixty. -/
def isSixties (cs : List Char) : Bool :=
  match Text.pieces ':' cs with
  | first :: more =>
    first.head?.any Char.isDigit && first.all isDigitOrLow && !more.isEmpty && more.all isSixty
  | [] => false

/-- Whether a text is the name of a truth value. -/
def isBool (s : String) : Bool :=
  ["yes", "Yes", "YES", "no", "No", "NO", "true", "True", "TRUE", "false", "False", "FALSE",
    "on", "On", "ON", "off", "Off", "OFF"].contains s

/-- Whether a text is a floating-point number: decimal with a point, in sixties with a point, an
infinity or not a number. -/
def isFloat (cs : List Char) : Bool :=
  let body := dropSign cs
  let whole := body.takeWhile isDigitOrLow
  let startsDigit := whole.head?.any Char.isDigit
  let decimal :=
    match body.dropWhile isDigitOrLow with
    | '.' :: r => startsDigit && isExponent (r.dropWhile isDigitOrLow)
    | _ => false
  let fraction :=
    match cs with
    | '.' :: d :: r => d.isDigit && isExponent (r.dropWhile isDigitOrLow)
    | _ => false
  let sixties :=
    match body.dropWhile (· ≠ '.') with
    | '.' :: r => isSixties (body.takeWhile (· ≠ '.')) && r.all isDigitOrLow
    | _ => false
  decimal || fraction || sixties || [".inf", ".Inf", ".INF"].contains (String.ofList body) ||
    [".nan", ".NaN", ".NAN"].contains (String.ofList cs)

/-- Whether a text is an integer: binary, octal, decimal, hexadecimal or in sixties. -/
def isInt (cs : List Char) : Bool :=
  let body := dropSign cs
  let isOctal (c : Char) : Bool := ('0' ≤ c && c ≤ '7') || c = '_'
  match body with
  | ['0'] => true
  | '0' :: 'b' :: r => someOf (fun c => c = '0' || c = '1' || c = '_') r
  | '0' :: 'x' :: r => someOf (fun c => (Text.hexValue? c).isSome || c = '_') r
  | '0' :: r => someOf isOctal r
  | c :: _ => (c.isDigit && body.all isDigitOrLow) || isSixties body
  | [] => false

/-- The parts of a timestamp as they are written. -/
structure Timestamp where
  year : List Char
  month : List Char
  day : List Char
  /-- The hour, the minute, the second and the fraction of a second. -/
  time : Option (List Char × List Char × List Char × List Char) := none
  /-- The mark of universal time, or the sign, the hours and the minutes of the distance from it. -/
  zone : Option (Char × List Char × List Char) := none

/-- Takes from `least` up to `most` digits off the front of a text. -/
def takeDigits (least most : Nat) (cs : List Char) : Option (List Char × List Char) :=
  let ds := (cs.take most).takeWhile Char.isDigit
  if ds.length < least then none else some (ds, cs.drop ds.length)

/-- Takes a character off the front of a text. -/
def takeChar (c : Char) : List Char → Option (List Char)
  | d :: r => if c = d then some r else none
  | [] => none

/-- The zone at the end of a timestamp. -/
def timestampZone (cs : List Char) : Option (Option (Char × List Char × List Char)) :=
  match cs.dropWhile fun c => c = ' ' || c = '\t' with
  | [] => if cs.isEmpty then some none else none
  | ['Z'] => some (some ('Z', [], []))
  | s :: r =>
    if s = '-' ∨ s = '+' then do
      let (hours, rest) ← takeDigits 1 2 r
      match rest with
      | [] => some (some (s, hours, []))
      | _ =>
        let (minutes, last) ← takeDigits 2 2 (← takeChar ':' rest)
        if last.isEmpty then some (some (s, hours, minutes)) else none
    else none

/-- The time and the zone of a timestamp, after its date. -/
def timestampTime (t : Timestamp) (cs : List Char) : Option Timestamp := do
  let start :=
    match cs with
    | 'T' :: r | 't' :: r => r
    | _ => cs.dropWhile fun c => c = ' ' || c = '\t'
  if start.length = cs.length then none
  let (hour, r) ← takeDigits 1 2 start
  let (minute, r) ← takeDigits 2 2 (← takeChar ':' r)
  let (second, r) ← takeDigits 2 2 (← takeChar ':' r)
  let (fraction, r) :=
    match r with
    | '.' :: r' => (r'.takeWhile Char.isDigit, r'.dropWhile Char.isDigit)
    | _ => ([], r)
  let zone ← timestampZone r
  return { t with time := some (hour, minute, second, fraction), zone }

/-- The parts of a text that is a timestamp. -/
def timestamp? (cs : List Char) : Option Timestamp := do
  let (year, r) ← takeDigits 4 4 cs
  let (month, r) ← takeDigits 1 2 (← takeChar '-' r)
  let (day, r) ← takeDigits 1 2 (← takeChar '-' r)
  let t : Timestamp := { year, month, day }
  if r.isEmpty then return t else timestampTime t r

/-- Whether a plain scalar is a timestamp. A date alone has two digits for the month and the day. -/
def isTimestamp (cs : List Char) : Bool :=
  match timestamp? cs with
  | some t => t.time.isSome || cs.length = 10
  | none => false

/-- A text without a line feed at its end, if something is left then. -/
def dropLineFeed (cs : List Char) : List Char :=
  if 1 < cs.length ∧ cs.getLast? = some '\n' then cs.dropLast else cs

end Plain

/-- The tag of a plain scalar. -/
def Tag.ofPlain (text : String) : Tag :=
  let cs := Plain.dropLineFeed text.toList
  let s := String.ofList cs
  if Plain.isBool s then bool
  else if Plain.isFloat cs then float
  else if Plain.isInt cs then int
  else if s = "<<" then merge
  else if ["", "~", "null", "Null", "NULL"].contains s then null
  else if Plain.isTimestamp cs then timestamp
  else if s = "=" then value
  else str

/-- The tag of a scalar, by the one that it was given. A plain scalar without a tag, and any scalar
with the exclamation mark alone, means what its text means. -/
def Tag.ofScalar (given : Option String) (plain : Bool) (text : String) : Tag :=
  match given with
  | none => if plain then ofPlain text else str
  | some "!" => ofPlain text
  | some t => ofText t

/-- The tag of a collection, by the one that it was given. The exclamation mark alone asks for the
usual one. -/
def Tag.ofCollection (usual : Tag) (given : Option String) : Tag :=
  match given with
  | none | some "!" => usual
  | some t => ofText t

end TreeSchema.Yaml
