import TreeSchema.Json.Basic
import TreeSchema.Number.RealText
import TreeSchema.Report
import TreeSchema.Text.Hexadecimal
import TreeSchema.Text.Surrogate

/-!
# Writing JSON

A document is written on one line, or with a line for each item and member (`Layout`). Strings are
written in ASCII: any other character is escaped by its units of sixteen bits.

A layout has a unit of indentation, which may be any text; only a unit that consists of spaces gives
a text that can be read again. Between two members on one line a space follows the comma, and
between two lines it does not, as there the next line begins. An empty array or object is written on
one line in both layouts.
-/

namespace TreeSchema.Json

/-- How a document is laid out. -/
inductive Layout where
  /-- All on one line. -/
  | oneLine
  /-- A line for each part, indented by `unit` for each level. -/
  | lines (unit : String)
  deriving DecidableEq

/-- The escape of a character in a string. -/
def escapeChar (c : Char) : List Char :=
  if c = '"' then ['\\', '"']
  else if c = '\\' then ['\\', '\\']
  else if c = '\n' then ['\\', 'n']
  else if c = '\r' then ['\\', 'r']
  else if c = '\t' then ['\\', 't']
  else if c = '\x0c' then ['\\', 'f']
  else if c = '\x08' then ['\\', 'b']
  else if 0x20 ≤ c.toNat && c.toNat ≤ 0x7E then [c]
  else (Text.units c).flatMap fun u => '\\' :: 'u' :: Text.hexDigits 4 u

/-- A string between its quotes. -/
def stringChars (s : String) : List Char :=
  '"' :: s.toList.flatMap escapeChar ++ ['"']

/-- What stands between two parts, apart from the line of the second one. -/
def Layout.separator : Layout → List Char
  | oneLine => [',', ' ']
  | lines _ => [',']

/-- The start of a line at a depth. -/
def Layout.lineStart (l : Layout) (depth : Nat) : List Char :=
  match l with
  | oneLine => []
  | lines unit => '\n' :: (List.replicate depth unit.toList).flatten

/-- The floating-point numbers that have no digits are written as words. -/
def realStyle : RealStyle :=
  { RealStyle.literal with nan := "NaN", infinity := "Infinity" }

mutual

/-- The text of a document at a depth. -/
def chars (l : Layout) (depth : Nat) : Json → List Char
  | null => "null".toList
  | bool b => if b then "true".toList else "false".toList
  | int n => decimalChars n
  | real x => (realText realStyle x).toList
  | text s => stringChars s
  | array [] => ['[', ']']
  | array (j :: js) =>
    '[' :: l.lineStart (depth + 1) ++ chars l (depth + 1) j ++ itemChars l (depth + 1) js ++
      l.lineStart depth ++ [']']
  | object [] => ['\x7b', '\x7d']
  | object ((name, j) :: ms) =>
    '\x7b' :: l.lineStart (depth + 1) ++ stringChars name ++ [':', ' '] ++ chars l (depth + 1) j ++
      memberChars l (depth + 1) ms ++ l.lineStart depth ++ ['\x7d']

/-- The texts of the items after the first one. -/
def itemChars (l : Layout) (depth : Nat) : List Json → List Char
  | [] => []
  | j :: js => l.separator ++ l.lineStart depth ++ chars l depth j ++ itemChars l depth js

/-- The texts of the members after the first one. -/
def memberChars (l : Layout) (depth : Nat) : List (String × Json) → List Char
  | [] => []
  | (name, j) :: ms =>
    l.separator ++ l.lineStart depth ++ stringChars name ++ [':', ' '] ++ chars l depth j ++
      memberChars l depth ms

end

/-- The text of a document. -/
def encode (l : Layout) (j : Json) : String :=
  String.ofList (chars l 0 j)

/-- A layout with as many spaces for each level; a number below one gives lines without any. -/
def Layout.spaces (n : Int) : Layout :=
  .lines (String.ofList (List.replicate n.toNat ' '))

/-- A report as a document: an object of objects, by path and by name of the kind. -/
def ofReport (r : Report) : Json :=
  .object (r.rows.map fun (path, kinds) =>
    (path, .object (kinds.map fun (kind, message) => (kind.name, .text message))))

end TreeSchema.Json
