import TreeSchema.Number.Integer
import TreeSchema.Text.Position
import TreeSchema.Value.Key

/-!
# JSON documents

A JSON document is a tree of its own: the names of an object are texts, and an object keeps its
members in order, repeated names included. `Json.toValue` makes it a data tree, in which a repeated
name keeps its place and takes the last value.
-/

namespace TreeSchema

/-- A JSON document. -/
inductive Json where
  | null
  | bool (b : Bool)
  | int (n : Int)
  | real (x : Float)
  | text (s : String)
  | array (items : List Json)
  | object (members : List (String × Json))

namespace Json

mutual

/-- The data tree of a document. -/
def toValue : Json → Value
  | null => .null
  | bool b => .bool b
  | int n => .int n
  | real x => .real x
  | text s => .text s
  | array items => .list (toValues items)
  | object members => .ofAssignments (toEntries members)

/-- The data trees of documents. -/
def toValues : List Json → List Value
  | [] => []
  | j :: js => j.toValue :: toValues js

/-- The members of an object as entries, in order. -/
def toEntries : List (String × Json) → List (Value × Value)
  | [] => []
  | (name, j) :: ms => (.text name, j.toValue) :: toEntries ms

end

/-- What is wrong at a place of a text that is no document. -/
inductive Problem where
  | noValue
  | noName
  | noColon
  | noComma
  | extraData
  | openString
  | controlCharacter
  | badEscape
  | badCodeEscape
  | byteOrderMark
  deriving DecidableEq

/-- The wording of a problem. -/
def Problem.message : Problem → String
  | noValue => "Expecting value"
  | noName => "Expecting property name enclosed in double quotes"
  | noColon => "Expecting ':' delimiter"
  | noComma => "Expecting ',' delimiter"
  | extraData => "Extra data"
  | openString => "Unterminated string starting at"
  | controlCharacter => "Invalid control character at"
  | badEscape => "Invalid \\escape"
  | badCodeEscape => "Invalid \\uXXXX escape"
  | byteOrderMark => "Unexpected UTF-8 BOM (decode using utf-8-sig)"

/-- Why a text is not read as a document. -/
inductive Fault where
  /-- The text is malformed at a position. -/
  | malformed (problem : Problem) (position : Text.Position)
  /-- A number has too many digits. -/
  | numeral (fault : NumeralFault)
  /-- There is no room on the stack for so many collections inside each other. -/
  | tooDeep
  deriving DecidableEq

/-- The wording of a malformed place. -/
def malformedMessage (problem : Problem) (position : Text.Position) : String :=
  problem.message ++ ": " ++ position.message

end Json

end TreeSchema
