import TreeSchema.Calendar

/-!
# Data trees

A data tree is what a decoder of JSON or YAML yields, or what a caller builds by hand. Mappings keep
the order of their entries, and their keys are values themselves. `Value.type` names the type of a
value in the words of schemas.
-/

namespace TreeSchema

/-- A data tree. -/
inductive Value where
  | null
  | bool (b : Bool)
  | int (n : Int)
  | real (x : Float)
  | text (s : String)
  | list (items : List Value)
  | tuple (items : List Value)
  | mapping (entries : List (Value × Value))
  | bytes (octets : List UInt8)
  | set (items : List Value)
  | date (d : Date)
  | moment (m : Moment)

/-- The types that a schema can ask for. -/
inductive Primitive where
  | integer
  | double
  | boolean
  | string
  deriving DecidableEq, Repr

namespace Primitive

/-- All the primitive types, in the order in which they are listed. -/
def all : List Primitive := [integer, double, boolean, string]

/-- The name of a primitive type. -/
def name : Primitive → String
  | integer => "integer"
  | double => "double"
  | boolean => "boolean"
  | string => "string"

/-- The primitive type with a name. -/
def ofName? (s : String) : Option Primitive :=
  all.find? fun p => p.name == s

/-- A type is found by its own name. -/
theorem ofName?_name (p : Primitive) : ofName? p.name = some p := by
  cases p <;> decide

/-- The type that a name finds is the one that bears it. -/
theorem ofName?_eq_some_iff {s : String} {p : Primitive} : ofName? s = some p ↔ p.name = s := by
  constructor
  · intro h
    have := List.find?_some h
    simpa using this
  · rintro rfl
    exact ofName?_name p

end Primitive

/-- The type of a value, in the words of schemas. All containers are of one type. -/
inductive ValueType where
  | null
  | primitive (p : Primitive)
  | array
  | bytes
  | set
  | date
  | datetime
  deriving DecidableEq, Repr

/-- The name of a type. -/
def ValueType.name : ValueType → String
  | null => "null"
  | primitive p => p.name
  | array => "array"
  | bytes => "bytes"
  | set => "set"
  | date => "date"
  | datetime => "datetime"

namespace Value

/-- The type of a value. -/
def type : Value → ValueType
  | null => .null
  | bool _ => .primitive .boolean
  | int _ => .primitive .integer
  | real _ => .primitive .double
  | text _ => .primitive .string
  | list _ | tuple _ | mapping _ => .array
  | bytes _ => .bytes
  | set _ => .set
  | date _ => .date
  | moment _ => .datetime

/-- The pairs of a container: the entries of a mapping, and the items of a list or a tuple under
their positions. A value of another kind is no container. -/
def pairs? : Value → Option (List (Value × Value))
  | mapping entries => some entries
  | list items | tuple items => some (items.zipIdx.map fun (v, i) => (.int i, v))
  | _ => none

/-- Whether a value is a container. -/
def isContainer (v : Value) : Bool := v.pairs?.isSome

/-- The containers are the values whose type is the one of containers. -/
theorem isContainer_iff_type {v : Value} : v.isContainer = true ↔ v.type = .array := by
  cases v <;> simp [isContainer, pairs?, type]

/-- The name of the class of a value, as error texts give it. -/
def className : Value → String
  | null => "NoneType"
  | bool _ => "bool"
  | int _ => "int"
  | real _ => "float"
  | text _ => "str"
  | list _ => "list"
  | tuple _ => "tuple"
  | mapping _ => "dict"
  | bytes _ => "bytes"
  | set _ => "set"
  | date _ => "date"
  | moment _ => "datetime"

end Value

end TreeSchema
