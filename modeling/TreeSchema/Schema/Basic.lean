import TreeSchema.Value.Basic

/-!
# Schemas

A schema is a tree of three kinds of nodes: fields, the wildcard of a collection, and type
expressions at the leaves. A type expression that does not parse is kept with its fault, because a
fault counts only once a value meets it.
-/

namespace TreeSchema

/-- Why a type expression does not parse. -/
inductive TypeFault where
  /-- The text is no type, nor a pair of types. -/
  | unknownType (text : String)
  /-- The text is a pair of names, but not both are types. -/
  | unknownPair (key value : String)
  deriving DecidableEq

/-- The wording of a type expression that does not parse. -/
def TypeFault.message : TypeFault → String
  | unknownType text => s!"Unknown value type: {text}."
  | unknownPair key value => s!"The key and value types are unknown: {key} => {value}."

/-- What a type expression asks for. -/
inductive TypeForm where
  /-- A value of a primitive type. -/
  | primitive (p : Primitive)
  /-- A container whose keys and values have the two primitive types. -/
  | pairs (key value : Primitive)
  /-- Nothing that could be met. -/
  | unknown (fault : TypeFault)
  deriving DecidableEq

/-- The text of a pair of types. -/
def pairText (key value : Primitive) : String :=
  key.name ++ " => " ++ value.name

/-- A type expression: its text, whether it lets a null pass, and what it asks for. -/
structure TypeExpr where
  raw : String
  nullable : Bool
  form : TypeForm
  deriving DecidableEq

/-- The key of a field: the key as written, its text as a path segment, and whether the field may be
absent. -/
structure FieldKey where
  name : String
  optional : Bool
  key : Value

/-- A schema. -/
inductive Schema where
  /-- The fields that a container must have. -/
  | fields (fs : List (FieldKey × Schema))
  /-- What each element of a container must match. Other keys beside the wildcard are siblings,
  which make the definition invalid. -/
  | collection (siblings : List String) (item : Schema)
  /-- A leaf. -/
  | leaf (expr : TypeExpr)

end TreeSchema
