import TreeSchema.Lookup
import TreeSchema.Report
import TreeSchema.Schema.Basic

/-!
# Matching data against a schema

Matching walks the schema and the data together and lists what it finds, in the order of the schema
and, below a wildcard, of the elements (`Schema.findings`). Each finding carries the path of its
place in the schema. Nothing is converted: a value matches a type only if it has it. The walk fails
only when the key of a field is a numeral too long to be read.

The recursion is on the schema and not on the data, so the walk ends whatever the data is, and it
sees no more of the data than the schema asks for (`Schema.reach`). This is what allows data to be
given down to some depth only.

The findings are a list and not a report. A report keeps one message for each kind at each path, and
which one it keeps depends on the order of the findings, so the list is what is proved about, and a
report is made of it at the end.
-/

namespace TreeSchema

/-- The path of a segment below a path. The root has the empty path and is not written. -/
def joinPath (parent segment : String) : String :=
  if parent.isEmpty then segment else parent ++ "." ++ segment

namespace Finding

/-- A container was expected. -/
def notContainer (path : String) (v : Value) : Finding where
  path := path
  kind := .typeMismatch
  message := "The value must be an array as defined in the schema, got '" ++ v.type.name ++ "'."

/-- A container with typed keys and values was expected. -/
def notPairs (path : String) (key value : Primitive) (v : Value) : Finding where
  path := path
  kind := .typeMismatch
  message := "The value must be an array of type '" ++ pairText key value ++ "', got '" ++
    v.type.name ++ "'."

/-- A key or a value of a container has another type. -/
def wrongPair (path : String) (key value : Primitive) : Finding where
  path := path
  kind := .typeMismatch
  message := "The key and value must be of type '" ++ pairText key value ++ "'."

/-- A primitive type was expected. -/
def notPrimitive (path : String) (p : Primitive) (v : Value) : Finding where
  path := path
  kind := .typeMismatch
  message := "The value must be of type '" ++ p.name ++ "', got '" ++ v.type.name ++ "'."

/-- A type expression does not parse. -/
def unknownType (path : String) (fault : TypeFault) : Finding where
  path := path
  kind := .typeUnknown
  message := fault.message

/-- A required field is absent. -/
def absentKey (path : String) : Finding where
  path := path
  kind := .keyNotFound
  message := "The key defined in the schema is not found in the data."

/-- A wildcard has other keys beside it. -/
def crowdedCollection (path : String) : Finding where
  path := path
  kind := .collectionDefinition
  message := "Definition of the collection must be the only definition of the level."

end Finding

/-- What a type expression finds in a value. Every wrong pair of a container counts, though the
report keeps one of them. -/
def TypeExpr.findings (e : TypeExpr) (v : Value) (path : String) : List Finding :=
  if e.nullable ∧ v.type = .null then []
  else
    match e.form with
    | .unknown fault => [.unknownType path fault]
    | .primitive p => if v.type = .primitive p then [] else [.notPrimitive path p v]
    | .pairs key value =>
      match v.pairs? with
      | none => [.notPairs path key value v]
      | some pairs =>
        (pairs.filter fun (k, x) => k.type ≠ .primitive key || x.type ≠ .primitive value).map
          fun _ => .wrongPair path key value

namespace Schema

mutual

/-- How far down matching goes into a value: to the values that a type expression meets, and to the
pairs of those that are containers. -/
def reach : Schema → Nat
  | .leaf _ => 1
  | .collection _ item => item.reach + 1
  | .fields fs => fieldReach fs + 1

/-- How far down matching goes into what a container holds for fields. -/
def fieldReach : List (FieldKey × Schema) → Nat
  | [] => 0
  | (_, s) :: fs => max s.reach (fieldReach fs)

end

mutual

/-- What a schema finds in a value at a path. -/
def findings : Schema → Value → String → Except NumeralFault (List Finding)
  | .leaf e, v, path => .ok (e.findings v path)
  | .collection siblings item, v, path =>
    match v.pairs? with
    | none => .ok [.notContainer path v]
    | some pairs =>
      let below := joinPath path "*"
      if siblings.isEmpty then do
        return (← pairs.mapM fun (_, x) => item.findings x below).flatten
      else .ok [.crowdedCollection below]
  | .fields fs, v, path =>
    if v.isContainer then fieldFindings fs v path else .ok [.notContainer path v]

/-- What the fields of a schema find in a container. An optional field that is absent finds
nothing. -/
def fieldFindings : List (FieldKey × Schema) → Value → String → Except NumeralFault (List Finding)
  | [], _, _ => .ok []
  | (key, s) :: fs, v, path => do
    let here ← match ← v.lookup key.key with
      | some x => s.findings x (joinPath path key.name)
      | none => pure (if key.optional then [] else [.absentKey (joinPath path key.name)])
    return here ++ (← fieldFindings fs v path)

end

end Schema

end TreeSchema
