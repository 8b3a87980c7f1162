import TreeSchema.Stack
import TreeSchema.Value.Literal

/-!
# The shape of schema documents

A schema document is a mapping whose keys are texts of at least one character and whose values are
texts and such mappings again. `Document.violationsAt` lists every place where a document offends
against this, from the root down: in a mapping first the keys that offend, then what offends at and
below each of its values.

Documents come in two forms. A caller hands over a data tree; a text can also be read to a document
that leads back to itself. The walk does not care: all that it needs to know of a value is what it
sees there (`Document.View`), and both forms can be viewed. What is neither a text nor a mapping is
told of by its literal and is not looked into.

The walk goes down one level for each mapping inside another one, and it can come to an end in the
middle for two reasons (`ShapeFault`): there is no room for another level, or something is to be
told of that has no literal.
-/

namespace TreeSchema

/-- Where a document offends, and how. -/
inductive Offence where
  /-- A key is not a text. -/
  | keyNotText (literal : String)
  /-- A key is the empty text. -/
  | emptyKey
  /-- A value is neither a text nor a mapping. -/
  | wrongValue (literal : String)
  deriving DecidableEq

/-- The wording of an offence. -/
def Offence.message : Offence → String
  | keyNotText literal => s!"{literal} is not of type 'string'"
  | emptyKey => "'' should be non-empty"
  | wrongValue literal => s!"{literal} is not of type 'string', 'object'"

/-- Why the shape of a document cannot be told. -/
inductive ShapeFault where
  /-- An integer that is to be told of has no text. -/
  | numeral (fault : NumeralFault)
  /-- There is no room to go down so far. -/
  | tooDeep
  deriving DecidableEq

namespace Document

/-- What the walk sees of a value, where `σ` is how it comes to the values of a mapping. -/
inductive View (σ : Type) where
  | text
  | mapping (entries : List (Value × σ))
  /-- Neither a text nor a mapping: the literal that it is told of by, if it has one. -/
  | other (literal : Except ShapeFault String)

/-- The text of a path of segments from the root. -/
def pathText (segments : List String) : String :=
  let joined := ".".intercalate segments
  if joined.isEmpty then "(root)" else joined

/-- The path below a path. A null key adds nothing to it. -/
def below (segments : List String) : Value → Except NumeralFault (List String)
  | .null => .ok segments
  | key => do return segments ++ [← key.shown]

/-- One line for an offence at a path. -/
def line (segments : List String) (o : Offence) : String :=
  pathText segments ++ ": " ++ o.message

/-- The offences of a key in a mapping. -/
def keyOffences : Value → Except NumeralFault (List Offence)
  | .text s => .ok (if s.isEmpty then [.emptyKey] else [])
  | key => do return [.keyNotText (← key.literal)]

/-- The lines for the keys of a mapping. -/
def keyViolations {σ : Type} (segments : List String) (entries : List (Value × σ)) :
    Except NumeralFault (List String) := do
  return (← entries.mapM fun e => keyOffences e.1).flatten.map (line segments)

/-- The lines for the values of a mapping, by what gives the lines of a value at a path. -/
def valueViolations {σ : Type} (inside : List String → σ → Except ShapeFault (List String))
    (segments : List String) (entries : List (Value × σ)) : Except ShapeFault (List String) := do
  return (← entries.mapM fun e => do
    inside (← (below segments e.1).mapError .numeral) e.2).flatten

/-- The offences of a value at a path and below it, each as one line. The walk goes into not more
than `depth` mappings, one inside the other. -/
def violationsAt {σ : Type} (view : σ → View σ) :
    (depth : Nat) → List String → σ → Except ShapeFault (List String)
  | depth, segments, x =>
    match view x, depth with
    | .text, _ => .ok []
    | .other literal, _ => do return [line segments (.wrongValue (← literal))]
    | .mapping _, 0 => .error .tooDeep
    | .mapping entries, depth + 1 => do
      let keys ← (keyViolations segments entries).mapError .numeral
      return keys ++ (← valueViolations (violationsAt view depth) segments entries)

end Document

namespace Value

/-- The literal of a value, if there is room to put it together. -/
def quote (room : Room) (v : Value) : Except ShapeFault String :=
  if room.Fits v.levels then v.literal.mapError .numeral else .error .tooDeep

/-- What the walk sees of a data tree. -/
def view (room : Room) : Value → Document.View Value
  | text _ => .text
  | mapping entries => .mapping entries
  | v => .other (v.quote room)

/-- The lines for all offences of a data tree. No mapping of it lies deeper than it has levels. -/
def violations (stack : Stack) (v : Value) : Except ShapeFault (List String) :=
  Document.violationsAt (view stack.quote) (stack.shape.atMost v.levels) [] v

end Value

end TreeSchema
