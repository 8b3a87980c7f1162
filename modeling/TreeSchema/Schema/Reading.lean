import TreeSchema.Schema.Basic
import TreeSchema.Value.Key
import TreeSchema.Value.Literal

/-!
# Schemas from descriptions

A schema is described by a data tree. A mapping with the key `*` is a collection, any other mapping
gives fields, and a leaf is a type expression. A question mark in front of a key makes its field
optional, and one in front of a type expression lets a null pass.

A description that makes no sense is read all the same. A text that is no type expression is read to
one that no value matches, with the reason, and a wildcard with other keys beside it to a collection
that remembers them; both are told of when a value is matched, if matching gets there. Only what has
to be written down for this can fail: a leaf that is no text is quoted, and a key that is no text is
turned into one, so an integer in either place may be too long.

Of the mark and the key behind it the mark is cut off once. What is left may begin with a question
mark again, and may be empty.
-/

namespace TreeSchema

/-- The key that stands for every element. -/
def wildcard : String := "*"

/-- A text without the question mark in front of it, and whether there was one. -/
def splitMark (s : String) : Bool × String :=
  match s.toList with
  | '?' :: cs => (true, String.ofList cs)
  | _ => (false, s)

/-- A text with a question mark in front loses it. -/
theorem splitMark_marked (s : String) : splitMark ("?" ++ s) = (true, s) := by
  have hs : ("?" ++ s).toList = '?' :: s.toList := String.toList_append
  unfold splitMark
  rw [hs]
  exact congrArg (Prod.mk true) String.ofList_toList

/-- A text that does not begin with a question mark is left as it is. -/
theorem splitMark_of_head_ne {s : String} (h : s.toList.head? ≠ some '?') :
    splitMark s = (false, s) := by
  unfold splitMark
  split
  · rename_i cs hcs
    rw [hcs] at h
    exact absurd rfl h
  · rfl

namespace TypeExpr

/-- The mark between the two types of a pair. -/
def arrow : List Char := [' ', '=', '>', ' ']

/-- Whether the arrow occurs in a text. -/
def hasArrow (cs : List Char) : Bool :=
  match cs with
  | [] => false
  | c :: r => arrow.isPrefixOf (c :: r) || hasArrow r

/-- Whether a character may stand in the name of a type. -/
def isNameChar (c : Char) : Bool := 'a' ≤ c && c ≤ 'z'

/-- The two names that an arrow joins, with nothing before or after them but a line feed at
the end. -/
def pairNames? (cs : List Char) : Option (String × String) :=
  let key := cs.takeWhile isNameChar
  let rest := cs.dropWhile isNameChar
  if key.isEmpty || !arrow.isPrefixOf rest then none
  else
    let value := (rest.drop arrow.length).takeWhile isNameChar
    let tail := (rest.drop arrow.length).dropWhile isNameChar
    if value.isEmpty || !(tail.isEmpty || tail == ['\n']) then none
    else some (String.ofList key, String.ofList value)

/-- What a text without its mark asks for. -/
def formOf (s : String) : TypeForm :=
  if hasArrow s.toList then
    match pairNames? s.toList with
    | none => .unknown (.unknownType s)
    | some (k, v) =>
      match Primitive.ofName? k, Primitive.ofName? v with
      | some key, some value => .pairs key value
      | _, _ => .unknown (.unknownPair k v)
  else
    match Primitive.ofName? s with
    | some p => .primitive p
    | none => .unknown (.unknownType s)

/-- Reads the text of a type expression. -/
def ofText (s : String) : TypeExpr :=
  let (nullable, rest) := splitMark s
  ⟨s, nullable, formOf rest⟩

/-- Reads a leaf of a description. Only texts are type expressions; the fault of another value shows
its literal. -/
def ofValue : Value → Except NumeralFault TypeExpr
  | .text s => .ok (ofText s)
  | v => do
    let raw ← v.literal
    return ⟨raw, false, .unknown (.unknownType raw)⟩

end TypeExpr

namespace FieldKey

/-- Reads the key of a field. -/
def ofValue : Value → Except NumeralFault FieldKey
  | .text s =>
    let (optional, name) := splitMark s
    .ok ⟨name, optional, .text name⟩
  | key => do return ⟨← key.shown, false, key⟩

end FieldKey

/-- Whether a key is the wildcard. -/
def isWildcard (key : Value) : Bool := (Value.text wildcard).sameKey key

/-- Of the texts there is one wildcard. -/
theorem isWildcard_text_iff {s : String} : isWildcard (.text s) = true ↔ s = wildcard := by
  show ([KeyAtom.text wildcard] == [.text s]) = true ↔ _
  rw [beq_iff_eq]
  exact ⟨fun h => by cases h; rfl, fun h => by rw [h]⟩

/-- The texts of the keys beside the wildcard. -/
def siblingTexts (entries : List (Value × Value)) : Except NumeralFault (List String) :=
  (entries.filter fun e => !isWildcard e.1).mapM fun e => e.1.shown

namespace Schema

mutual

/-- Reads a description. -/
def ofDescription : Value → Except NumeralFault Schema
  | .mapping entries => do
    match ← ofWildcard entries with
    | some item => return .collection (← siblingTexts entries) item
    | none => return .fields (← ofEntries entries)
  | v => do return .leaf (← TypeExpr.ofValue v)

/-- Reads what stands at the wildcard, if there is one. -/
def ofWildcard : List (Value × Value) → Except NumeralFault (Option Schema)
  | [] => .ok none
  | (k, v) :: es => if isWildcard k then return some (← ofDescription v) else ofWildcard es

/-- Reads the entries of a mapping as fields. -/
def ofEntries : List (Value × Value) → Except NumeralFault (List (FieldKey × Schema))
  | [] => .ok []
  | (k, v) :: es => do
    return (← FieldKey.ofValue k, ← ofDescription v) :: (← ofEntries es)

end

end Schema

end TreeSchema
