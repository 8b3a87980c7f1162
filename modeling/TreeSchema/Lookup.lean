import TreeSchema.Value.Key
import TreeSchema.Number.Integer

/-!
# Looking up the value of a field

A field of a container is looked up under its key as written, and then under the key's other
spelling: an integer and its decimal text are one key. A mapping is searched by its keys, a list or
a tuple by positions, so only an integer finds anything there.

The other spelling is not symmetric. A text that consists of decimal digits, of any script, is read
as a number, but a text with a sign is not, and several texts are read to one number, while each
number is written as one text. All spellings are made before anything is looked up. So a key with
more digits than a number may have is refused even where the key as written would be found.
-/

namespace TreeSchema

namespace Value

/-- The spellings of a key, the one as written first. -/
def spellings : Value → Except NumeralFault (List Value)
  | text s =>
    if Text.isDecimal s then do return [text s, int (← readDecimal s.toList)]
    else .ok [text s]
  | int n => do return [int n, text (← decimal n)]
  | key => .ok [key]

/-- What a container holds under a key, spelled as it is. -/
def at? : (container key : Value) → Option Value
  | mapping entries, key => entry? key entries
  | list items, int i | tuple items, int i => if 0 ≤ i then items[i.toNat]? else none
  | _, _ => none

/-- What a container holds under a key, by the first spelling that finds something. -/
def lookup (container key : Value) : Except NumeralFault (Option Value) := do
  return (← key.spellings).findSome? container.at?

end Value

end TreeSchema
