import TreeSchema.Text.Utf8
import TreeSchema.Yaml.Cursor
import TreeSchema.Yaml.Token

/-!
# Names, tags and directives of YAML

Readers for what is written in words around the nodes of a document: the names of anchors, the
handles and ends of tags, and the directives. Each gives what it read and the place after it.

Each of these words has characters of its own, and what may follow it is fixed too, so a word that
is followed by anything else is malformed, and not a shorter word. Escapes in a tag are octets, and
a run of them must be a text in UTF-8 by itself. The numbers of a version are read like any other
number: they may have more digits than a number is allowed to have, and then it is that fault which
is told, not one of the text.
-/

namespace TreeSchema.Yaml

/-- Reads a name: at least one word character. -/
def readWord (problem : Problem) (cur : Cursor) : Except Fault (String × Cursor) :=
  let (cs, after) := cur.takeWhile isWordChar
  if cs.isEmpty then .error (.malformed problem) else .ok (String.ofList cs, after)

/-- Reads the name of an anchor or alias after its indicator. -/
def readName (cur : Cursor) : Except Fault (String × Cursor) := do
  let (name, after) ← readWord .badName cur
  let ends := isBlankGap after.peek ||
    after.peek.any fun c => ['?', ':', ',', ']', '\x7d', '%', '@', '\x60'].contains c
  if ends then return (name, after) else throw (.malformed .badName)

/-! ## Tags -/

/-- Whether a character may stand in a tag. -/
def isTagChar (c : Char) : Bool :=
  isWordChar c || ";/?:@&=+$,.!~*'()[]%".toList.contains c

/-- The bytes of escapes in a tag, and the place after them. Each byte is two digits after a percent
sign. -/
def tagEscapes (cur : Cursor) : Except Fault (List UInt8 × Cursor) :=
  match h : cur.rest with
  | '%' :: a :: b :: _ =>
    match Text.hexNumber? [a, b] with
    | none => .error (.malformed .badTag)
    | some n =>
      have : (cur.advance 3).rest.length < cur.rest.length := by
        simp only [Cursor.rest_advance, h, List.drop_succ_cons, List.drop_zero, List.length_cons]
        omega
      do
        let (bytes, after) ← tagEscapes (cur.advance 3)
        return (UInt8.ofNat n :: bytes, after)
  | '%' :: _ => .error (.malformed .badTag)
  | _ => .ok ([], cur)
termination_by cur.rest.length

/-- The characters of a tag from a cursor on, its escapes read as UTF-8. -/
def tagChars (cur : Cursor) : Except Fault (List Char × Cursor) := do
  let (cs, after) := cur.takeWhile fun c => isTagChar c && c ≠ '%'
  if after.peek ≠ some '%' then return (cs, after)
  let (bytes, afterEscapes) ← tagEscapes after
  match Text.Utf8.decode bytes with
  | .error _ => throw (.malformed .badTag)
  | .ok escaped =>
    if afterEscapes.rest.length < cur.rest.length then
      let (more, last) ← tagChars afterEscapes
      return (cs ++ escaped.toList ++ more, last)
    else throw (.malformed .badTag)
termination_by cur.rest.length

/-- Reads the end of a tag: at least one character. -/
def readTagEnd (cur : Cursor) : Except Fault (String × Cursor) := do
  if !cur.peek.any isTagChar then throw (.malformed .badTag)
  let (cs, after) ← tagChars cur
  return (String.ofList cs, after)

/-- Reads a handle: an exclamation mark alone, or a word between two of them. -/
def readHandle (cur : Cursor) : Except Fault (String × Cursor) := do
  if cur.peek ≠ some '!' then throw (.malformed .badTag)
  if cur.next.peek = some ' ' then return ("!", cur.next)
  let (word, after) := cur.next.takeWhile isWordChar
  if after.peek ≠ some '!' then throw (.malformed .badTag)
  return ("!" ++ String.ofList word ++ "!", after.next)

/-- Whether a second exclamation mark ends the handle of a tag that begins with one. -/
def hasHandle (cur : Cursor) : Bool :=
  ((cur.next.takeWhile fun c => c ≠ '!' && c ≠ ' ' && !isBreak c).2.peek) = some '!'

/-- Reads a tag: written out in full between angle brackets, the exclamation mark alone, or a handle
and an end. -/
def readTag (cur : Cursor) : Except Fault (Token × Cursor) := do
  let (token, after) ←
    if cur.next.peek = some '<' then do
      let (suffix, after) ← readTagEnd (cur.advance 2)
      if after.peek ≠ some '>' then throw (.malformed .badTag)
      pure (Token.tag none suffix, after.next)
    else if isBlankGap cur.next.peek then
      pure (Token.tag none "!", cur.next)
    else do
      let (handle, start) ← if hasHandle cur then readHandle cur else pure ("!", cur.next)
      let (suffix, after) ← readTagEnd start
      pure (Token.tag (some handle) suffix, after)
  if isGap after.peek then return (token, after) else throw (.malformed .badTag)

/-! ## Directives -/

/-- Reads the number of a version. -/
def readVersionNumber (cur : Cursor) : Except Fault (Nat × Cursor) := do
  let (cs, after) := cur.takeWhile fun c => '0' ≤ c && c ≤ '9'
  if cs.isEmpty then throw (.malformed .badDirective)
  let n ← (readDecimal cs).mapError .numeral
  return (n, after)

/-- Reads the version of the language. -/
def readVersion (cur : Cursor) : Except Fault (Directive × Cursor) := do
  let (major, dot) ← readVersionNumber cur.skipSpaces
  if dot.peek ≠ some '.' then throw (.malformed .badDirective)
  let (minor, after) ← readVersionNumber dot.next
  if isGap after.peek then return (.version major minor, after)
  else throw (.malformed .badDirective)

/-- Reads a handle and what it stands for. -/
def readHandleDirective (cur : Cursor) : Except Fault (Directive × Cursor) := do
  let (handle, afterHandle) ← readHandle cur.skipSpaces
  if afterHandle.peek ≠ some ' ' then throw (.malformed .badDirective)
  let (expansion, after) ← readTagEnd afterHandle.skipSpaces
  if isGap after.peek then return (.handle handle expansion, after)
  else throw (.malformed .badDirective)

/-- Reads a directive after its indicator, up to the end of its line. -/
def readDirective (cur : Cursor) : Except Fault (Directive × Cursor) := do
  let (name, afterName) ← readWord .badDirective cur
  if !isGap afterName.peek then throw (.malformed .badDirective)
  let (directive, after) ←
    if name = "YAML" then readVersion afterName
    else if name = "TAG" then readHandleDirective afterName
    else pure (.other, (afterName.takeWhile fun c => !isBreak c).2)
  match after.endHeader? with
  | some last => return (directive, last)
  | none => throw (.malformed .badDirective)

end TreeSchema.Yaml
