import TreeSchema.Yaml.Scalar
import TreeSchema.Yaml.Tag

/-!
# The tokens of a text

The lexer cuts a text into tokens. Block collections start and end by indentation, and a mapping may
start with a simple key, which is known to be one only when its colon is reached. So the lexer
remembers, for each level of flow collections, the place of the last token that may turn out to be a
simple key (`SimpleKey`), and puts the tokens of the key and of a new mapping in front of it when
the colon comes.

The tokens so far are kept in the state, the last one first, since what is put in front of another
one goes near the end. All steps but the last one use up characters, so the number of characters
bounds the number of steps, and the recursion on it needs no other argument (`Lexer.run`).

A text is cut to its end before anything is made of its tokens. Where this fails, there is one more
token that says why (`Token.unreadable`), behind the tokens that were settled by then
(`Lexer.settled`): those in front of every place where a key may still have begun. It matters how
many these are. What puts the tokens together may find something wrong with them before it comes to
the last one, and of two faults the one that is met first is told. A token at which a key may have
begun is not handed on, since it cannot be told yet what stands in front of it.
-/

namespace TreeSchema.Yaml

/-- A token that may turn out to be a simple key: how many tokens lie before it, where it starts,
and whether it must be a key because it stands at the indentation of a block mapping. -/
structure SimpleKey where
  position : Nat
  index : Nat
  line : Nat
  column : Nat
  required : Bool

/-- The most characters that a simple key may span. -/
def SimpleKey.longest : Nat := 1024

/-- The state of the lexer. -/
structure Lexer where
  cursor : Cursor
  /-- The tokens so far, the last one first. -/
  tokens : List Token := []
  /-- How many tokens there are so far. -/
  count : Nat := 0
  /-- The columns of the open block collections, the innermost one first. -/
  columns : List Nat := []
  /-- The possible simple key of the innermost level. -/
  simpleKey : Option SimpleKey := none
  /-- The possible simple keys of the levels around it, one for each open flow collection. -/
  outerKeys : List (Option SimpleKey) := []
  /-- Whether a simple key may start at the cursor. -/
  keyAllowed : Bool := true
  finished : Bool := false

namespace Lexer

/-- Whether the cursor is inside a flow collection. -/
def inFlow (s : Lexer) : Bool := !s.outerKeys.isEmpty

/-- The column of the innermost block collection, or the one before the first column. -/
def indent (s : Lexer) : Int := (s.columns.head?.map Int.ofNat).getD (-1)

/-- Adds a token. -/
def push (s : Lexer) (t : Token) : Lexer :=
  { s with tokens := t :: s.tokens, count := s.count + 1 }

/-- Puts tokens in front of the one at a position. -/
def insertAt (s : Lexer) (position : Nat) (ts : List Token) : Lexer :=
  let later := s.count - position
  { s with
    tokens := s.tokens.take later ++ ts.reverse ++ s.tokens.drop later
    count := s.count + ts.length }

/-- The tokens in front of the one at a position, in their order. -/
def tokensBefore (s : Lexer) (position : Nat) : List Token :=
  (s.tokens.drop (s.count - position)).reverse

/-- Moves the cursor. -/
def moveTo (s : Lexer) (cur : Cursor) : Lexer := { s with cursor := cur }

/-! ## Simple keys -/

/-- Whether a possible simple key is too far behind the cursor. -/
def isStale (s : Lexer) (key : SimpleKey) : Bool :=
  key.line ≠ s.cursor.line || SimpleKey.longest < s.cursor.index - key.index

/-- Forgets a possible simple key. A required one must not be forgotten. -/
def forget : Option SimpleKey → Except Fault (Option SimpleKey)
  | some key => if key.required then .error (.malformed .openSimpleKey) else .ok none
  | none => .ok none

/-- Forgets a possible simple key that is too far behind. -/
def forgetStale (s : Lexer) (key : Option SimpleKey) : Except Fault (Option SimpleKey) :=
  if key.any s.isStale then forget key else .ok key

/-- Forgets the possible simple keys of all levels that are too far behind. -/
def dropStale (s : Lexer) : Except Fault Lexer := do
  let outerKeys ← s.outerKeys.mapM s.forgetStale
  return { s with simpleKey := ← s.forgetStale s.simpleKey, outerKeys }

/-- Forgets the possible simple key of the innermost level. -/
def dropKey (s : Lexer) : Except Fault Lexer := do
  return { s with simpleKey := ← forget s.simpleKey }

/-- Notes that the next token may be a simple key, if one may start here. -/
def noteKey (s : Lexer) : Except Fault Lexer := do
  if !s.keyAllowed then return s
  let s ← s.dropKey
  return { s with simpleKey := some {
    position := s.count
    index := s.cursor.index
    line := s.cursor.line
    column := s.cursor.column
    required := !s.inFlow && s.indent = s.cursor.column } }

/-! ## Indentation -/

/-- Closes the block collections that are deeper than a column. Inside flow collections indentation
does not count. -/
def unwindTo (s : Lexer) (column : Int) : Lexer :=
  if s.inFlow then s
  else
    let closed := (s.columns.takeWhile fun c => column < Int.ofNat c).length
    { s with
      columns := s.columns.drop closed
      tokens := List.replicate closed .blockEnd ++ s.tokens
      count := s.count + closed }

/-- Makes a column the innermost one, if it is deeper, and says whether it was. -/
def indentTo (s : Lexer) (column : Nat) : Bool × Lexer :=
  if s.indent < column then (true, { s with columns := column :: s.columns }) else (false, s)

/-- Opens a block collection at the cursor, unless one is open at its column. -/
def openBlock (s : Lexer) (start : Token) : Lexer :=
  if s.inFlow then s
  else
    let (isNew, s) := s.indentTo s.cursor.column
    if isNew then s.push start else s

/-! ## The kinds of tokens -/

/-- Passes over spaces, comments and line breaks. A line break outside flow collections allows a
simple key. -/
def skipGap (s : Lexer) : Lexer :=
  let start := s.cursor.skipSpaces.skipComment
  match h : start.lineBreak? with
  | none => s.moveTo start
  | some (_, after) =>
    have : after.rest.length < s.cursor.rest.length :=
      Nat.lt_of_lt_of_le (Cursor.length_of_lineBreak? h)
        (Nat.le_trans (Cursor.length_skipComment_le _) (Cursor.length_skipSpaces_le _))
    skipGap { s with cursor := after, keyAllowed := s.keyAllowed || !s.inFlow }
termination_by s.cursor.rest.length

/-- The end of the text. -/
def endStream (s : Lexer) : Except Fault Lexer := do
  let s ← (s.unwindTo (-1)).dropKey
  return { s with keyAllowed := false, finished := true }

/-- A directive. -/
def directive (s : Lexer) : Except Fault Lexer := do
  let s ← (s.unwindTo (-1)).dropKey
  let (d, after) ← readDirective s.cursor.next
  return { s with keyAllowed := false, cursor := after }.push (.directive d)

/-- A mark between documents. -/
def documentMark (s : Lexer) (t : Token) : Except Fault Lexer := do
  let s ← (s.unwindTo (-1)).dropKey
  return { s with keyAllowed := false, cursor := s.cursor.advance 3 }.push t

/-- The start of a flow collection. -/
def openFlow (s : Lexer) (t : Token) : Except Fault Lexer := do
  let s ← s.noteKey
  return { s with
    outerKeys := s.simpleKey :: s.outerKeys
    simpleKey := none
    keyAllowed := true
    cursor := s.cursor.next }.push t

/-- The end of a flow collection. -/
def closeFlow (s : Lexer) (t : Token) : Except Fault Lexer := do
  let s ← s.dropKey
  match s.outerKeys with
  | [] => throw (.malformed .unexpectedCharacter)
  | key :: keys =>
    return { s with
      simpleKey := key, outerKeys := keys, keyAllowed := false, cursor := s.cursor.next }.push t

/-- A comma in a flow collection. -/
def flowEntry (s : Lexer) : Except Fault Lexer := do
  let s ← s.dropKey
  return { s with keyAllowed := true, cursor := s.cursor.next }.push .flowEntry

/-- The dash of a sequence entry. -/
def blockEntry (s : Lexer) : Except Fault Lexer := do
  if !s.inFlow && !s.keyAllowed then throw (.malformed .entryNotAllowed)
  let s ← (s.openBlock .sequenceStart).dropKey
  return { s with keyAllowed := true, cursor := s.cursor.next }.push .blockEntry

/-- The question mark of a key. -/
def explicitKey (s : Lexer) : Except Fault Lexer := do
  if !s.inFlow && !s.keyAllowed then throw (.malformed .keyNotAllowed)
  let s ← (s.openBlock .mappingStart).dropKey
  return { s with keyAllowed := !s.inFlow, cursor := s.cursor.next }.push .key

/-- The colon after a simple key: the key, and perhaps a mapping, start in front of it. -/
def valueOfSimple (s : Lexer) (key : SimpleKey) : Lexer :=
  let (isNew, s) := if s.inFlow then (false, s) else s.indentTo key.column
  let s := s.insertAt key.position (if isNew then [.mappingStart, .key] else [.key])
  { s with simpleKey := none, keyAllowed := false, cursor := s.cursor.next }.push .value

/-- The colon of a value. -/
def value (s : Lexer) : Except Fault Lexer := do
  match s.simpleKey with
  | some key => return s.valueOfSimple key
  | none =>
    if !s.inFlow && !s.keyAllowed then throw (.malformed .valueNotAllowed)
    let s ← (s.openBlock .mappingStart).dropKey
    return { s with keyAllowed := !s.inFlow, cursor := s.cursor.next }.push .value

/-- A token that may be a simple key, and after which none may start. -/
def atom (s : Lexer) (read : Cursor → Except Fault (Token × Cursor)) : Except Fault Lexer := do
  let s ← s.noteKey
  let (t, after) ← read s.cursor
  return { s with keyAllowed := false, cursor := after }.push t

/-- A quoted scalar. -/
def quoted (s : Lexer) (quote : Char) : Except Fault Lexer :=
  s.atom fun cur => do
    let (cs, after) ← Scalar.quotedBody quote cur.next
    return (.scalar (String.ofList cs) false, after)

/-- A block scalar. -/
def blockScalar (s : Lexer) (folded : Bool) : Except Fault Lexer := do
  let s ← s.dropKey
  let (cs, after) ← Scalar.block folded s.indent s.cursor.next
  return { s with keyAllowed := true, cursor := after }.push (.scalar (String.ofList cs) false)

/-- A plain scalar. A simple key may start after it when it ended with a line break. -/
def plain (s : Lexer) : Except Fault Lexer := do
  let s ← s.noteKey
  let p := Scalar.plain s.inFlow (s.indent + 1) s.cursor
  let text := String.ofList p.chars
  return { s with keyAllowed := p.broken, cursor := p.after }.push (.scalar text true)

/-- Whether a plain scalar may start with the character `c`. -/
def startsPlain (s : Lexer) (c : Char) : Bool :=
  !(isBlankGap (some c) || "-?:,[]\x7b\x7d#&*!|>'\"%@\x60".toList.contains c) ||
    (!isBlankGap s.cursor.next.peek && (c = '-' || (!s.inFlow && (c = '?' || c = ':'))))

/-- Reads the token that starts with the character `c` at the cursor. -/
def token (s : Lexer) (c : Char) : Except Fault Lexer :=
  let atStart := s.cursor.column = 0
  let spaced := isBlankGap s.cursor.next.peek
  if c = '%' ∧ atStart then s.directive
  else if atStart ∧ s.cursor.atMark '-' then s.documentMark .documentStart
  else if atStart ∧ s.cursor.atMark '.' then s.documentMark .documentEnd
  else if c = '[' then s.openFlow .flowSequenceStart
  else if c = '\x7b' then s.openFlow .flowMappingStart
  else if c = ']' then s.closeFlow .flowSequenceEnd
  else if c = '\x7d' then s.closeFlow .flowMappingEnd
  else if c = ',' then s.flowEntry
  else if c = '-' ∧ spaced then s.blockEntry
  else if c = '?' ∧ (s.inFlow ∨ spaced) then s.explicitKey
  else if c = ':' ∧ (s.inFlow ∨ spaced) then s.value
  else if c = '*' then s.atom fun cur => do
    let (name, after) ← readName cur.next
    return (.alias name, after)
  else if c = '&' then s.atom fun cur => do
    let (name, after) ← readName cur.next
    return (.anchor name, after)
  else if c = '!' then s.atom readTag
  else if c = '|' ∧ !s.inFlow then s.blockScalar false
  else if c = '>' ∧ !s.inFlow then s.blockScalar true
  else if c = '\'' ∨ c = '"' then s.quoted c
  else if s.startsPlain c then s.plain
  else .error (.malformed .unexpectedCharacter)

/-- Reads the next token, or the end of the text. -/
def step (s : Lexer) : Except Fault Lexer := do
  let s ← s.skipGap.dropStale
  let s := s.unwindTo s.cursor.column
  match s.cursor.peek with
  | none => s.endStream
  | some c => s.token c

/-- The tokens that are settled: those before every token that may still turn out to be a simple
key. -/
def settled (s : Lexer) : List Token :=
  s.tokensBefore ((s.simpleKey :: s.outerKeys).foldl (fun n key =>
    match key with
    | some k => if s.isStale k then n else min n k.position
    | none => n) s.count)

/-- The settled tokens, and that the text cannot be read any further. -/
def stopAt (s : Lexer) (fault : Fault) : List Token := s.settled ++ [.unreadable fault]

/-- Reads tokens up to the end of the text, or as far as it can be read. Every step but the last one
takes at least one character, so more steps than characters are never needed. -/
def run : (steps : Nat) → Lexer → List Token
  | 0, s => s.stopAt (.malformed .unexpectedEnd)
  | steps + 1, s =>
    match s.step with
    | .error fault => s.stopAt fault
    | .ok after => if after.finished then after.tokens.reverse else run steps after

end Lexer

/-- The tokens of a text. A byte order mark in front does not count, and a text that holds a
character that is not allowed is not read at all. -/
def tokens (text : String) : List Token :=
  let cs := text.toList
  if cs.all isAllowed then
    let start : Cursor := { rest := cs }
    let first := if start.peek = some '\uFEFF' then start.next else start
    Lexer.run (cs.length + 1) { cursor := first }
  else [.unreadable (.malformed .unprintableCharacter)]

end TreeSchema.Yaml
