import TreeSchema.Calendar
import TreeSchema.Stack
import TreeSchema.Text.Quoted

/-!
# YAML: characters and faults

The classes of characters that the grammar of YAML tells apart, and the reasons why a text is not
read as a document. The end of the text belongs to some of the classes, so they are told of an
optional character.
-/

namespace TreeSchema.Yaml

/-- What is wrong with a text that is no document. -/
inductive Problem where
  | unprintableCharacter
  | unexpectedCharacter
  | unexpectedEnd
  | openSimpleKey
  | entryNotAllowed
  | keyNotAllowed
  | valueNotAllowed
  | badDirective
  | badName
  | badTag
  | badEscape
  | badBlockHeader
  | separatorInScalar
  | noNode
  | unclosedCollection
  | unknownHandle
  | secondDocument
  | undefinedAlias
  | repeatedAnchor
  | unknownTag
  | wrongKind
  | badMerge
  | unhashableKey
  | badBinary
  deriving DecidableEq

/-- The wording of a problem. -/
def Problem.message : Problem → String
  | unprintableCharacter => "the text holds a character that is not printable"
  | unexpectedCharacter => "found a character that cannot start any token"
  | unexpectedEnd => "found the end of the text inside a quoted scalar"
  | openSimpleKey => "could not find the colon of a simple key"
  | entryNotAllowed => "a sequence entry is not allowed here"
  | keyNotAllowed => "a mapping key is not allowed here"
  | valueNotAllowed => "a mapping value is not allowed here"
  | badDirective => "a directive is malformed"
  | badName => "the name of an anchor or alias is malformed"
  | badTag => "a tag is malformed"
  | badEscape => "an escape is malformed"
  | badBlockHeader => "the header of a block scalar is malformed"
  | separatorInScalar => "found a document separator inside a quoted scalar"
  | noNode => "expected the content of a node"
  | unclosedCollection => "expected the end of a collection"
  | unknownHandle => "the handle of a tag is not defined"
  | secondDocument => "expected a single document"
  | undefinedAlias => "an alias is not defined"
  | repeatedAnchor => "an anchor is defined twice"
  | unknownTag => "a tag is not known"
  | wrongKind => "a node is not of the kind that its tag asks for"
  | badMerge => "expected a mapping, or mappings, to merge"
  | unhashableKey => "a key is a collection"
  | badBinary => "binary data is malformed"

/-- Why a text is not read as a document. -/
inductive Fault where
  /-- The text is malformed. -/
  | malformed (problem : Problem)
  /-- A number is not one, or has too many digits. -/
  | numeral (fault : NumeralFault)
  /-- A timestamp names no date or moment. -/
  | calendar (fault : CalendarFault)
  /-- The code of an escape is beyond the last character. -/
  | codeRange (code : Nat)
  /-- A scalar with the tag of truth values is none. -/
  | notBoolean (text : String)
  /-- A scalar with the tag of timestamps is none. -/
  | notTimestamp
  /-- A mapping with the tag of timestamps stands for the value of its value key. -/
  | timestampInMapping
  /-- There is no room on the stack for as many nodes as lead to each other. -/
  | tooDeep
  deriving DecidableEq

/-- The wording of a fault. -/
def Fault.message : Fault → String
  | malformed problem => problem.message
  | numeral fault => fault.message
  | calendar fault => fault.message
  | codeRange code =>
    if code < 0x80000000 then "chr() arg not in range(0x110000)"
    else "Python int too large to convert to C int"
  | notBoolean text => Text.quoted text
  | notTimestamp => "'NoneType' object has no attribute 'groupdict'"
  | timestampInMapping => "expected string or bytes-like object, got 'list'"
  | tooDeep => Room.exceeded

/-! ## Classes of characters -/

/-- Whether a character may stand in a document. -/
def isAllowed (c : Char) : Bool :=
  c = '\t' || c = '\n' || c = '\r' || c = '\u0085' || (0x20 ≤ c.toNat && c.toNat ≤ 0x7E) ||
    (0xA0 ≤ c.toNat && c.toNat ≤ 0xFFFD) || 0x10000 ≤ c.toNat

/-- Whether a character breaks a line. -/
def isBreak (c : Char) : Bool :=
  c = '\n' || c = '\r' || c = '\u0085' || c = '\u2028' || c = '\u2029'

/-- Whether a line ends at a character. -/
def endsLine (c : Option Char) : Bool := c.all isBreak

/-- Whether a character is a space, or a line ends at it. -/
def isGap (c : Option Char) : Bool := c.all fun c => c = ' ' || isBreak c

/-- Whether a character is a space or a tab, or a line ends at it. -/
def isBlankGap (c : Option Char) : Bool := c.all fun c => c = ' ' || c = '\t' || isBreak c

/-- Whether a character is one of the brackets and commas of flow collections. -/
def isFlowMark (c : Char) : Bool := [',', '[', ']', '\x7b', '\x7d'].contains c

/-- Whether a character may stand in the name of an anchor, of a directive or of a handle. -/
def isWordChar (c : Char) : Bool :=
  ('0' ≤ c && c ≤ '9') || ('A' ≤ c && c ≤ 'Z') || ('a' ≤ c && c ≤ 'z') || c = '-' || c = '_'

end TreeSchema.Yaml
