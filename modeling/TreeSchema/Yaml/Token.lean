import TreeSchema.Yaml.Basic

/-!
# Tokens of YAML

What a text of YAML is made of: marks of documents and collections, names, tags and scalars. The
starts and ends of block collections are tokens too, though the text shows them by indentation
alone. Where a text cannot be read any further a last token says why, so that what stands before it
can still be looked at.
-/

namespace TreeSchema.Yaml

/-- A directive in front of a document. -/
inductive Directive where
  /-- The version of the language. -/
  | version (major minor : Nat)
  /-- A handle that stands for the start of tags. -/
  | handle (handle expansion : String)
  /-- A directive of another name, which means nothing. -/
  | other
  deriving DecidableEq

/-- A token. -/
inductive Token where
  | directive (d : Directive)
  | documentStart
  | documentEnd
  | sequenceStart
  | mappingStart
  | blockEnd
  | flowSequenceStart
  | flowSequenceEnd
  | flowMappingStart
  | flowMappingEnd
  | flowEntry
  | blockEntry
  | key
  | value
  | alias (name : String)
  | anchor (name : String)
  /-- A tag with its handle, or one written out in full. -/
  | tag (handle : Option String) (suffix : String)
  /-- A scalar, and whether it is plain. -/
  | scalar (text : String) (plain : Bool)
  /-- The place from which on the text cannot be read, always the last token. -/
  | unreadable (fault : Fault)
  deriving DecidableEq

end TreeSchema.Yaml
