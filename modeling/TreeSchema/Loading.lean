import TreeSchema.Document
import TreeSchema.Files.Basic
import TreeSchema.Format
import TreeSchema.Matcher

/-!
# Loading schemas

A matcher is made of a schema document: of a data tree (`Matcher.ofDocument`), or of a text in one
of the document formats, given inline or by a path (`Matcher.load`). A document that cannot be taken
is told by a `DefinitionFault`; what no document can be made of otherwise is a `Breakdown`.

A document is taken if nothing in it offends against the shape of schema documents, and then it is
read to a schema. It is the look at the shape that needs the stack: reading a schema takes less room
for a level and begins at the same place, so a document that comes through the one comes through the
other. A document that is a part of itself never gets that far. Where it leads back to itself
through mappings alone the look at its shape goes down for ever, and any other way leads through a
value that offends.
-/

namespace TreeSchema

/-- Why a schema document is not taken. -/
inductive DefinitionFault where
  /-- The document is no mapping but a value of another class. -/
  | notMapping (className : String)
  /-- Parts of the document offend against its shape; one line for each. -/
  | offences (lines : List String)
  /-- The text is malformed. -/
  | malformed (format : Format) (message : String)
  /-- There is no file where the source says. -/
  | absent (source : String)
  /-- The file is not UTF-8 text. -/
  | notUtf8 (source : String) (fault : Text.Utf8.Fault)
  deriving DecidableEq

namespace DefinitionFault

/-- The wording of a schema document that is not taken. -/
def message : DefinitionFault → String
  | notMapping className => s!"Schema must be a dict, got {className}"
  | offences lines => "Invalid schema document: " ++ "; ".intercalate lines
  | malformed format message => "Invalid " ++ format.title ++ " schema document: " ++ message
  | absent source => s!"Schema file not found: {source}"
  | notUtf8 source fault => "Schema file is not valid UTF-8: " ++ source ++ ": " ++ fault.message

/-- The places that offend, each as one line. -/
def violations : DefinitionFault → List String
  | notMapping _ => ["(root): not a mapping"]
  | offences lines => lines
  | _ => []

end DefinitionFault

/-- What ends a run without a message of its own. -/
inductive Breakdown where
  /-- A path leads to nothing that can be read. -/
  | access (path : Path) (fault : AccessFault)
  /-- A document holds what no value can be made of. -/
  | decoding (fault : DecodeFault)
  /-- An integer has no text. -/
  | numeral (fault : NumeralFault)
  /-- There is no room on the stack for the levels of a document. -/
  | tooDeep
  /-- A path was asked for and none was given. -/
  | noPath
  deriving DecidableEq

/-- The wording of what ends a run. -/
def Breakdown.message : Breakdown → String
  | access path fault => fault.message path
  | decoding fault => fault.message
  | numeral fault => fault.message
  | tooDeep => Room.exceeded
  | noPath => "expected str, bytes or os.PathLike object, not list"

/-- What a fault of looking at the shape of a document ends a run with. -/
def ShapeFault.breakdown : ShapeFault → Breakdown
  | numeral fault => .numeral fault
  | tooDeep => .tooDeep

/-- Why a schema is not loaded. -/
inductive LoadFault where
  | definition (fault : DefinitionFault)
  | breakdown (cause : Breakdown)
  deriving DecidableEq

/-- Where the text of a schema document comes from. -/
inductive Source where
  /-- The file at a path. -/
  | path (p : Path)
  /-- A text, which may name a file or be the document itself. -/
  | text (s : String)

namespace Source

/-- The path that a source is, or is taken for. -/
def toPath : Source → Path
  | path p => p
  | text s => .ofText s

/-- The text of a source. -/
def shown : Source → String
  | path p => p.text
  | text s => s

/-- Whether a source names a file of a format: it is a path, or it has a suffix of the format. -/
def namesFile (format : Format) : Source → Bool
  | path _ => true
  | text s => format.isSuffixOf (.ofText s)

/-- Whether a source may be the path of a file: it has a slash or a backslash. -/
def mayBePath (source : Source) : Bool :=
  source.shown.toList.any fun c => c = '/' || c = '\\'

/-- The text of the document. A source that may be a path is the document itself when there is no
such file, unless it names one. -/
def read (files : Files) (format : Format) (source : Source) : Except LoadFault String :=
  if source.namesFile format || source.mayBePath then
    match files.readText source.toPath with
    | .ok content => .ok content
    | .error (.access .absent) =>
      if source.namesFile format then .error (.definition (.absent source.shown))
      else .ok source.shown
    | .error (.access fault) => .error (.breakdown (.access source.toPath fault))
    | .error (.notUtf8 fault) => .error (.definition (.notUtf8 source.shown fault))
  else .ok source.shown

end Source

namespace Matcher

/-- The matcher of a document, if the document has the shape of one. -/
def ofDecoded (stack : Stack) (document : Decoded) : Except LoadFault Matcher :=
  match document.upTo 0 with
  | .mapping _ => do
    let lines ← (document.violations stack).mapError fun f => .breakdown f.breakdown
    if lines.isEmpty then
      match document with
      | .tree (.mapping entries) => (ofEntries entries).mapError fun f => .breakdown (.numeral f)
      | _ => throw (.breakdown .tooDeep)
    else throw (.definition (.offences lines))
  | v => .error (.definition (.notMapping v.className))

/-- The matcher of a document that is a data tree. -/
def ofDocument (document : Value) : Except LoadFault Matcher :=
  ofDecoded .unbounded (.tree document)

/-- The matcher of a text in a format. -/
def ofText (stack : Stack) (format : Format) (text : String) : Except LoadFault Matcher :=
  match format.decode stack text with
  | .ok document => ofDecoded stack document
  | .error fault =>
    if fault.isMalformed then .error (.definition (.malformed format fault.message))
    else .error (.breakdown (.decoding fault))

/-- Loads the matcher of a source. -/
def load (stack : Stack) (files : Files) (format : Format) (source : Source) :
    Except LoadFault Matcher := do
  ofText stack format (← source.read files format)

end Matcher

end TreeSchema
