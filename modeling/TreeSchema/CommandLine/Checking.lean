import TreeSchema.CommandLine.Request
import TreeSchema.Loading

/-!
# The check of a data file

A check goes through stages: the schema is loaded, the data is read, it is decoded, and it is
matched against the schema. The first stage that fails ends the check, either with an error that is
told (`Refusal`) or with a breakdown.

Data may be a part of itself. Matching does not mind: it goes only as far down as the schema does
(`Schema.reach`), and down to any depth such data looks like a tree. How deep the tree is that
matching is given makes no difference, as long as it reaches that far.

The schema and the data are read one after the other, but not by the same calls, so each of the two
has a stack of its own (`Platform`).
-/

namespace TreeSchema.CommandLine

/-- Why a check comes to no report. -/
inductive Refusal where
  | schemaNotFound (name : String)
  | schemaFormat (suffix : String)
  | schema (fault : DefinitionFault)
  | noData
  | dataNotFound (name : String)
  | dataNotUtf8 (name : String) (fault : Text.Utf8.Fault)
  | data (format : Format) (message : String)
  deriving DecidableEq

/-- The wording of a check that comes to no report. -/
def Refusal.message : Refusal → String
  | schemaNotFound name => s!"schema file not found: {name}"
  | schemaFormat suffix =>
    s!"unsupported schema file format '{suffix}' (use .yaml, .yml, or .json)"
  | schema fault => fault.message
  | noData => "provide a file path or --stdin"
  | dataNotFound name => s!"file not found: {name}"
  | dataNotUtf8 name fault => "file is not valid UTF-8: " ++ name ++ ": " ++ fault.message
  | data format message => "invalid " ++ format.title ++ ": " ++ message

/-- Why a check ends without a report. -/
inductive CheckFault where
  | refused (reason : Refusal)
  | breakdown (cause : Breakdown)
  deriving DecidableEq

/-- A check that came to a report: the matcher, the name of its schema, the format of the data and
the data. -/
structure Checked where
  matcher : Matcher
  schema : String
  format : Format
  data : Decoded
  report : Report

/-- What the program runs on: the dialect in which it is given its arguments, and the room that it
has where the schema of a check is loaded and where the data is decoded. -/
structure Platform where
  dialect : Dialect
  schema : Stack
  data : Stack

namespace CheckRequest

/-- The file of a request. An empty name is none. -/
def fileName (c : CheckRequest) : Option String := c.file.filter (· ≠ "")

/-- Whether a path leads somewhere. -/
def exists? (files : Files) (path : Path) : Except CheckFault Bool :=
  (files.hasPath path).mapError fun f => .breakdown (.access path f)

/-- The schema of a request: its name and its matcher. -/
def loadSchema (stack : Stack) (files : Files) (c : CheckRequest) :
    Except CheckFault (String × Matcher) := do
  let some name := c.schema | throw (.breakdown .noPath)
  let path := Path.ofText name
  if !(← exists? files path) then throw (.refused (.schemaNotFound name))
  let some format := Format.ofSuffix? path | throw (.refused (.schemaFormat path.lowerSuffix))
  let matcher ← (Matcher.load stack files format (.path path)).mapError fun
    | .definition fault => .refused (.schema fault)
    | .breakdown cause => .breakdown cause
  return (name, matcher)

/-- The text of the data of a request. -/
def readData (files : Files) (stdin : String) (c : CheckRequest) : Except CheckFault String := do
  if c.stdin then return stdin
  let some name := c.fileName | throw (.refused .noData)
  let path := Path.ofText name
  if !(← exists? files path) then throw (.refused (.dataNotFound name))
  (files.readText path).mapError fun
    | .access fault => .breakdown (.access path fault)
    | .notUtf8 fault => .refused (.dataNotUtf8 name fault)

/-- The format of the data of a request: the one that is asked for, or else the one that the file is
named for. -/
def dataFormat (c : CheckRequest) : Format :=
  match c.format, c.fileName with
  | some format, _ => format
  | none, some name => if Format.yaml.isSuffixOf (.ofText name) then .yaml else .json
  | none, none => .json

/-- Reads the data of a request as a document. -/
def decodeData (stack : Stack) (format : Format) (text : String) : Except CheckFault Decoded :=
  (format.decode stack text).mapError fun fault =>
    if fault.isMalformed then .refused (.data format fault.message)
    else .breakdown (.decoding fault)

/-- The report of a matcher on a document, of which matching sees as much as it reaches. -/
def matchData (matcher : Matcher) (data : Decoded) : Except CheckFault Report :=
  (matcher.check (data.upTo matcher.root.reach)).mapError fun f => .breakdown (.numeral f)

/-- Goes through the stages of a check. -/
def run (platform : Platform) (files : Files) (stdin : String) (c : CheckRequest) :
    Except CheckFault Checked := do
  let (schema, matcher) ← c.loadSchema platform.schema files
  let text ← c.readData files stdin
  let format := c.dataFormat
  let data ← decodeData platform.data format text
  let report ← matchData matcher data
  return { matcher, schema, format, data, report }

end CheckRequest

end TreeSchema.CommandLine
