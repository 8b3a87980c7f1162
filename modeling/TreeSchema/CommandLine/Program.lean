import TreeSchema.CommandLine.Checking
import TreeSchema.Json.Encode

/-!
# The program

A run of the program takes the arguments, the files and the standard input, and gives what is
written to the two streams together with the exit code. The code is zero for a check whose report is
valid, and two for a faulty command line.

A run on a given platform has one outcome. Where it breaks down there is no exit code and nothing
that the program itself would have written; what is left is the cause (`Breakdown`).
-/

namespace TreeSchema.CommandLine

/-- What a run leaves behind. -/
structure Output where
  exit : Nat
  stdout : String := ""
  stderr : String := ""
  deriving DecidableEq

/-- The list of the types and of the forms that descriptions may take. -/
def vocabulary : List String :=
  ["Primitive types:"] ++ Primitive.all.map (fun p => "  " ++ p.name) ++
    ["",
      "Type expressions:",
      "  <type>            value has the primitive type",
      "  ?<type>           value is null or has the primitive type",
      "  <type> => <type>  map whose keys and values have the given types",
      "",
      "Field keys:",
      "  ?<key>            optional field",
      "  *                 every element of a collection (must be alone)"]

/-- The outcome of a check as a document: whether the report is valid, and the report. -/
def resultDocument (r : Report) : Json :=
  .object [("valid", .bool r.isValid), ("errors", .ofReport r)]

/-- What a check tells of itself when it is to tell in detail. Nothing is matched against an empty
description. -/
def details (c : Checked) : List String :=
  let format := c.format.name
  let schema := c.schema
  let size := toString c.matcher.description.length
  let paths := toString c.report.rows.length
  [s!"schema_matcher.cli - DEBUG - checking {format} data against {schema}"] ++
    if c.matcher.isEmpty then []
    else
      [s!"schema_matcher.matcher - DEBUG - matching data against schema with {size} top-level keys",
        s!"schema_matcher.matcher - DEBUG - match finished with {paths} error path(s)"]

/-- The output of a check that came to a report. -/
def Checked.output (verbose : Bool) (c : Checked) : Output where
  exit := if c.report.isValid then 0 else 1
  stdout := Json.encode (.spaces 2) (resultDocument c.report) ++ "\n"
  stderr := textOfLines (if verbose then details c else [])

/-- The output of a check that came to none. -/
def Refusal.output (reason : Refusal) : Output where
  exit := 1
  stderr := "Error: " ++ reason.message ++ "\n"

/-- The output of a command line that is not followed. -/
def Stop.output : Stop → Output
  | .help scope => { exit := 0, stdout := textOfLines scope.help }
  | .usage scope fault =>
    { exit := 2
      stderr := textOfLines (scope.usage ++ [scope.title ++ ": error: " ++ fault.message]) }

namespace Request

/-- Does what is asked for. -/
def run (platform : Platform) (files : Files) (stdin : String) (r : Request) :
    Except Breakdown Output :=
  match r.action with
  | .overview => .ok { exit := 1, stdout := textOfLines Scope.program.help }
  | .types => .ok { exit := 0, stdout := textOfLines vocabulary }
  | .check c =>
    match c.run platform files stdin with
    | .ok checked => .ok (checked.output r.verbose)
    | .error (.refused reason) => .ok reason.output
    | .error (.breakdown cause) => .error cause

end Request

/-- Runs the program. -/
def run (platform : Platform) (files : Files) (stdin : String) (arguments : List String) :
    Except Breakdown Output :=
  match Request.ofArguments platform.dialect arguments with
  | .ok request => request.run platform files stdin
  | .error stop => .ok stop.output

end TreeSchema.CommandLine
