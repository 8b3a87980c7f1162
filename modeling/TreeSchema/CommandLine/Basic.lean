/-!
# The command line: commands, options and help

The program has commands, and each has options of its own (`Scope.options`). An option is known by
its names; most take no value. Each scope has its line of usage and its page of help.

Arguments are not followed in the same way everywhere. The parser of arguments comes with the
interpreter, and from one of its releases to the next it changed what it makes of characters that
are attached to an option which takes none, and of the separator as the value of an option. Both
ways are here (`Dialect`), so that what is said of the program is said of either.
-/

namespace TreeSchema.CommandLine

/-- The two ways in which arguments are followed. -/
inductive Dialect where
  /-- The characters after an equals sign may be short options, characters that name no option are a
  fault, and the separator is no value. -/
  | earlier
  /-- Nothing but a value stands after an equals sign, characters that name no option are left over,
  and the separator is a value like any other. -/
  | later
  deriving DecidableEq

/-- The commands. -/
inductive Command where
  | check
  | types
  deriving DecidableEq

namespace Command

/-- All the commands. -/
def all : List Command := [check, types]

/-- The name of a command. -/
def name : Command → String
  | check => "check"
  | types => "types"

/-- The command with a name. -/
def ofName? (s : String) : Option Command := all.find? fun c => c.name == s

end Command

/-- Where options are given: to the program, in front of its command, or to a command. -/
inductive Scope where
  | program
  | command (c : Command)
  deriving DecidableEq

/-- The options. -/
inductive Switch where
  | help
  | verbose
  | stdin
  | schema
  | format
  deriving DecidableEq

namespace Switch

/-- The names of an option. -/
def names : Switch → List String
  | help => ["-h", "--help"]
  | verbose => ["--verbose", "-v"]
  | stdin => ["--stdin"]
  | schema => ["--schema", "-s"]
  | format => ["--format", "-f"]

/-- The names of an option as error texts give them. -/
def title (o : Switch) : String := "/".intercalate o.names

/-- Whether an option takes a value. -/
def takesValue : Switch → Bool
  | schema | format => true
  | _ => false

end Switch

namespace Scope

/-- The options of a scope. -/
def options : Scope → List Switch
  | program => [.help, .verbose]
  | command .check => [.help, .stdin, .schema, .format]
  | command .types => [.help]

/-- The names of the options of a scope, in order. -/
def names (scope : Scope) : List (String × Switch) :=
  scope.options.flatMap fun o => o.names.map (·, o)

/-- The name of the program with the command. -/
def title : Scope → String
  | program => "schema-matcher"
  | command c => "schema-matcher " ++ c.name

/-- The usage of a scope. -/
def usage : Scope → List String
  | program => ["usage: schema-matcher [-h] [--verbose] \x7bcheck,types\x7d ..."]
  | command .check =>
    ["usage: schema-matcher check [-h] [--stdin] --schema SCHEMA",
      "                            [--format \x7bjson,yaml\x7d]",
      "                            [file]"]
  | command .types => ["usage: schema-matcher types [-h]"]

/-- What the help of a scope says after the usage. -/
def explanation : Scope → List String
  | program =>
    ["Declarative schema matching for JSON and YAML data",
      "",
      "positional arguments:",
      "  \x7bcheck,types\x7d",
      "    check        Match a data file against a schema",
      "    types        List the type expression vocabulary",
      "",
      "options:",
      "  -h, --help     show this help message and exit",
      "  --verbose, -v  Enable debug logging"]
  | command .check =>
    ["positional arguments:",
      "  file                  Path to data file (JSON or YAML)",
      "",
      "options:",
      "  -h, --help            show this help message and exit",
      "  --stdin               Read data from stdin",
      "  --schema SCHEMA, -s SCHEMA",
      "                        Path to schema file (YAML or JSON)",
      "  --format \x7bjson,yaml\x7d, -f \x7bjson,yaml\x7d",
      "                        Data format (default: from file extension, else json)"]
  | command .types =>
    ["options:",
      "  -h, --help  show this help message and exit"]

/-- The page of help of a scope. -/
def help (scope : Scope) : List String := scope.usage ++ [""] ++ scope.explanation

end Scope

/-- Lines as a text. -/
def textOfLines (lines : List String) : String :=
  String.join (lines.map fun l => l ++ "\n")

end TreeSchema.CommandLine
