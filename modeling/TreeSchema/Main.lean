import TreeSchema.CommandLine.Program

/-!
# The command line program

Looks at the files that the arguments name, runs the program on them and writes what it gives.

This is the only module that does anything. The program itself is a function of the arguments, the
files and the standard input (`CommandLine.run`), so here the files are looked at before it is run,
those that a check would ask for. The errors of the system are sorted into the few ways in which a
path can lead nowhere; any other error counts as if nothing were there.
-/

namespace TreeSchema.CommandLine

/-- Why the system gives no bytes at a path. Only a path that could not be opened is named. -/
def accessFault : IO.Error → AccessFault
  | .inappropriateType none .. => .isDirectory
  | .inappropriateType (some _) .. => .notDirectory
  | .invalidArgument .. => .nameTooLong
  | _ => .absent

/-- What the system finds at a path. -/
def look (path : Path) : IO (Except AccessFault FileNode) := do
  if path.text.toList.contains '\x00' then return .error .embeddedNull
  try
    let bytes ← IO.FS.readBinFile path.text
    return .ok (.file bytes.toList)
  catch e =>
    match accessFault e with
    | .isDirectory => return .ok .directory
    | fault => return .error fault

/-- What the program is run on. -/
def usualPlatform : Platform := ⟨.earlier, .usual, .usual⟩

/-- The paths that a command line names. -/
def namedPaths (arguments : List String) : List Path :=
  match Request.ofArguments usualPlatform.dialect arguments with
  | .ok ⟨_, .check c⟩ => (c.schema.toList ++ c.file.toList).map Path.ofText
  | _ => []

/-- Whether a command line wants the standard input. -/
def wantsInput (arguments : List String) : Bool :=
  match Request.ofArguments usualPlatform.dialect arguments with
  | .ok ⟨_, .check c⟩ => c.stdin
  | _ => false

end TreeSchema.CommandLine

open TreeSchema TreeSchema.CommandLine in
/-- Runs the program on the arguments. -/
def main (arguments : List String) : IO UInt32 := do
  let found ← (namedPaths arguments).mapM fun p => return (p, ← look p)
  let files : Files := ⟨fun p => (found.lookup p).getD (.error .absent)⟩
  let input ← if wantsInput arguments then (← IO.getStdin).readToEnd else pure ""
  match run usualPlatform files input arguments with
  | .ok output =>
    IO.print output.stdout
    IO.eprint output.stderr
    return UInt32.ofNat output.exit
  | .error cause =>
    IO.eprintln cause.message
    return 1
