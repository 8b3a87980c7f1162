import TreeSchema.Path
import TreeSchema.Text.Lines
import TreeSchema.Text.Quoted
import TreeSchema.Text.Utf8

/-!
# Files

The files that a run can see are a function from paths: each path leads to a file or a directory, or
there is a reason why it leads nowhere. A file is read as UTF-8 text with unified line ends.
-/

namespace TreeSchema

/-- What a path can lead to. -/
inductive FileNode where
  | file (bytes : List UInt8)
  | directory

/-- Why a path leads nowhere, or to nothing that can be read. -/
inductive AccessFault where
  | absent
  | notDirectory
  | isDirectory
  | nameTooLong
  | embeddedNull
  deriving DecidableEq

/-- The wording of a path that leads nowhere, or to nothing that can be read. -/
def AccessFault.message (path : Path) (fault : AccessFault) : String :=
  let shown := Text.quoted path.text
  match fault with
  | absent => s!"[Errno 2] No such file or directory: {shown}"
  | notDirectory => s!"[Errno 20] Not a directory: {shown}"
  | isDirectory => s!"[Errno 21] Is a directory: {shown}"
  | nameTooLong => s!"[Errno 36] File name too long: {shown}"
  | embeddedNull => "embedded null byte"

/-- Why a file cannot be read as text. -/
inductive ReadFault where
  | access (fault : AccessFault)
  | notUtf8 (fault : Text.Utf8.Fault)
  deriving DecidableEq

/-- The files that a run can see. -/
structure Files where
  find : Path → Except AccessFault FileNode

namespace Files

/-- Whether a path leads to a file or directory. A name that is too long is a fault of its own. -/
def hasPath (files : Files) (path : Path) : Except AccessFault Bool :=
  match files.find path with
  | .ok _ => .ok true
  | .error .nameTooLong => .error .nameTooLong
  | .error _ => .ok false

/-- The bytes of the file that a path leads to. -/
def readBytes (files : Files) (path : Path) : Except AccessFault (List UInt8) :=
  match files.find path with
  | .ok (.file bytes) => .ok bytes
  | .ok .directory => .error .isDirectory
  | .error fault => .error fault

/-- The text that the bytes of a file are. -/
def textOfBytes (bytes : List UInt8) : Except Text.Utf8.Fault String :=
  (Text.Utf8.decode bytes).map fun s => String.ofList (Text.unifyLineEnds s.toList)

/-- The text of the file that a path leads to. -/
def readText (files : Files) (path : Path) : Except ReadFault String :=
  match files.readBytes path with
  | .error fault => .error (.access fault)
  | .ok bytes => (textOfBytes bytes).mapError .notUtf8

end Files

end TreeSchema
