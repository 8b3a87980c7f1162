import TreeSchema.Files.Basic

/-!
# Tables of files

A table names the files and directories below the current directory. A path is followed from
directory to directory; outside the current directory there is nothing but the directories on the
way to it.
-/

namespace TreeSchema

/-- The files and directories below the current directory, by the parts of their paths. -/
structure FileTable where
  rows : List (List String × FileNode)

namespace FileTable

/-- The most bytes that a part of a path may have. -/
def longestPart : Nat := 255

/-- The least number of bytes that makes a path as a whole too long. -/
def longestPath : Nat := 4096

/-- A place on the way along a path. -/
inductive Place where
  /-- A directory below the current one, or the current one itself. -/
  | inside (parts : List String)
  /-- A directory that is not below the current one. -/
  | outside
  /-- A file. -/
  | file (bytes : List UInt8)

/-- What stands at the parts of a path. The start of a longer row is a directory. -/
def at? (t : FileTable) (parts : List String) : Option Place :=
  match t.rows.lookup parts with
  | some (.file bytes) => some (.file bytes)
  | some .directory => some (.inside parts)
  | none => if t.rows.any fun e => parts.isPrefixOf e.1 then some (.inside parts) else none

/-- One step along a path. -/
def enter (t : FileTable) (place : Place) (part : String) : Except AccessFault Place :=
  match place with
  | .file _ => .error .notDirectory
  | .inside parts =>
    if part = ".." then .ok (if parts.isEmpty then .outside else .inside parts.dropLast)
    else if longestPart < part.utf8ByteSize then .error .nameTooLong
    else
      match t.at? (parts ++ [part]) with
      | some next => .ok next
      | none => .error .absent
  | .outside =>
    if part = ".." then .ok .outside
    else if longestPart < part.utf8ByteSize then .error .nameTooLong
    else .error .absent

/-- Follows a path to its end. -/
def follow (t : FileTable) (path : Path) : Except AccessFault Place :=
  if path.text.toList.contains '\x00' then .error .embeddedNull
  else if longestPath ≤ path.text.utf8ByteSize then .error .nameTooLong
  else path.parts.foldlM t.enter (if path.root.isEmpty then .inside [] else .outside)

/-- The files that a table names. -/
def files (t : FileTable) : Files where
  find path :=
    (t.follow path).map fun
      | .file bytes => .file bytes
      | .inside _ | .outside => .directory

/-- The table of named nodes. Of two nodes of one name the later one counts. -/
def ofNamed (nodes : List (String × FileNode)) : FileTable :=
  ⟨nodes.reverse.map fun (name, node) => ((Path.ofText name).parts, node)⟩

end FileTable

end TreeSchema
