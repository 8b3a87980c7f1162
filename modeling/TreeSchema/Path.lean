import TreeSchema.Text.Lowercase
import TreeSchema.Text.Pieces

/-!
# Paths

A path is a root and parts. Empty parts and single dots are left out when a path is read, double
dots stay. The suffix of a path is the end of its last part from the last dot on, if there is
something before the dot and after it.
-/

namespace TreeSchema

/-- A path. The root is empty for a path from the current directory. -/
structure Path where
  root : String
  parts : List String
  deriving DecidableEq

namespace Path

/-- The root of a text: two slashes in front are a root of their own, any other number is one. -/
def rootOf (cs : List Char) : String :=
  match cs.takeWhile (· = '/') with
  | [] => ""
  | ['/', '/'] => "//"
  | _ => "/"

/-- Reads a path. -/
def ofText (s : String) : Path where
  root := rootOf s.toList
  parts := ((Text.pieces '/' s.toList).filter fun p => !p.isEmpty && p ≠ ['.']).map String.ofList

/-- The text of a path. A path without root and parts is the current directory. -/
def text (p : Path) : String :=
  if p.root.isEmpty && p.parts.isEmpty then "." else p.root ++ "/".intercalate p.parts

/-- The suffix of a path, with its dot. -/
def suffix (p : Path) : String :=
  let name := (p.parts.getLast?.getD "").toList
  let after := (name.reverse.takeWhile (· ≠ '.')).reverse
  let before := name.length - after.length - 1
  if 0 < before ∧ after.length < name.length ∧ !after.isEmpty then
    String.ofList ('.' :: after)
  else ""

/-- The suffix of a path in lower case. -/
def lowerSuffix (p : Path) : String := Text.lowercase p.suffix

end Path

end TreeSchema
