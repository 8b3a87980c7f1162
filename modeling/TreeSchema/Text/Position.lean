/-!
# Positions in a text

A position in a text is counted in characters from its start; the line is counted by the line feeds
before it, and the column from the last of them.
-/

namespace TreeSchema.Text

/-- A position in a text: the characters before it, the line and the column. Lines and columns are
counted from one. -/
structure Position where
  index : Nat
  line : Nat
  column : Nat
  deriving DecidableEq

/-- The position after the characters `before`. -/
def Position.after (before : List Char) : Position where
  index := before.length
  line := before.count '\n' + 1
  column := (before.reverse.takeWhile (· ≠ '\n')).length + 1

/-- The wording of a position. -/
def Position.message (p : Position) : String :=
  let index := p.index
  let line := p.line
  let column := p.column
  s!"line {line} column {column} (char {index})"

end TreeSchema.Text
