import TreeSchema.Document
import TreeSchema.Value.Key
import TreeSchema.Yaml.Graph

/-!
# Documents that are parts of themselves

Reading gives each node of a document a cell (`Cell`): a scalar has a value, and a collection has
the numbers of its parts. A document is a web of such cells (`Web`). Where no node is a part of
itself the web is a data tree in which some branches are shared, and the tree can be put together
(`Web.tree?`). But an alias may stand inside the node that it names. What is read then is a proper
value all the same, a list that is its own element, say, yet there is no tree of it.

Three things can be asked of such a document nevertheless. Down to any depth it looks like a tree
(`Web.unfold`): what walks it along a schema comes to an end and cannot tell the difference. It can
be quoted, with dots where a collection comes up again inside itself (`Web.literal`). And it can be
viewed as a schema document (`Web.view`), though a walk through its mappings may never end, and has
to be given up at some depth.
-/

namespace TreeSchema.Yaml

/-- A key of a mapping of a document. What is not a number is the same as itself when it has the
same origin: the node that it was read from, or none if it was asked for by its name, as there is
one value of that name. -/
structure Key where
  value : Value
  origin : Option Ref

namespace Key

/-- Whether a key is what is not a number. -/
def isNaN (k : Key) : Bool :=
  match k.value with
  | .real x => x.isNaN
  | _ => false

/-- Whether two keys are the same. -/
def same (a b : Key) : Bool :=
  a.value.sameKey b.value || (a.isNaN && b.isNaN && a.origin = b.origin)

end Key

/-- What a node was read to. -/
inductive Cell where
  /-- A scalar, which may be a key. -/
  | scalar (key : Key)
  /-- A collection that is not filled yet. -/
  | opened
  | list (items : List Ref)
  /-- A list of pairs. -/
  | pairs (items : List (Ref × Ref))
  | mapping (entries : List (Value × Ref))
  | set (members : List Value)

namespace Cell

/-- The value of a node, where the values of its parts are asked for one after the other. -/
def valueM {m : Type → Type} [Monad m] (part : Ref → m Value) : Cell → m Value
  | scalar key => return key.value
  | opened => return .null
  | list items => return .list (← items.mapM part)
  | pairs items => return .list (← items.mapM fun p => return .tuple [← part p.1, ← part p.2])
  | mapping entries => return .mapping (← entries.mapM fun e => return (e.1, ← part e.2))
  | set members => return .set members

/-- The value of a node by the values of its parts. -/
def value (part : Ref → Value) (c : Cell) : Value := Id.run (c.valueM fun r => pure (part r))

/-- The value of a node without its parts. -/
def bare : Cell → Value
  | scalar key => key.value
  | opened => .null
  | list _ | pairs _ => .list []
  | mapping _ => .mapping []
  | set members => .set members

end Cell

/-- A document: the cells of its nodes, and its outermost node. A node without a cell is as good as
a collection that is never filled. -/
structure Web where
  cells : Array (Option Cell)
  root : Ref

namespace Web

/-- How many nodes there are. -/
def size (w : Web) : Nat := w.cells.size

/-- The cell of a node. -/
def cell (w : Web) (r : Ref) : Cell := w.cells[r]?.join.getD .opened

/-! ## Trees -/

/-- The trees that are put together so far, by the numbers of their nodes. There is no result if a
node is a part of itself. -/
abbrev Assembly := StateT (Array (Option Value)) Option

/-- Puts together the tree of a node. No chain of parts is longer than `depth`, unless a node is a
part of itself. A node that is a part of several others is put together once. -/
def assemble (w : Web) : (depth : Nat) → Ref → Assembly Value
  | 0, _ => failure
  | depth + 1, r => do
    if let some v := (← get)[r]?.join then return v
    let v ← (w.cell r).valueM (w.assemble depth)
    modify fun values => values.setIfInBounds r (some v)
    return v

/-- The data tree of a document, unless a node is a part of itself. -/
def tree? (w : Web) : Option Value :=
  (w.assemble (w.size + 1) w.root).run' (Array.replicate w.size none)

/-! ## Down to a depth -/

/-- What all nodes look like down to a depth: below it the parts are left out. -/
def layer (w : Web) : (depth : Nat) → Array Value
  | 0 => w.cells.map fun c => (c.getD .opened).bare
  | depth + 1 =>
    let parts := w.layer depth
    w.cells.map fun c => (c.getD .opened).value fun r => parts[r]?.getD .null

/-- What a document looks like down to a depth. -/
def unfold (w : Web) (depth : Nat) : Value := (w.layer depth)[w.root]?.getD .null

/-! ## Quoting -/

/-- The literal of a node. A collection that comes up inside itself, as one of those that are
`open`, is shown by dots. There are not more than `depth` nodes, so that no more of them can be
open. -/
def literal (w : Web) : (depth : Nat) → Room → (openNodes : List Ref) → Ref →
    Except ShapeFault String
  | 0, _, _, _ => .error .tooDeep
  | depth + 1, room, openNodes, r => do
    let inner ← room.enter .tooDeep
    let part := w.literal depth inner (r :: openNodes)
    match w.cell r with
    | .list items =>
      if openNodes.contains r then return "[...]"
      else return "[" ++ ", ".intercalate (← items.mapM part) ++ "]"
    | .pairs items =>
      if openNodes.contains r then return "[...]"
      else
        let pairs ← items.mapM fun p => do
          let pairRoom ← inner.enter .tooDeep
          let part := w.literal depth pairRoom (r :: openNodes)
          return "(" ++ (← part p.1) ++ ", " ++ (← part p.2) ++ ")"
        return "[" ++ ", ".intercalate pairs ++ "]"
    | .mapping entries =>
      if openNodes.contains r then return "\x7b...\x7d"
      else
        let shown ← entries.mapM fun e => return (← e.1.quote inner) ++ ": " ++ (← part e.2)
        return "\x7b" ++ ", ".intercalate shown ++ "\x7d"
    | other => other.bare.quote room

/-! ## The shape of schema documents -/

/-- What the walk through a schema document sees of a node. -/
def view (w : Web) (quote : Room) (r : Ref) : Document.View Ref :=
  match w.cell r with
  | .mapping entries => .mapping entries
  | .scalar ⟨.text _, _⟩ => .text
  | _ => .other (w.literal (w.size + 1) quote [] r)

/-- The lines for all offences of a document. Where as many mappings as there are nodes lie inside
each other, one of them lies inside itself. -/
def violations (stack : Stack) (w : Web) : Except ShapeFault (List String) :=
  Document.violationsAt (w.view stack.quote) (stack.shape.atMost w.size) [] w.root

end Web

end TreeSchema.Yaml
