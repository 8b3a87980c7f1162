import TreeSchema.Decoded
import TreeSchema.Yaml.Constant
import TreeSchema.Yaml.Grammar
import TreeSchema.Yaml.Lexer

/-!
# Reading a document

Each node of a document is read once, however many ways lead to it (`visit`): a scalar at once,
while a collection is opened first and filled in a later round, after all the collections that were
opened before it (`rounds`). So the fault that is told is the first one in this order, not in the
order of the text. As a collection is known before it is filled, it does no harm that it is a part
of itself: when everything is filled, the cells of the nodes are the document (`decode`).

The rounds make reading go down no levels of its own. The two recursions that are left begin at one
node each: a mapping that takes over the entries of others, and a mapping that stands for the value
of its value key.
-/

namespace TreeSchema.Yaml

/-- How far the reading of a document has come. -/
structure Progress where
  graph : Graph
  /-- What the nodes were read to, so far. -/
  cells : Array (Option Cell)
  /-- The collections to be filled in the next round. -/
  waiting : Array Ref := #[]

/-- A step of reading. -/
abbrev Reading := StateT Progress (Except Fault)

namespace Reading

/-- The node with a number. -/
def node (r : Ref) : Reading Node := return (← get).graph.node r

/-- Notes what a node was read to. -/
def note (r : Ref) (c : Cell) : Reading Unit :=
  modify fun p => { p with cells := p.cells.setIfInBounds r (some c) }

/-- Opens a collection. -/
def openNode (r : Ref) : Reading Unit :=
  modify fun p =>
    { p with cells := p.cells.setIfInBounds r (some .opened), waiting := p.waiting.push r }

/-- The collections that were opened in a round. -/
def takeWaiting : Reading (List Ref) :=
  modifyGet fun p => (p.waiting.toList, { p with waiting := #[] })

/-- A fault of the document. -/
def fail {α : Type} (problem : Problem) : Reading α := throw (.malformed problem)

/-- Whether a tag is one of collections. -/
def isCollection (tag : Tag) : Bool :=
  [.seq, .map, .set, .omap, .pairs].contains tag

/-- Reads the node `r` of a graph by a tag of scalars. -/
def scalar (stack : Stack) (g : Graph) (r : Ref) : Except Fault Key := do
  let n := g.node r
  let some read := Constant.reader? n.tag | throw (.malformed .unknownTag)
  let text ← g.scalarText (g.size + 1) stack.standIn r
  match n.tag, n.content with
  | .timestamp, .mapping _ => throw .timestampInMapping
  | tag, _ =>
    let isNamed := tag = .float && Constant.namesNaN text
    return { value := ← read text, origin := if isNamed then none else some r }

/-- Reads a node, unless that is done already: a scalar as a key, while a collection is opened. -/
def visit (stack : Stack) (r : Ref) : Reading (Option Key) := do
  let p ← get
  match p.cells[r]?.join with
  | some (.scalar key) => return some key
  | some _ => return none
  | none =>
    if isCollection (p.graph.tag r) then
      openNode r
      return none
    else
      let key ← scalar stack p.graph r
      note r (.scalar key)
      return some key

/-- Reads the entries of a mapping, a key before its value. An equal key keeps its place and its
form. -/
def entries (stack : Stack) (es : List (Ref × Ref)) : Reading (List (Value × Ref)) := do
  let pairs ← es.mapM fun (k, v) => do
    let some key ← visit stack k | fail .unhashableKey
    let _ ← visit stack v
    return (key, v)
  let distinct := pairs.foldl (fun m (k, v) => Assoc.alter k.same k (fun _ => v) m) []
  return distinct.map fun (k, v) => (k.value, v)

/-- Reads the entries of the mapping `r` after those that it takes over. -/
def mergedEntries (stack : Stack) (depth : Nat) (r : Ref) : Reading (List (Value × Ref)) := do
  let p ← get
  let g ← Graph.merge depth stack.merge p.graph r []
  set { p with graph := g }
  entries stack (g.entries r)

/-- Reads the item of a list of pairs: a mapping of one entry. -/
def pair (stack : Stack) (r : Ref) : Reading (Ref × Ref) := do
  match (← node r).content with
  | .mapping [(k, v)] =>
    let _ ← visit stack k
    let _ ← visit stack v
    return (k, v)
  | _ => fail .wrongKind

/-- Fills a collection. -/
def fill (stack : Stack) (depth : Nat) (r : Ref) : Reading Unit := do
  let n ← node r
  match n.tag, n.content with
  | .seq, .sequence items =>
    for item in items do
      let _ ← visit stack item
    note r (.list items)
  | .omap, .sequence items | .pairs, .sequence items => note r (.pairs (← items.mapM (pair stack)))
  | .map, .mapping _ => note r (.mapping (← mergedEntries stack depth r))
  | .set, .mapping _ => note r (.set ((← mergedEntries stack depth r).map (·.1)))
  | _, _ => fail .wrongKind

/-- Fills collections round by round: those that are waiting, in the order in which they were
opened, then those that were opened meanwhile. Each round but the last one fills at least one
node. -/
def rounds (stack : Stack) (depth : Nat) : (count : Nat) → Reading Unit
  | 0 => return
  | count + 1 => do
    let now ← takeWaiting
    if now.isEmpty then return
    for r in now do fill stack depth r
    rounds stack depth count

/-- Reads all nodes that can be reached from one. -/
def all (stack : Stack) (depth count : Nat) (root : Ref) : Reading Unit := do
  let _ ← visit stack root
  rounds stack depth count

end Reading

/-- The document of a graph and its outermost node. -/
def Graph.document (stack : Stack) (g : Graph) (root : Ref) : Except Fault Decoded := do
  let start : Progress := { graph := g, cells := Array.replicate g.size none }
  let (_, p) ← (Reading.all stack g.mergeDepth g.size root).run start
  return .ofWeb ⟨p.cells, root⟩

/-- Reads a text as a document. A text without a document is read to null. -/
def decode (stack : Stack) (text : String) : Except Fault Decoded := do
  match ← Grammar.document stack.yaml (tokens text) with
  | none => return .tree .null
  | some (g, root) => g.document stack root

end TreeSchema.Yaml
