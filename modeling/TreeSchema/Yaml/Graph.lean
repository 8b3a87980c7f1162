import TreeSchema.Yaml.Basic
import TreeSchema.Yaml.Plain

/-!
# The graph of a document

A document is a graph of nodes: an alias is no node but one more way to the node that it names, so a
node may be a part of several others, and of itself if the alias stands inside the node that it
names. Nodes are numbered in the order in which they begin, and a collection holds the numbers of
its parts. A number that no node has counts as an empty text.

Reading a document changes its graph. A mapping that takes over the entries of others loses its
merge keys (`Graph.merge`), and a value key among its own keys becomes a text; whoever comes to the
same node later finds it changed. `Graph.merge` follows no merge key twice, as it takes each one out
before it looks where it leads, so mappings that take over each other do no harm.

A mapping that stands for the value of its value key is another matter (`Graph.scalarText`). Nothing
is taken out there, so such mappings may lead to each other in a circle, and then they are followed
until the stack is full. The same happens on a stack with little room if they are merely many, and
with mappings that take over each other one after the other.
-/

namespace TreeSchema.Yaml

/-- The number of a node in its graph. -/
abbrev Ref := Nat

/-- What a node is made of. -/
inductive Content where
  | scalar (text : String)
  | sequence (items : List Ref)
  | mapping (entries : List (Ref × Ref))
  deriving DecidableEq

/-- A node: its tag and what it is made of. -/
structure Node where
  tag : Tag
  content : Content
  deriving DecidableEq

/-- The nodes of a document, by their numbers. -/
structure Graph where
  nodes : Array Node := #[]

namespace Graph

/-- How many nodes there are. -/
def size (g : Graph) : Nat := g.nodes.size

/-- The node with a number. -/
def node (g : Graph) (r : Ref) : Node := g.nodes[r]?.getD ⟨.str, .scalar ""⟩

/-- The tag of the node with a number. -/
def tag (g : Graph) (r : Ref) : Tag := (g.node r).tag

/-- What the node with a number is made of. -/
def content (g : Graph) (r : Ref) : Content := (g.node r).content

/-- The entries of a mapping. A node of another kind has none. -/
def entries (g : Graph) (r : Ref) : List (Ref × Ref) :=
  match g.content r with
  | .mapping es => es
  | _ => []

/-- Adds a node, which gets the next number. -/
def add (g : Graph) (n : Node) : Graph := ⟨g.nodes.push n⟩

/-- Changes what a node is made of. -/
def setContent (g : Graph) (r : Ref) (c : Content) : Graph :=
  ⟨g.nodes.modify r fun n => { n with content := c }⟩

/-- Changes the tag of a node. -/
def setTag (g : Graph) (r : Ref) (t : Tag) : Graph :=
  ⟨g.nodes.modify r fun n => { n with tag := t }⟩

@[simp] theorem size_setContent (g : Graph) (r : Ref) (c : Content) :
    (g.setContent r c).size = g.size := by
  simp [size, setContent]

@[simp] theorem size_setTag (g : Graph) (r : Ref) (t : Tag) : (g.setTag r t).size = g.size := by
  simp [size, setTag]

/-! ## Scalars -/

/-- The text of a node where a scalar is asked for. A mapping stands for the value of its value key.
A chain of such mappings that is longer than `depth`, the number of nodes, is a circle, and no stack
has room for it. -/
def scalarText (g : Graph) : (depth : Nat) → Room → Ref → Except Fault String
  | 0, _, _ => .error .tooDeep
  | depth + 1, room, r =>
    match g.content r with
    | .scalar text => .ok text
    | .sequence _ => .error (.malformed .wrongKind)
    | .mapping es =>
      match es.find? fun e => g.tag e.1 = .value with
      | some (_, v) => do g.scalarText depth (← room.enter .tooDeep) v
      | none => .error (.malformed .wrongKind)

/-! ## Merge keys -/

/-- Entries split at the first merge key: those before it, and what it leads to with those
after it. -/
def splitAtMerge (g : Graph) : List (Ref × Ref) → List (Ref × Ref) × Option (Ref × List (Ref × Ref))
  | [] => ([], none)
  | (k, v) :: es =>
    if g.tag k = .merge then ([], some (v, es))
    else
      let (before, found) := g.splitAtMerge es
      ((k, v) :: before, found)

/-- Makes the value keys among the keys of entries texts. -/
def textKeys (g : Graph) (es : List (Ref × Ref)) : Graph :=
  es.foldl (fun g e => if g.tag e.1 = .value then g.setTag e.1 .str else g) g

/-- How many merge keys can lead from one mapping to the next: not more than there are entries. -/
def mergeDepth (g : Graph) : Nat :=
  g.nodes.foldl (fun n d =>
    match d.content with
    | .mapping es => n + es.length
    | _ => n) 1

/-- Makes the mapping `r` take over the entries that its merge keys lead to: those of a mapping, or
those of the mappings of a sequence, the last one first. They stand before its own entries, after
the ones in `taken`, so that its own entries win. Each of those mappings takes over what its own
merge keys lead to first, one level down. -/
def merge : (depth : Nat) → Room → Graph → (r : Ref) → (taken : List (Ref × Ref)) →
    Except Fault Graph
  | 0, _, _, _, _ => .error (.malformed .badMerge)
  | depth + 1, room, g, r, taken =>
    match g.splitAtMerge (g.entries r) with
    | (own, none) => .ok ((g.textKeys own).setContent r (.mapping (taken ++ own)))
    | (before, some (source, after)) =>
      let g := g.setContent r (.mapping (before ++ after))
      match g.content source with
      | .scalar _ => .error (.malformed .badMerge)
      | .mapping _ => do
        let g ← merge depth (← room.enter .tooDeep) g source []
        merge depth room g r (taken ++ g.entries source)
      | .sequence items => do
        let (g, groups) ← items.foldlM (fun (g, groups) item =>
          match Graph.content g item with
          | .mapping _ => do
            let g ← merge depth (← room.enter .tooDeep) g item []
            return (g, g.entries item :: groups)
          | _ => .error (.malformed .badMerge)) (g, ([] : List (List (Ref × Ref))))
        merge depth room g r (taken ++ groups.flatten)

end Graph

end TreeSchema.Yaml
