import TreeSchema.Yaml.Graph
import TreeSchema.Yaml.Token

/-!
# The grammar of YAML

Tokens are put together to the graph of a document. A node that is left out is the empty plain
scalar. Each function of the grammar takes the tokens from its start on, adds the nodes that it
finds to a draft of the graph, and gives back the tokens after them with the fact that they are
fewer (`Taken`).

What lies behind the place where a text becomes unreadable does not matter as long as nothing asks
for it: a fault of the grammar before that place wins (`misfit`).

A collection takes its parts one level down, so the functions of the grammar pass on how much room
there is. A collection for which there is none is a fault as soon as it begins, before any of its
parts is looked at. An alias takes no level: the node that it names has been put together elsewhere,
or is just being put together around it.
-/

namespace TreeSchema.Yaml

/-- The anchor and the tag of a node. -/
structure Properties where
  anchor : Option String := none
  tag : Option String := none
  deriving DecidableEq

/-- The handles of a document and what they stand for. -/
abbrev Handles := List (String × String)

/-- The handles that every document knows. -/
def defaultHandles : Handles := [("!", "!"), ("!!", Tag.standard)]

/-- The nodes so far, and the anchored ones among them. -/
structure Draft where
  graph : Graph := {}
  anchors : List (String × Ref) := []

/-- A step that adds to a draft. -/
abbrev Drafting := StateT Draft (Except Fault)

namespace Grammar

/-- The fault of tokens that do not fit. Where the text is not readable it is the text's own. -/
def misfit (problem : Problem) : List Token → Fault
  | .unreadable fault :: _ => fault
  | _ => .malformed problem

/-! ## Adding nodes -/

/-- Adds a node, and notes its anchor. -/
def addNode (anchor : Option String) (n : Node) : Drafting Ref :=
  modifyGet fun d =>
    let r := d.graph.size
    let anchors :=
      match anchor with
      | some a => (a, r) :: d.anchors
      | none => d.anchors
    (r, { graph := d.graph.add n, anchors })

/-- Adds a scalar. -/
def addScalar (p : Properties) (text : String) (plain : Bool) : Drafting Ref :=
  addNode p.anchor ⟨Tag.ofScalar p.tag plain text, .scalar text⟩

/-- Adds the empty plain scalar of a node that is left out. -/
def addAbsent : Drafting Ref := addScalar {} "" true

/-- Adds the node of which only the properties are given. With a tag it is not plain. -/
def addMissing (p : Properties) : Drafting Ref := addScalar p "" (p.tag = none)

/-- Starts a sequence. Its own parts may name it already. -/
def startSequence (p : Properties) : Drafting Ref :=
  addNode p.anchor ⟨Tag.ofCollection .seq p.tag, .sequence []⟩

/-- Starts a mapping. Its own parts may name it already. -/
def startMapping (p : Properties) : Drafting Ref :=
  addNode p.anchor ⟨Tag.ofCollection .map p.tag, .mapping []⟩

/-- Gives a collection its parts. -/
def fill (r : Ref) (c : Content) : Drafting Unit :=
  modify fun d => { d with graph := d.graph.setContent r c }

/-- The node that an alias names. -/
def aliased (name : String) : Drafting Ref := do
  match (← get).anchors.lookup name with
  | some r => return r
  | none => throw (.malformed .undefinedAlias)

/-- Checks that an anchor is new. -/
def checkAnchor (anchor : Option String) : Drafting Unit := do
  let d ← get
  if anchor.any fun a => (d.anchors.lookup a).isSome then throw (.malformed .repeatedAnchor)

/-! ## Properties -/

/-- What was put together, and the tokens after it, fewer than a bound. -/
structure Taken (α : Type) (bound : Nat) where
  value : α
  rest : List Token
  fewer : rest.length < bound

/-- A result for a greater bound. -/
def Taken.weaken {α : Type} {m n : Nat} (t : Taken α m) (h : m ≤ n) : Taken α n :=
  ⟨t.value, t.rest, Nat.lt_of_lt_of_le t.fewer h⟩

/-- The tag that a handle and an end come to. -/
def expandTag (handles : Handles) (handle : Option String) (suffix : String) :
    Except Fault String :=
  match handle with
  | none => .ok suffix
  | some h =>
    match handles.lookup h with
    | some expansion => .ok (expansion ++ suffix)
    | none => .error (.malformed .unknownHandle)

/-- The anchor and the tag in front of a node, in either order. -/
def properties (handles : Handles) (ts : List Token) :
    Except Fault (Taken Properties (ts.length + 1)) := do
  match hts : ts with
  | .anchor a :: .tag h s :: r =>
    let tag ← expandTag handles h s
    return ⟨⟨some a, some tag⟩, r, by simp only [hts, List.length_cons]; omega⟩
  | .tag h s :: .anchor a :: r =>
    let tag ← expandTag handles h s
    return ⟨⟨some a, some tag⟩, r, by simp only [hts, List.length_cons]; omega⟩
  | .tag _ _ :: .unreadable fault :: _ => throw fault
  | .anchor a :: r => return ⟨⟨some a, none⟩, r, by simp only [hts, List.length_cons]; omega⟩
  | .tag h s :: r =>
    let tag ← expandTag handles h s
    return ⟨⟨none, some tag⟩, r, by simp only [hts, List.length_cons]; omega⟩
  | _ => return ⟨{}, ts, by omega⟩

/-! ## Nodes -/

/-- Whether a node is left out where a block collection goes on or ends. -/
def endsBlockNode : List Token → Bool
  | .blockEntry :: _ | .key :: _ | .value :: _ | .blockEnd :: _ => true
  | _ => false

/-- Whether a node is left out in a block sequence of its own indentation. -/
def endsEntry : List Token → Bool
  | .blockEntry :: _ | .blockEnd :: _ => true
  | _ => false

/-- Whether a node is left out in a block mapping. -/
def endsPair : List Token → Bool
  | .key :: _ | .value :: _ | .blockEnd :: _ => true
  | _ => false

/-- Whether a node is left out in a flow sequence. -/
def endsFlowItem : List Token → Bool
  | .flowEntry :: _ | .flowSequenceEnd :: _ => true
  | _ => false

/-- Whether a node is left out in a flow mapping. -/
def endsFlowPair : List Token → Bool
  | .flowEntry :: _ | .flowMappingEnd :: _ => true
  | _ => false

/-- Whether a value follows. -/
def startsValue : List Token → Bool
  | .value :: _ => true
  | _ => false

/-- Takes the comma in front of an item that is not the first one. -/
def flowStart (first : Bool) (ts : List Token) : Except Fault (Taken Unit (ts.length + 1)) :=
  if first then .ok ⟨(), ts, by omega⟩
  else
    match ts with
    | .flowEntry :: r => .ok ⟨(), r, by simp only [List.length_cons]; omega⟩
    | _ => .error (misfit .unclosedCollection ts)

/-- The nodes of a document where block collections may stand, where they may stand at the
indentation of their key as well, and where only flow collections may. -/
inductive Context where
  | block
  | blockValue
  | flow
  deriving DecidableEq

mutual

/-- Puts a node together. The parts of a collection are one level below it. -/
def node (handles : Handles) (room : Room) (ctx : Context) (ts : List Token) :
    Drafting (Taken Ref ts.length) := do
  match h : ts with
  | .alias name :: r => return ⟨← aliased name, r, by simp only [h, List.length_cons]; omega⟩
  | _ =>
    let p ← properties handles ts
    have hp := p.fewer
    match hp' : p.rest with
    | [] =>
      if hlt : p.rest.length < ts.length then
        checkAnchor p.value.anchor
        return ⟨← addMissing p.value, p.rest, hlt⟩
      else throw (.malformed .noNode)
    | .unreadable fault :: _ => throw fault
    | t :: r =>
      have hr : r.length + 1 = p.rest.length := by simp [hp']
      checkAnchor p.value.anchor
      match t with
      | .scalar text plain => return ⟨← addScalar p.value text plain, r, by omega⟩
      | .flowSequenceStart =>
        let inner ← room.enter Fault.tooDeep
        let self ← startSequence p.value
        let c ← flowSequence handles inner true r
        fill self (.sequence c.value)
        return ⟨self, c.rest, by have := c.fewer; omega⟩
      | .flowMappingStart =>
        let inner ← room.enter Fault.tooDeep
        let self ← startMapping p.value
        let c ← flowMapping handles inner true r
        fill self (.mapping c.value)
        return ⟨self, c.rest, by have := c.fewer; omega⟩
      | _ =>
        if t = .sequenceStart ∧ ctx ≠ .flow then
          let inner ← room.enter Fault.tooDeep
          let self ← startSequence p.value
          let c ← blockSequence handles inner r
          fill self (.sequence c.value)
          return ⟨self, c.rest, by have := c.fewer; omega⟩
        else if t = .mappingStart ∧ ctx ≠ .flow then
          let inner ← room.enter Fault.tooDeep
          let self ← startMapping p.value
          let c ← blockMapping handles inner r
          fill self (.mapping c.value)
          return ⟨self, c.rest, by have := c.fewer; omega⟩
        else if t = .blockEntry ∧ ctx = .blockValue then
          let inner ← room.enter Fault.tooDeep
          let self ← startSequence p.value
          let c ← flushSequence handles inner r
          fill self (.sequence c.value)
          return ⟨self, c.rest, by have := c.fewer; omega⟩
        else if hlt : p.rest.length < ts.length then
          return ⟨← addMissing p.value, p.rest, hlt⟩
        else throw (.malformed .noNode)
termination_by 3 * ts.length

/-- Puts the entries of a block sequence together, up to its end. -/
def blockSequence (handles : Handles) (room : Room) (ts : List Token) :
    Drafting (Taken (List Ref) ts.length) := do
  match h : ts with
  | .blockEnd :: r => return ⟨[], r, by simp [h]⟩
  | .blockEntry :: r =>
    let item ← nodeUnless endsEntry handles room .block r
    have hi := item.fewer
    let more ← blockSequence handles room item.rest
    return ⟨item.value :: more.value, more.rest,
      by have := more.fewer; simp only [h, List.length_cons]; omega⟩
  | _ => throw (misfit .unclosedCollection ts)
termination_by 3 * ts.length + 1

/-- Puts the entries of a block sequence at the indentation of its key together, after the first
dash. -/
def flushSequence (handles : Handles) (room : Room) (ts : List Token) :
    Drafting (Taken (List Ref) (ts.length + 1)) := do
  let item ← nodeUnless endsBlockNode handles room .block ts
  have hi := item.fewer
  match h : item.rest with
  | .blockEntry :: r =>
    have hr : r.length + 1 = item.rest.length := by simp [h]
    let more ← flushSequence handles room r
    return ⟨item.value :: more.value, more.rest, by have := more.fewer; omega⟩
  | _ => return ⟨[item.value], item.rest, hi⟩
termination_by 3 * ts.length + 2

/-- Puts the entries of a block mapping together, up to its end. -/
def blockMapping (handles : Handles) (room : Room) (ts : List Token) :
    Drafting (Taken (List (Ref × Ref)) ts.length) := do
  match h : ts with
  | .blockEnd :: r => return ⟨[], r, by simp [h]⟩
  | .key :: r =>
    let key ← nodeUnless endsPair handles room .blockValue r
    have hk := key.fewer
    let value ← valueUnless endsPair handles room .blockValue key.rest
    have hv := value.fewer
    let more ← blockMapping handles room value.rest
    return ⟨(key.value, value.value) :: more.value, more.rest,
      by have := more.fewer; simp only [h, List.length_cons]; omega⟩
  | _ => throw (misfit .unclosedCollection ts)
termination_by 3 * ts.length + 1

/-- Puts the items of a flow sequence together, up to its end. A comma stands before every item but
the first. An entry with a key is a mapping of its own. -/
def flowSequence (handles : Handles) (room : Room) (first : Bool) (ts : List Token) :
    Drafting (Taken (List Ref) ts.length) := do
  match h : ts with
  | .flowSequenceEnd :: r => return ⟨[], r, by simp only [h, List.length_cons]; omega⟩
  | _ =>
    let start ← flowStart first ts
    have hs := start.fewer
    match hs' : start.rest with
    | .flowSequenceEnd :: r =>
      have hr : r.length + 1 = start.rest.length := by simp [hs']
      return ⟨[], r, by omega⟩
    | .key :: r =>
      have hr : r.length + 1 = start.rest.length := by simp [hs']
      let inner ← room.enter Fault.tooDeep
      let self ← startMapping {}
      let key ← nodeUnless (fun ts => startsValue ts || endsFlowItem ts) handles inner .flow r
      have hk := key.fewer
      let value ← valueUnless endsFlowItem handles inner .flow key.rest
      have hv := value.fewer
      fill self (.mapping [(key.value, value.value)])
      let more ← flowSequence handles room false value.rest
      return ⟨self :: more.value, more.rest, by have := more.fewer; omega⟩
    | _ =>
      let item ← node handles room .flow start.rest
      have hi := item.fewer
      let more ← flowSequence handles room false item.rest
      return ⟨item.value :: more.value, more.rest, by have := more.fewer; omega⟩
termination_by 3 * ts.length + 2

/-- Puts the entries of a flow mapping together, up to its end. A comma stands before every entry
but the first. -/
def flowMapping (handles : Handles) (room : Room) (first : Bool) (ts : List Token) :
    Drafting (Taken (List (Ref × Ref)) ts.length) := do
  match h : ts with
  | .flowMappingEnd :: r => return ⟨[], r, by simp only [h, List.length_cons]; omega⟩
  | _ =>
    let start ← flowStart first ts
    have hs := start.fewer
    match hs' : start.rest with
    | .flowMappingEnd :: r =>
      have hr : r.length + 1 = start.rest.length := by simp [hs']
      return ⟨[], r, by omega⟩
    | .key :: r =>
      have hr : r.length + 1 = start.rest.length := by simp [hs']
      let key ← nodeUnless (fun ts => startsValue ts || endsFlowPair ts) handles room .flow r
      have hk := key.fewer
      let value ← valueUnless endsFlowPair handles room .flow key.rest
      have hv := value.fewer
      let more ← flowMapping handles room false value.rest
      return ⟨(key.value, value.value) :: more.value, more.rest, by have := more.fewer; omega⟩
    | _ =>
      let key ← node handles room .flow start.rest
      have hk := key.fewer
      let value ← addAbsent
      let more ← flowMapping handles room false key.rest
      return ⟨(key.value, value) :: more.value, more.rest, by have := more.fewer; omega⟩
termination_by 3 * ts.length + 2

/-- Puts a node together, unless it is left out before what comes next. -/
def nodeUnless (ends : List Token → Bool) (handles : Handles) (room : Room) (ctx : Context)
    (ts : List Token) : Drafting (Taken Ref (ts.length + 1)) := do
  if ends ts then return ⟨← addAbsent, ts, by omega⟩
  else return (← node handles room ctx ts).weaken (by omega)
termination_by 3 * ts.length + 1

/-- Puts the value of an entry together, if there is one. -/
def valueUnless (ends : List Token → Bool) (handles : Handles) (room : Room) (ctx : Context)
    (ts : List Token) : Drafting (Taken Ref (ts.length + 1)) := do
  match h : ts with
  | .value :: r => return (← nodeUnless ends handles room ctx r).weaken (by simp [h])
  | _ => return ⟨← addAbsent, ts, by omega⟩
termination_by 3 * ts.length + 1

end

/-! ## Documents -/

/-- Reads the directives of a document up to its mark: its handles, and the tokens after the mark. A
handle and the version may be given once, and the version must be one of the first. -/
def header (versioned : Bool) (handles : Handles) : List Token → Except Fault (Handles × List Token)
  | .directive d :: ts =>
    match d with
    | .version major _ =>
      if versioned || major ≠ 1 then .error (.malformed .badDirective) else header true handles ts
    | .handle h expansion =>
      if (handles.lookup h).isSome then .error (.malformed .badDirective)
      else header versioned ((h, expansion) :: handles) ts
    | .other => header versioned handles ts
  | .documentStart :: ts => .ok (handles ++ defaultHandles, ts)
  | ts => .error (misfit .badDirective ts)

/-- Whether a document starts with directives or its mark. -/
def startsDocument : List Token → Bool
  | .directive _ :: _ | .documentStart :: _ => true
  | _ => false

/-- Whether a document ends at once. -/
def endsDocument : List Token → Bool
  | [] | .directive _ :: _ | .documentStart :: _ | .documentEnd :: _ => true
  | _ => false

/-- Checks that no second document follows. -/
def endStream (ts : List Token) : Except Fault Unit := do
  let rest := ts.dropWhile (· = .documentEnd)
  if rest.isEmpty then return
  let _ ← header false [] rest
  throw (.malformed .secondDocument)

/-- Puts the one document of a stream together, if there is one: its graph and its outermost
node. -/
def document (room : Room) (ts : List Token) : Except Fault (Option (Graph × Ref)) := do
  if ts.isEmpty then return none
  let isExplicit := startsDocument ts
  let (handles, content) ←
    if isExplicit then header false [] ts else pure (defaultHandles, ts)
  let body : Drafting (Ref × List Token) := do
    if isExplicit && endsDocument content then return (← addAbsent, content)
    else
      let t ← node handles room .block content
      return (t.value, t.rest)
  let ((root, rest), draft) ← body.run {}
  endStream rest
  return some (draft.graph, root)

end Grammar

end TreeSchema.Yaml
