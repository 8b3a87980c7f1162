import TreeSchema.Proofs.Conformance
import TreeSchema.Proofs.Placement
import TreeSchema.Proofs.Shape

/-!
# Paths and the segments of positions

A position in a document is given by the segments that lead to it from the root: the keys of fields
without their marks, and the wildcard for the item of a collection. `Disagrees` says at which
positions data disagrees with a document, and never speaks of a path. A report tells of these
positions by their paths, and this is how a path is made from segments: they are joined by points,
but empty ones in front are left out (`pathOf_eq`), since a path without any text is taken for that
of the root.

So the path of a position is not always the join of its segments. It is the join unless the first
segment is empty and others follow (`pathOf_eq_intercalate_iff`), which takes a field at the root
whose key is nothing but a mark (`Matcher.check_tells_segments`).

A document is the right thing to state this for. Its keys are texts that are not empty, so the mark
alone is the only key whose name is empty, and its leaves are texts, so that every one of them asks
for something. A description that was never looked at as a document may have other keys, which are
shown in full in a path.

`Disagrees` is made like `Conforms`: by recursion on the document, with the segment of the entry in
front of the position below it. It has a kind besides, because a position can fail in more than one
way: at an element both another type and a missing key may be told, for different elements. The walk
goes with a path that it makes longer at each step, and the induction is therefore made for any
segments in front (`Schema.exists_disagreement_iff`).
-/

namespace TreeSchema

/-! ## Joined segments

Joining from the left with a point, except behind nothing, is joining all of them without the empty
ones in front. Once there is a text, no segment is left out any more. -/

/-- Behind a path that is not empty, segments are joined by points. -/
theorem foldl_joinPath {path : String} (h : path ≠ "") (segments : List String) :
    segments.foldl joinPath path = ".".intercalate (path :: segments) := by
  induction segments generalizing path with
  | nil => exact String.intercalate_singleton.symm
  | cons s segments ih =>
    rw [List.foldl_cons, ih (joinPath_ne_empty (.inl h)), joinPath_of_ne h,
      String.intercalate_cons_append, String.intercalate_cons_cons]

/-- **A path joins segments by points**, without empty ones in front. -/
theorem pathOf_eq (segments : List String) :
    pathOf segments = ".".intercalate (segments.dropWhile (· == "")) := by
  induction segments with
  | nil => rfl
  | cons s segments ih =>
    by_cases hs : s = ""
    · subst hs
      exact ih
    · rw [List.dropWhile_cons_of_neg (by simpa using hs)]
      exact foldl_joinPath hs segments

/-- A path is not longer than the join of its segments. -/
theorem length_pathOf_le (segments : List String) :
    (pathOf segments).length ≤ (".".intercalate segments).length := by
  induction segments with
  | nil => exact Nat.le_refl _
  | cons s segments ih =>
    by_cases hs : s = ""
    · subst hs
      refine Nat.le_trans ih ?_
      cases segments with
      | nil => exact Nat.le_refl _
      | cons segment rest =>
        rw [String.intercalate_cons_cons, String.length_append]
        exact Nat.le_add_left _ _
    · exact Nat.le_of_eq (congrArg String.length (foldl_joinPath hs segments))

/-- **The path of segments is their join** unless the first one is empty and others follow. -/
theorem pathOf_eq_intercalate_iff {segments : List String} :
    pathOf segments = ".".intercalate segments
      ↔ ∀ segment rest, segments ≠ "" :: segment :: rest := by
  constructor
  · rintro h segment rest rfl
    -- The join begins with a point that the path does without.
    have hlength : (pathOf (segment :: rest)).length
        = (".".intercalate (segment :: rest)).length + 1 := by
      refine (congrArg String.length h).trans ?_
      rw [String.intercalate_cons_cons, String.length_append, Nat.add_comm]
      rfl
    have hle := length_pathOf_le (segment :: rest)
    omega
  · intro h
    match segments with
    | [] => rfl
    | [s] => exact String.intercalate_singleton.symm
    | s :: segment :: rest =>
      refine foldl_joinPath (fun hs => ?_) (segment :: rest)
      subst hs
      exact h segment rest rfl

/-! ## Positions -/

/-- **Where data disagrees with a document, and how**: the segments that lead from the root of the
document to the position. -/
inductive Disagrees : (document data : Value) → List String → ErrorKind → Prop
  /-- A type expression that does not parse accepts at most a null. -/
  | unknownType {t : String} {v : Value} {fault : TypeFault} :
      (TypeExpr.ofText t).form = .unknown fault → ¬ Accepts (.text t) v →
      Disagrees (.text t) v [] .typeUnknown
  /-- A type expression that parses does not accept every value. -/
  | mismatch {t : String} {v : Value} :
      (∀ fault, (TypeExpr.ofText t).form ≠ .unknown fault) → ¬ Accepts (.text t) v →
      Disagrees (.text t) v [] .typeMismatch
  /-- A mapping asks for a container. -/
  | notContainer {entries : List (Value × Value)} {v : Value} : v.isContainer = false →
      Disagrees (.mapping entries) v [] .typeMismatch
  /-- The wildcard must be the only key. -/
  | crowded {entries : List (Value × Value)} {item v : Value} :
      Value.entry? (.text wildcard) entries = some item →
      ¬ (∀ e ∈ entries, isWildcard e.1 = true) → v.isContainer = true →
      Disagrees (.mapping entries) v [wildcard] .collectionDefinition
  /-- An element disagrees with what stands at the wildcard. -/
  | element {entries pairs : List (Value × Value)} {item v : Value} {q : Value × Value}
      {segments : List String} {kind : ErrorKind} :
      Value.entry? (.text wildcard) entries = some item →
      (∀ e ∈ entries, isWildcard e.1 = true) → v.pairs? = some pairs → q ∈ pairs →
      Disagrees item q.2 segments kind →
      Disagrees (.mapping entries) v (wildcard :: segments) kind
  /-- There is nothing for a field without a mark. -/
  | absent {entries : List (Value × Value)} {item v : Value} {s : String} :
      Value.entry? (.text wildcard) entries = none → v.isContainer = true →
      (.text s, item) ∈ entries → (splitMark s).1 = false →
      v.field? (.text (splitMark s).2) = none →
      Disagrees (.mapping entries) v [(splitMark s).2] .keyNotFound
  /-- What is found for a field disagrees with what stands there. -/
  | field {entries : List (Value × Value)} {item v x : Value} {s : String}
      {segments : List String} {kind : ErrorKind} :
      Value.entry? (.text wildcard) entries = none → v.isContainer = true →
      (.text s, item) ∈ entries → v.field? (.text (splitMark s).2) = some x →
      Disagrees item x segments kind →
      Disagrees (.mapping entries) v ((splitMark s).2 :: segments) kind

/-- Data disagrees with a text as its type expression finds, at whatever path. -/
theorem disagrees_text_iff {t : String} {v : Value} {segments : List String} {kind : ErrorKind}
    (path : String) :
    Disagrees (.text t) v segments kind
      ↔ segments = [] ∧ ∃ f ∈ (TypeExpr.ofText t).findings v path, f.kind = kind := by
  have haccepts : Accepts (.text t) v ↔ (TypeExpr.ofText t).findings v path = [] :=
    accepts_iff rfl v path
  have hkind : ∀ f ∈ (TypeExpr.ofText t).findings v path,
      f.kind = .typeUnknown ∧ (∃ fault, (TypeExpr.ofText t).form = .unknown fault)
        ∨ f.kind = .typeMismatch ∧ ∀ fault, (TypeExpr.ofText t).form ≠ .unknown fault :=
    fun f hf => (TypeExpr.mem_findings_iff.1 hf).kind_cases.2
  constructor
  · intro h
    refine ⟨by cases h <;> rfl, ?_⟩
    have hnot : ¬ Accepts (.text t) v := by cases h <;> assumption
    obtain ⟨f, hf⟩ := List.exists_mem_of_ne_nil _ (mt haccepts.2 hnot)
    refine ⟨f, hf, ?_⟩
    obtain ⟨hf, fault, hform⟩ | ⟨hf, hform⟩ := hkind f hf
    · cases h with
      | unknownType _ _ => exact hf
      | mismatch hknown _ => exact absurd hform (hknown fault)
    · cases h with
      | unknownType hunknown _ => exact absurd hunknown (hform _)
      | mismatch _ _ => exact hf
  · rintro ⟨rfl, f, hf, rfl⟩
    have hnot : ¬ Accepts (.text t) v := mt haccepts.1 (List.ne_nil_of_mem hf)
    obtain ⟨hf, fault, hform⟩ | ⟨hf, hform⟩ := hkind f hf
    · rw [hf]
      exact .unknownType hform hnot
    · rw [hf]
      exact .mismatch hform hnot

section Mapping

variable {entries : List (Value × Value)} {v : Value} {segments : List String} {kind : ErrorKind}

/-- A mapping asks for a container, and for nothing else where there is none. -/
theorem disagrees_iff_of_not_isContainer (hv : v.isContainer = false) :
    Disagrees (.mapping entries) v segments kind ↔ segments = [] ∧ kind = .typeMismatch := by
  constructor
  · intro h
    cases h with
    | notContainer _ => exact ⟨rfl, rfl⟩
    | crowded _ _ hcontainer | absent _ hcontainer _ _ _ | field _ hcontainer _ _ _ =>
      exact nomatch hv.symm.trans hcontainer
    | element _ _ hpairs _ _ => exact nomatch hv.symm.trans (Value.isContainer_of_pairs hpairs)
  · rintro ⟨rfl, rfl⟩
    exact .notContainer hv

/-- With other keys beside the wildcard a container disagrees at the wildcard, and nowhere below. -/
theorem disagrees_crowded_iff {item : Value}
    (hitem : Value.entry? (.text wildcard) entries = some item)
    (hcrowded : ¬ ∀ e ∈ entries, isWildcard e.1 = true) (hv : v.isContainer = true) :
    Disagrees (.mapping entries) v segments kind
      ↔ segments = [wildcard] ∧ kind = .collectionDefinition := by
  constructor
  · intro h
    cases h with
    | crowded _ _ _ => exact ⟨rfl, rfl⟩
    | notContainer hnot => exact nomatch hv.symm.trans hnot
    | element _ hall _ _ _ => exact absurd hall hcrowded
    | absent hnone _ _ _ _ | field hnone _ _ _ _ => exact nomatch hitem.symm.trans hnone
  · rintro ⟨rfl, rfl⟩
    exact .crowded hitem hcrowded hv

/-- With the wildcard alone it disagrees where an element does. -/
theorem disagrees_elements_iff {item : Value} {pairs : List (Value × Value)}
    (hitem : Value.entry? (.text wildcard) entries = some item)
    (hall : ∀ e ∈ entries, isWildcard e.1 = true) (hv : v.pairs? = some pairs) :
    Disagrees (.mapping entries) v segments kind
      ↔ ∃ q ∈ pairs, ∃ rest, Disagrees item q.2 rest kind ∧ segments = wildcard :: rest := by
  constructor
  · intro h
    cases h with
    | element hitem' _ hpairs hq h =>
      cases hitem.symm.trans hitem'
      cases hv.symm.trans hpairs
      exact ⟨_, hq, _, h, rfl⟩
    | notContainer hnot => exact nomatch (Value.isContainer_of_pairs hv).symm.trans hnot
    | crowded _ hcrowded _ => exact absurd hall hcrowded
    | absent hnone _ _ _ _ | field hnone _ _ _ _ => exact nomatch hitem.symm.trans hnone
  · rintro ⟨q, hq, rest, h, rfl⟩
    exact .element hitem hall hv hq h

/-- **How data disagrees with an entry** of a mapping without the wildcard. -/
def DisagreesAtEntry (v : Value) (e : Value × Value) (segments : List String) (kind : ErrorKind) :
    Prop :=
  ∃ s, e.1 = .text s ∧
    (v.field? (.text (splitMark s).2) = none ∧ (splitMark s).1 = false ∧
        segments = [(splitMark s).2] ∧ kind = .keyNotFound
      ∨ ∃ x rest, v.field? (.text (splitMark s).2) = some x ∧ Disagrees e.2 x rest kind ∧
          segments = (splitMark s).2 :: rest)

/-- Without it a container disagrees where it does at an entry. -/
theorem disagrees_fields_iff (hnone : Value.entry? (.text wildcard) entries = none)
    (hv : v.isContainer = true) :
    Disagrees (.mapping entries) v segments kind
      ↔ ∃ e ∈ entries, DisagreesAtEntry v e segments kind := by
  constructor
  · intro h
    cases h with
    | absent _ _ hmem hmark hx => exact ⟨_, hmem, _, rfl, .inl ⟨hx, hmark, rfl, rfl⟩⟩
    | field _ _ hmem hx h => exact ⟨_, hmem, _, rfl, .inr ⟨_, _, hx, h, rfl⟩⟩
    | notContainer hnot => exact nomatch hv.symm.trans hnot
    | crowded hitem _ _ | element hitem _ _ _ _ => exact nomatch hnone.symm.trans hitem
  · rintro ⟨⟨_, item⟩, hmem, s, rfl, ⟨hx, hmark, rfl, rfl⟩ | ⟨x, rest, hx, h, rfl⟩⟩
    · exact .absent hnone hv hmem hmark hx
    · exact .field hnone hv hmem hx h

end Mapping

/-! ## Paths of positions

What a schema finds is compared with where data disagrees, node by node. A finding is told here by
its path and its kind alone, which is all that a position and a kind can tell. -/

namespace Schema

/-- A mapping is read to no leaf. -/
theorem ne_leaf_of_ofDescription {entries : List (Value × Value)} {s : Schema}
    (read : ofDescription (.mapping entries) = .ok s) : ∀ e, s ≠ .leaf e := by
  rintro e rfl
  obtain ⟨_, _, _, -, -, -, h⟩ | ⟨-, _, -, h⟩ := ofDescription_mapping read <;> cases h

/-- A single finding is told by its path and its kind. -/
theorem exists_single_iff {g : Finding} {path : String} {kind : ErrorKind} :
    (∃ f ∈ [g], f.path = path ∧ f.kind = kind) ↔ path = g.path ∧ kind = g.kind := by
  simp only [List.mem_singleton, exists_eq_left, @eq_comm _ path, @eq_comm _ kind]

/-- The schema of a text finds how data disagrees with the text. -/
theorem exists_leafDisagreement_iff {t : String} {v : Value} {front : List String} {path : String}
    {kind : ErrorKind} :
    (∃ f ∈ (leaf (.ofText t)).disagreements v (pathOf front), f.path = path ∧ f.kind = kind)
      ↔ ∃ segments, Disagrees (.text t) v segments kind ∧ path = pathOf (front ++ segments) := by
  have hpath : ∀ f ∈ (TypeExpr.ofText t).findings v (pathOf front), f.path = pathOf front :=
    fun f hf => (TypeExpr.mem_findings_iff.1 hf).kind_cases.1
  simp only [disagreements, disagrees_text_iff (pathOf front)]
  constructor
  · rintro ⟨f, hf, rfl, hkind⟩
    exact ⟨[], ⟨rfl, f, hf, hkind⟩, by rw [List.append_nil, hpath f hf]⟩
  · rintro ⟨_, ⟨rfl, f, hf, hkind⟩, rfl⟩
    exact ⟨f, hf, by rw [List.append_nil, hpath f hf], hkind⟩

/-- The item of a collection finds how elements disagree with what stands at the wildcard. -/
theorem exists_elementDisagreement_iff {item : Value} {node : Schema}
    {pairs : List (Value × Value)} {front : List String} {path : String} {kind : ErrorKind}
    (hnode : ∀ x, (∃ f ∈ node.disagreements x (pathOf (front ++ [wildcard])),
        f.path = path ∧ f.kind = kind)
      ↔ ∃ segments, Disagrees item x segments kind ∧
          path = pathOf (front ++ [wildcard] ++ segments)) :
    (∃ f ∈ pairs.flatMap fun q => node.disagreements q.2 (joinPath (pathOf front) wildcard),
        f.path = path ∧ f.kind = kind)
      ↔ ∃ segments, (∃ q ∈ pairs, ∃ rest, Disagrees item q.2 rest kind ∧
            segments = wildcard :: rest) ∧ path = pathOf (front ++ segments) := by
  simp only [List.mem_flatMap, ← pathOf_concat]
  constructor
  · rintro ⟨f, ⟨q, hq, hf⟩, hfound⟩
    obtain ⟨rest, h, hpath⟩ := (hnode q.2).1 ⟨f, hf, hfound⟩
    exact ⟨_, ⟨q, hq, rest, h, rfl⟩, by rw [hpath, List.append_cons front wildcard rest]⟩
  · rintro ⟨_, ⟨q, hq, rest, h, rfl⟩, hpath⟩
    rw [List.append_cons] at hpath
    obtain ⟨f, hf, hfound⟩ := (hnode q.2).2 ⟨rest, h, hpath⟩
    exact ⟨f, ⟨q, hq, hf⟩, hfound⟩

/-- The field of an entry finds how data disagrees with the entry. -/
theorem exists_fieldDisagreement_iff {s : String} {item v : Value} {key : FieldKey} {node : Schema}
    {front : List String} {path : String} {kind : ErrorKind}
    (hkey : FieldKey.ofValue (.text s) = .ok key)
    (hnode : ∀ x, (∃ f ∈ node.disagreements x (pathOf (front ++ [key.name])),
        f.path = path ∧ f.kind = kind)
      ↔ ∃ segments, Disagrees item x segments kind ∧
          path = pathOf (front ++ [key.name] ++ segments)) :
    (∃ f ∈ fieldDisagreement v (pathOf front) (key, node), f.path = path ∧ f.kind = kind)
      ↔ ∃ segments, DisagreesAtEntry v (.text s, item) segments kind ∧
          path = pathOf (front ++ segments) := by
  obtain rfl := Except.ok.inj ((FieldKey.ofValue_text s).symm.trans hkey)
  -- A key that is found leads on to its value, so the cases are those of looking the key up, and
  -- within the absent one whether the key carries the mark.
  rw [fieldDisagreement, ← pathOf_concat]
  dsimp only at hnode ⊢
  cases hx : v.field? (.text (splitMark s).2) with
  | none =>
    cases hmark : (splitMark s).1 with
    | true =>
      refine iff_of_false (by simp) ?_
      rintro ⟨_, ⟨_, ⟨⟩, ⟨-, hrequired, -⟩ | ⟨y, _, hy, -⟩⟩, -⟩
      · cases hmark.symm.trans hrequired
      · cases hx.symm.trans hy
    | false =>
      constructor
      · rintro ⟨f, hf, rfl, rfl⟩
        cases List.mem_singleton.1 hf
        exact ⟨_, ⟨s, rfl, .inl ⟨hx, hmark, rfl, rfl⟩⟩, rfl⟩
      · rintro ⟨_, ⟨_, ⟨⟩, ⟨-, -, rfl, rfl⟩ | ⟨y, _, hy, -⟩⟩, rfl⟩
        · exact ⟨_, List.mem_singleton_self _, rfl, rfl⟩
        · cases hx.symm.trans hy
  | some x =>
    dsimp only
    rw [hnode]
    constructor
    · rintro ⟨rest, h, rfl⟩
      refine ⟨_, ⟨s, rfl, .inr ⟨x, rest, hx, h, rfl⟩⟩, ?_⟩
      rw [List.append_cons front (splitMark s).2 rest]
    · rintro ⟨_, ⟨_, ⟨⟩, ⟨hnone, -⟩ | ⟨y, rest, hy, h, rfl⟩⟩, rfl⟩
      · cases hx.symm.trans hnone
      · cases hx.symm.trans hy
        exact ⟨rest, h, by rw [List.append_cons]⟩

/-- **What the schema of a document finds** is where data disagrees with the document, with the path
of the segments. -/
theorem exists_disagreement_iff {document : Value} {s : Schema} (shape : document.IsDocument)
    (read : ofDescription document = .ok s) (front : List String) (v : Value) {path : String}
    {kind : ErrorKind} :
    (∃ f ∈ s.disagreements v (pathOf front), f.path = path ∧ f.kind = kind)
      ↔ ∃ segments, Disagrees document v segments kind ∧ path = pathOf (front ++ segments) := by
  -- The segments in front are kept as a list, since their path does not tell them any more.
  induction document using Value.descriptionInduction generalizing s front v with
  | leaf leaf hleaf =>
    obtain ⟨t, rfl⟩ := shape.hasTextLeaves.exists_text hleaf
    cases read
    exact exists_leafDisagreement_iff
  | mapping entries ih =>
    rw [Value.IsDocument] at shape
    cases hv : v.isContainer with
    | false =>
      rw [disagreements_of_not_isContainer (ne_leaf_of_ofDescription read) hv, exists_single_iff]
      simp only [disagrees_iff_of_not_isContainer hv, and_assoc, exists_eq_left, List.append_nil]
      exact and_comm
    | true =>
      obtain ⟨item, node, siblings, hitem, hnode, hsiblings, rfl⟩ | ⟨hnone, fs, hfs, rfl⟩ :=
        ofDescription_mapping read
      · obtain ⟨key, -, hmem⟩ := Assoc.mem_of_find? hitem
        by_cases hall : ∀ e ∈ entries, isWildcard e.1 = true
        · obtain ⟨pairs, hpairs⟩ := Option.isSome_iff_exists.1 hv
          obtain rfl := (siblingTexts_eq_nil_iff hsiblings).2 hall
          simp only [disagrees_elements_iff hitem hall hpairs, disagreements_collection hpairs]
          exact exists_elementDisagreement_iff
            (ih _ hmem (shape _ hmem).2 hnode (front ++ [wildcard]))
        · have hne := mt (siblingTexts_eq_nil_iff hsiblings).1 hall
          rw [disagreements_crowded hne hv, exists_single_iff, ← pathOf_concat]
          simp only [disagrees_crowded_iff hitem hall hv, and_assoc, exists_eq_left]
          exact and_comm
      · have hfields : (∃ e ∈ entries, ∃ segments, DisagreesAtEntry v e segments kind ∧
              path = pathOf (front ++ segments))
            ↔ ∃ f ∈ fs, ∃ g ∈ fieldDisagreement v (pathOf front) f,
                g.path = path ∧ g.kind = kind := by
          refine exists_mem_iff_of_forall₂ hfs fun e he f hf => ?_
          obtain ⟨k, item⟩ := e
          obtain ⟨⟨t, rfl, -⟩, hitem⟩ := shape _ he
          exact (exists_fieldDisagreement_iff hf.1 fun x =>
            ih (_, item) he hitem hf.2 (front ++ [f.1.name]) x).symm
        simp only [disagrees_fields_iff hnone hv, disagreements_fields hv, List.mem_flatMap]
        constructor
        · rintro ⟨g, ⟨f, hf, hg⟩, hfound⟩
          obtain ⟨e, he, segments, h, hpath⟩ := hfields.2 ⟨f, hf, g, hg, hfound⟩
          exact ⟨segments, ⟨e, he, h⟩, hpath⟩
        · rintro ⟨segments, ⟨e, he, h⟩, hpath⟩
          obtain ⟨f, hf, g, hg, hfound⟩ := hfields.1 ⟨e, he, segments, h, hpath⟩
          exact ⟨g, ⟨f, hf, hg⟩, hfound⟩

end Schema

/-! ## Checks

The three parts are about one report: what it tells, at which path, and when this path is the join
of the segments. -/

/-- A text that is nothing without its mark is empty, or the mark alone. -/
theorem eq_mark_of_splitMark_eq_empty {s : String} (h : (splitMark s).2 = "") (hne : s ≠ "") :
    s = "?" := by
  have hs := TypeExpr.mark_append_splitMark s
  rw [h, String.append_empty] at hs
  cases hmark : (splitMark s).1 with
  | true =>
    rw [hmark] at hs
    exact hs.symm
  | false =>
    rw [hmark] at hs
    exact absurd hs.symm hne

/-- A position whose first segment is empty is below a field at the root whose key is the mark
alone. -/
theorem Disagrees.exists_mark {entries : List (Value × Value)} {v : Value} {segments : List String}
    {kind : ErrorKind} (shape : (Value.mapping entries).IsDocument)
    (h : Disagrees (.mapping entries) v ("" :: segments) kind) :
    ∃ item, (.text "?", item) ∈ entries := by
  rw [Value.IsDocument] at shape
  have hkey : ∀ {s item}, (.text s, item) ∈ entries → (splitMark s).2 = "" →
      (.text "?", item) ∈ entries := by
    intro s item hmem hempty
    obtain ⟨⟨_, ⟨⟩, hne⟩, -⟩ := shape _ hmem
    rw [eq_mark_of_splitMark_eq_empty hempty hne] at hmem
    exact hmem
  generalize hsegments : "" :: segments = all at h
  cases h with
  | notContainer _ => cases hsegments
  | crowded _ _ _ | element _ _ _ _ _ =>
    exact absurd (List.cons.inj hsegments).1.symm wildcard_ne_empty
  | absent _ _ hmem _ _ | field _ _ hmem _ _ =>
    exact ⟨_, hkey hmem (List.cons.inj hsegments).1.symm⟩

namespace Matcher

/-- **Report paths are the positions of disagreements**, as far as their segments tell. On a loaded
document, a report tells of the kinds in which data disagrees, each at the path that joins the
segments of the position without empty ones in front. This path is the join of all the segments
unless the first one is empty and others follow, and so it always is if no key at the root of the
document is the mark alone. -/
theorem check_tells_segments {entries : List (Value × Value)} {m : Matcher}
    (loaded : ofDocument (.mapping entries) = .ok m)
    (short : (Value.mapping entries).HasShortNumerals) (v : Value) :
    ∃ r, m.check v = .ok r ∧
      (∀ path kind, (∃ message, r.Tells path kind message)
        ↔ entries ≠ [] ∧ ∃ segments, Disagrees (.mapping entries) v segments kind ∧
            path = ".".intercalate (segments.dropWhile (· == ""))) ∧
      (∀ segments kind, Disagrees (.mapping entries) v segments kind →
        (".".intercalate (segments.dropWhile (· == "")) = ".".intercalate segments
          ↔ ∀ segment rest, segments ≠ "" :: segment :: rest)) ∧
      ((∀ item, (.text "?", item) ∉ entries) →
        ∀ path kind message, r.Tells path kind message →
          ∃ segments, Disagrees (.mapping entries) v segments kind ∧
            path = ".".intercalate segments) := by
  obtain ⟨_, -, shape, built⟩ := ofDocument_eq_ok_iff.1 loaded
  obtain ⟨hentries, hroot⟩ := ofDescription_mapping built
  let r : Report := if m.isEmpty then .empty else .ofFindings (m.root.disagreements v "")
  -- The empty description tells nothing, whatever its data is. It is the only one for which
  -- `Disagrees` and the report differ.
  have htells : ∀ path kind, (∃ message, r.Tells path kind message)
      ↔ entries ≠ [] ∧ ∃ segments, Disagrees (.mapping entries) v segments kind ∧
          path = pathOf segments := by
    intro path kind
    have hfound : (∃ f ∈ m.root.disagreements v "", f.path = path ∧ f.kind = kind)
        ↔ ∃ segments, Disagrees (.mapping entries) v segments kind ∧ path = pathOf segments :=
      Schema.exists_disagreement_iff shape hroot [] v
    rw [← hfound]
    show (∃ message, (if m.isEmpty then Report.empty else _).Tells path kind message) ↔ _
    rw [isEmpty, hentries]
    cases entries with
    | nil =>
      refine iff_of_false (fun htells => ?_) fun h => h.1 rfl
      obtain ⟨_, _, hrow, -⟩ := htells
      cases hrow
    | cons e entries =>
      rw [List.isEmpty_cons, if_neg Bool.false_ne_true, Report.exists_tells_ofFindings_iff,
        and_iff_right (List.cons_ne_nil _ _)]
  refine ⟨r, check_eq built short v, ?_, fun segments _ _ => ?_,
    fun hmark path kind message h => ?_⟩
  · simpa only [pathOf_eq] using htells
  · rw [← pathOf_eq]
    exact pathOf_eq_intercalate_iff
  · obtain ⟨-, segments, hdisagrees, rfl⟩ := (htells path kind).1 ⟨message, h⟩
    refine ⟨segments, hdisagrees, pathOf_eq_intercalate_iff.2 ?_⟩
    -- An empty segment in front of others comes from a key that is a mark and nothing else.
    rintro segment rest rfl
    obtain ⟨item, hitem⟩ := hdisagrees.exists_mark shape
    exact hmark item hitem

/-- Rows that hold a number under the mark alone. -/
def markedRows : Matcher where
  description := [(.text "rows", .mapping [(.text "*",
    .mapping [(.text "?", .mapping [(.text "id", .text "integer")])])])]
  root := .fields [(⟨"rows", false, .text "rows"⟩, .collection []
    (.fields [(⟨"", true, .text ""⟩, .fields [(⟨"id", false, .text "id"⟩,
      .leaf (.ofText "integer"))])]))]

/-- An empty segment further below is not left out. -/
theorem check_tells_markedRows :
    ofDocument (.mapping markedRows.description) = .ok markedRows ∧
      (Value.mapping markedRows.description).HasShortNumerals ∧
      ∃ r, markedRows.check (.mapping [(.text "rows",
          .list [.mapping [(.text "", .mapping [])]])]) = .ok r ∧
        r.paths = ["rows.*..id"] ∧
        ∀ path kind message, r.Tells path kind message →
          ∃ segments, Disagrees (.mapping markedRows.description) (.mapping [(.text "rows",
              .list [.mapping [(.text "", .mapping [])]])]) segments kind ∧
            path = ".".intercalate segments := by
  have loaded : ofDocument (.mapping markedRows.description) = .ok markedRows := rfl
  have short : (Value.mapping markedRows.description).HasShortNumerals := by
    simp only [Value.HasShortNumerals, Value.AllKeys, markedRows, List.forall_mem_cons]
    exact ⟨⟨Value.isShortKey_text (by decide), ⟨Value.isShortKey_text (by decide),
      ⟨Value.isShortKey_text (by decide), ⟨Value.isShortKey_text (by decide), trivial⟩,
        List.forall_mem_nil _⟩, List.forall_mem_nil _⟩, List.forall_mem_nil _⟩,
      List.forall_mem_nil _⟩
  obtain ⟨r, hr, -, -, hjoined⟩ := check_tells_segments loaded short
    (.mapping [(.text "rows", .list [.mapping [(.text "", .mapping [])]])])
  refine ⟨loaded, short, r, hr, ?_, hjoined fun item => ?_⟩
  · cases hr
    rfl
  · simp [markedRows]

/-- A number under the mark alone. -/
def markedRoot : Matcher where
  description := [(.text "?", .mapping [(.text "a", .text "integer")])]
  root := .fields [(⟨"", true, .text ""⟩, .fields [(⟨"a", false, .text "a"⟩,
    .leaf (.ofText "integer"))])]

/-- **An empty segment at the root is left out.** Data that holds an empty mapping under the empty
key disagrees with the document below the mark, where `a` is not found. The report tells of it at
`a`, while the segments of the position are joined to `.a`. -/
theorem check_markedRoot :
    ofDocument (.mapping markedRoot.description) = .ok markedRoot ∧
      ∃ r, markedRoot.check (.mapping [(.text "", .mapping [])]) = .ok r ∧ r.paths = ["a"] ∧
        Disagrees (.mapping markedRoot.description) (.mapping [(.text "", .mapping [])]) ["", "a"]
          .keyNotFound ∧
        ∀ segments kind, Disagrees (.mapping markedRoot.description)
            (.mapping [(.text "", .mapping [])]) segments kind →
          ".".intercalate segments = ".a" := by
  have habsent : Disagrees (.mapping [(.text "a", .text "integer")]) (.mapping []) ["a"]
      .keyNotFound :=
    .absent rfl rfl (.head _) rfl rfl
  refine ⟨rfl, _, rfl, rfl, .field rfl rfl (.head _) rfl habsent, fun segments kind h => ?_⟩
  obtain ⟨e, he, s, hs, ⟨hnone, -⟩ | ⟨x, rest, hx, hbelow, rfl⟩⟩ :=
    (disagrees_fields_iff rfl rfl).1 h
  all_goals cases List.mem_singleton.1 he; cases hs
  · cases hnone
  · cases hx
    obtain ⟨e, he, s, hs, ⟨-, -, rfl, -⟩ | ⟨y, _, hy, -⟩⟩ :=
      (disagrees_fields_iff rfl rfl).1 hbelow
    all_goals cases List.mem_singleton.1 he; cases hs
    · rfl
    · cases hy

end Matcher

end TreeSchema
