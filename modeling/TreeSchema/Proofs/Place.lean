import Mathlib.Data.Finset.Image
import TreeSchema.Proofs.Disagreement
import TreeSchema.Proofs.Trail

/-!
# The places of a schema

A schema is a tree, and a place in it is reached from the root by a trail (`Schema.place?`). On the
way the segments are met that make up the path of the place (`Schema.path?`): the names of fields,
and the wildcard for the item of a collection. If names are not empty, hold no point and differ at
each level (`Schema.HasPlainNames`), a path can be split into its segments again (`splitOn_pathOf`),
and the segments lead to one place only. So different places have different paths
(`Schema.HasPlainNames.eq_of_path_eq`), and a path that goes on behind another one belongs to a
place below (`Schema.HasPlainNames.prefix_of_path_eq_append`).

Each of the three conditions is needed for this. A name with a point in it makes one segment look
like two; an empty name is not seen at the root; and two fields of one name, which a text with a
mark and the same text without one can be, share a path although they are two places.

The wildcard may be the name of a field, too. It does not stand for an item then, as no node has
both fields and an item.

A place is a place of the schema and not of the data. The elements of a collection are all at one
place, and this is how a report speaks of them: one path for all of them, which is why it has no
more paths than the schema has places.
-/

namespace TreeSchema

/-- **The path of segments**, from the root down. -/
def pathOf (segments : List String) : String := segments.foldl joinPath ""

/-- A segment more is joined to the path. -/
theorem pathOf_concat (segments : List String) (segment : String) :
    pathOf (segments ++ [segment]) = joinPath (pathOf segments) segment :=
  List.foldl_append

/-- Whether a name is a segment of its own in a path: it is not empty and holds no point. -/
def IsPlainName (name : String) : Prop := name ≠ "" ∧ '.' ∉ name.toList

instance : DecidablePred IsPlainName := fun _ => inferInstanceAs (Decidable (_ ∧ _))

/-- The wildcard is a plain name. -/
theorem isPlainName_wildcard : IsPlainName wildcard := by decide

/-! ## Paths and their segments

Splitting a path at its points undoes joining, segment by segment from the end. -/

/-- A text with a point in it is split there. -/
theorem splitOn_point {p q : String} :
    (p ++ "." ++ q).toList.splitOn '.' = p.toList.splitOn '.' ++ q.toList.splitOn '.' := by
  rw [String.toList_append, String.toList_append, List.append_assoc]
  exact List.splitOnP_append_cons _ _ BEq.rfl

/-- A plain name is not split. -/
theorem splitOn_of_isPlainName {name : String} (h : IsPlainName name) :
    name.toList.splitOn '.' = [name.toList] := by
  refine List.splitOnP_eq_singleton fun c hc => ?_
  refine beq_false_of_ne ?_
  rintro rfl
  exact h.2 hc

/-- Plain names have a path that is not empty, unless there are none. -/
theorem pathOf_ne_empty {segments : List String} (h : ∀ s ∈ segments, IsPlainName s)
    (hne : segments ≠ []) : pathOf segments ≠ "" := by
  cases segments using List.reverseRecOn with
  | nil => exact absurd rfl hne
  | append_singleton segments s =>
    rw [pathOf_concat]
    exact joinPath_ne_empty (.inr (h s (by simp)).1)

/-- **A path can be split into its segments again**, if all of them are plain names. -/
theorem splitOn_pathOf {segments : List String} (h : ∀ s ∈ segments, IsPlainName s)
    (hne : segments ≠ []) : (pathOf segments).toList.splitOn '.' = segments.map String.toList := by
  -- Paths are made from the root down, so the last segment is taken off.
  induction segments using List.reverseRecOn with
  | nil => exact absurd rfl hne
  | append_singleton segments s ih =>
    have hs : IsPlainName s := h s (by simp)
    rw [pathOf_concat, List.map_append, List.map_singleton]
    by_cases hsegments : segments = []
    · subst hsegments
      exact splitOn_of_isPlainName hs
    · have hall : ∀ x ∈ segments, IsPlainName x := fun x hx => h x (List.mem_append_left _ hx)
      rw [joinPath_of_ne (pathOf_ne_empty hall hsegments), splitOn_point, ih hall hsegments,
        splitOn_of_isPlainName hs]

/-- Lists of texts are told apart by their characters. -/
theorem map_toList_injective : Function.Injective (List.map String.toList) :=
  List.map_injective_iff.2 fun _ _ => String.toList_injective

/-- Plain names with one path are the same names. -/
theorem pathOf_inj {a b : List String} (ha : ∀ s ∈ a, IsPlainName s)
    (hb : ∀ s ∈ b, IsPlainName s) (h : pathOf a = pathOf b) : a = b := by
  by_cases hane : a = []
  · by_cases hbne : b = []
    · rw [hane, hbne]
    · rw [hane] at h
      exact absurd h.symm (pathOf_ne_empty hb hbne)
  · by_cases hbne : b = []
    · rw [hbne] at h
      exact absurd h (pathOf_ne_empty ha hane)
    · have hsplit := splitOn_pathOf ha hane
      rw [h, splitOn_pathOf hb hbne] at hsplit
      exact (map_toList_injective hsplit).symm

/-- The segments of a path that goes on behind another path begin with the segments of the other. -/
theorem exists_append_of_pathOf {a b : List String} (ha : ∀ s ∈ a, IsPlainName s)
    (hb : ∀ s ∈ b, IsPlainName s) (hane : a ≠ []) {rest : String}
    (h : pathOf b = pathOf a ++ "." ++ rest) : ∃ more, b = a ++ more := by
  have hbne : b ≠ [] := by
    rintro rfl
    exact absurd (String.append_eq_empty_iff.1 (String.append_eq_empty_iff.1 h.symm).1).2
      (by decide)
  have hsplit := splitOn_pathOf hb hbne
  rw [h, splitOn_point, splitOn_pathOf ha hane] at hsplit
  obtain ⟨front, more, rfl, hfront, -⟩ := List.map_eq_append_iff.1 hsplit.symm
  exact ⟨more, by rw [map_toList_injective hfront]⟩

/-! ## Places

The places are told by trails, as visits are, and a trail goes the same positions down a schema as
down a match, except that an element of a collection has its own position there and not here. -/

namespace Schema

/-- **The schemas one step below a schema**, each with the segment that leads to it. -/
def children : Schema → List (String × Schema)
  | .leaf _ => []
  | .collection _ item => [(wildcard, item)]
  | .fields fs => fs.map fun f => (f.1.name, f.2)

/-- The schema of a field is one of the children, with the name of the field. -/
theorem children_fields {fs : List (FieldKey × Schema)} {i : Nat} {key : FieldKey} {s : Schema}
    (h : fs[i]? = some (key, s)) : (fields fs).children[i]? = some (key.name, s) := by
  rw [children, List.getElem?_map, h]
  rfl

/-- **The place at a trail**: the segments that lead to it, and the schema that stands there. -/
def place? (s : Schema) : Trail → Option (List String × Schema)
  | [] => some ([], s)
  | i :: t => s.children[i]?.bind fun c => (c.2.place? t).map fun p => (c.1 :: p.1, p.2)

/-- **The path of the place at a trail.** -/
def path? (s : Schema) (t : Trail) : Option String := (s.place? t).map fun p => pathOf p.1

variable {s a b : Schema} {t u : Trail} {i j : Nat} {segment : String} {segments : List String}

/-- The path of a place is that of its segments. -/
theorem path?_eq_some_iff {path : String} :
    s.path? t = some path
      ↔ ∃ segments a, s.place? t = some (segments, a) ∧ pathOf segments = path := by
  simp only [path?, Option.map_eq_some_iff, Prod.exists]

/-- The place at a trail lies in the child that the trail begins with. -/
theorem place?_cons_eq_some_iff :
    s.place? (i :: t) = some (segments, a)
      ↔ ∃ segment c rest, s.children[i]? = some (segment, c) ∧ c.place? t = some (rest, a) ∧
          segments = segment :: rest := by
  simp only [place?, Option.bind_eq_some_iff, Option.map_eq_some_iff]
  constructor
  · rintro ⟨⟨segment, c⟩, hc, ⟨rest, n⟩, hn, heq⟩
    cases heq
    exact ⟨segment, c, rest, hc, hn, rfl⟩
  · rintro ⟨segment, c, rest, hc, hn, rfl⟩
    exact ⟨_, hc, _, hn, rfl⟩

/-- A step down from a place leads to the place behind it. -/
theorem place?_concat (h : s.place? t = some (segments, a))
    (hc : a.children[i]? = some (segment, b)) :
    s.place? (t ++ [i]) = some (segments ++ [segment], b) := by
  induction t generalizing s segments with
  | nil =>
    cases h
    exact place?_cons_eq_some_iff.2 ⟨segment, b, [], hc, rfl, rfl⟩
  | cons j t ih =>
    obtain ⟨first, c, rest, hfirst, hrest, rfl⟩ := place?_cons_eq_some_iff.1 h
    exact place?_cons_eq_some_iff.2 ⟨first, c, _, hfirst, ih hrest, rfl⟩

/-! ## Plain names

What is asked of the names at one level is that they differ and are plain. It is asked at every
level, and what holds of a schema holds of its children. -/

/-- **Whether the names of fields are plain and differ**, at every level of a schema. -/
def HasPlainNames : Schema → Prop
  | .leaf _ => True
  | .collection _ item => item.HasPlainNames
  | .fields fs => (fs.map fun f => f.1.name).Nodup ∧
      ∀ f ∈ fs, IsPlainName f.1.name ∧ f.2.HasPlainNames
termination_by s => sizeOf s
decreasing_by
  · exact sizeOf_item_lt _ _
  · exact sizeOf_lt_of_mem ‹f ∈ fs›

namespace HasPlainNames

/-- The segments one step down are plain and differ. -/
theorem children (h : s.HasPlainNames) :
    (s.children.map Prod.fst).Nodup ∧ ∀ c ∈ s.children, IsPlainName c.1 ∧ c.2.HasPlainNames := by
  cases s with
  | leaf e => exact ⟨.nil, List.forall_mem_nil _⟩
  | collection siblings item =>
    rw [HasPlainNames] at h
    exact ⟨List.nodup_singleton _,
      List.forall_mem_singleton.2 ⟨isPlainName_wildcard, h⟩⟩
  | fields fs =>
    rw [HasPlainNames] at h
    rw [Schema.children, List.map_map]
    exact ⟨h.1, List.forall_mem_map.2 h.2⟩

/-- The segment of a child is plain, and so are the names below it. -/
theorem child (h : s.HasPlainNames) (hc : s.children[i]? = some (segment, a)) :
    IsPlainName segment ∧ a.HasPlainNames :=
  h.children.2 _ (List.mem_of_getElem? hc)

/-- A segment leads one step down at one position only. -/
theorem child_inj (h : s.HasPlainNames) (hi : s.children[i]? = some (segment, a))
    (hj : s.children[j]? = some (segment, b)) : i = j := by
  have hname : ∀ {k : Nat} {c : Schema}, s.children[k]? = some (segment, c) →
      (s.children.map Prod.fst)[k]? = some segment := by
    intro k c hk
    rw [List.getElem?_map, hk]
    rfl
  have hlt := (List.getElem?_eq_some_iff.1 (hname hi)).1
  exact (List.getElem?_inj hlt h.children.1).1 ((hname hi).trans (hname hj).symm)

/-- The segments that lead to a place are plain. -/
theorem isPlainName (h : s.HasPlainNames) (ht : s.place? t = some (segments, a)) :
    ∀ x ∈ segments, IsPlainName x := by
  induction t generalizing s segments with
  | nil =>
    cases ht
    exact List.forall_mem_nil _
  | cons i t ih =>
    obtain ⟨segment, c, rest, hc, hrest, rfl⟩ := place?_cons_eq_some_iff.1 ht
    obtain ⟨hsegment, hplain⟩ := h.child hc
    exact List.forall_mem_cons.2 ⟨hsegment, ih hplain hrest⟩

/-- **Segments lead along one trail only**: more segments go on from the place that the first of
them lead to. -/
theorem prefix_of_segments (h : s.HasPlainNames) {more : List String}
    (ht : s.place? t = some (segments, a)) (hu : s.place? u = some (segments ++ more, b)) :
    t <+: u := by
  induction t generalizing s segments u with
  | nil => exact List.nil_prefix
  | cons i t ih =>
    obtain ⟨segment, c, rest, hc, hrest, rfl⟩ := place?_cons_eq_some_iff.1 ht
    cases u with
    | nil => cases hu
    | cons j u =>
      obtain ⟨segment', c', rest', hc', hrest', heq⟩ := place?_cons_eq_some_iff.1 hu
      cases heq
      cases h.child_inj hc hc'
      cases hc.symm.trans hc'
      exact List.cons_prefix_cons.2 ⟨rfl, ih (h.child hc).2 hrest hrest'⟩

/-- **Different places have different paths.** -/
theorem eq_of_path_eq (h : s.HasPlainNames) {path : String} (ht : s.path? t = some path)
    (hu : s.path? u = some path) : t = u := by
  obtain ⟨p, a, htrail, rfl⟩ := path?_eq_some_iff.1 ht
  obtain ⟨q, b, hutrail, hpath⟩ := path?_eq_some_iff.1 hu
  cases pathOf_inj (h.isPlainName hutrail) (h.isPlainName htrail) hpath
  have htu : t <+: u := h.prefix_of_segments htrail ((List.append_nil p).symm ▸ hutrail)
  have hut : u <+: t := h.prefix_of_segments hutrail ((List.append_nil p).symm ▸ htrail)
  exact htu.eq_of_length_le hut.length_le

/-- **A path that goes on behind another one** belongs to a place below the place of the other. -/
theorem prefix_of_path_eq_append (h : s.HasPlainNames) {path rest : String} (hne : t ≠ [])
    (ht : s.path? t = some path) (hu : s.path? u = some (path ++ "." ++ rest)) : t <+: u := by
  obtain ⟨p, a, htrail, rfl⟩ := path?_eq_some_iff.1 ht
  obtain ⟨q, b, hutrail, hpath⟩ := path?_eq_some_iff.1 hu
  have hp : p ≠ [] := by
    obtain ⟨i, t, rfl⟩ := List.exists_cons_of_ne_nil hne
    obtain ⟨segment, c, rest, -, -, rfl⟩ := place?_cons_eq_some_iff.1 htrail
    exact List.cons_ne_nil _ _
  obtain ⟨more, rfl⟩ :=
    exists_append_of_pathOf (h.isPlainName htrail) (h.isPlainName hutrail) hp hpath
  exact h.prefix_of_segments htrail hutrail

end HasPlainNames

/-! ## All the places

The places are listed so that they can be counted. The list goes as the walk does, each place before
those below it. -/

mutual

/-- The schemas at all places, with the trails that lead there. -/
def places : Schema → List (Trail × Schema)
  | .leaf e => [([], .leaf e)]
  | .collection siblings item =>
    ([], .collection siblings item) :: Trail.branches [item.places]
  | .fields fs => ([], .fields fs) :: Trail.branches (fieldPlaces fs)

/-- The schemas at all places below each field. -/
def fieldPlaces : List (FieldKey × Schema) → List (List (Trail × Schema))
  | [] => []
  | (_, s) :: fs => s.places :: fieldPlaces fs

end

/-- The places below each field are those of its schema. -/
theorem fieldPlaces_eq_map (fs : List (FieldKey × Schema)) :
    fieldPlaces fs = fs.map fun f => f.2.places := by
  induction fs with
  | nil => rfl
  | cons f fs ih => rw [fieldPlaces, ih]; rfl

/-- The places of a schema are itself and those of its children. -/
theorem places_eq (s : Schema) :
    s.places = ([], s) :: Trail.branches (s.children.map fun c => c.2.places) := by
  cases s with
  | leaf e => rw [places]; rfl
  | collection siblings item => rw [places]; rfl
  | fields fs =>
    rw [places, fieldPlaces_eq_map, children, List.map_map]
    rfl

/-- The list has all the places, and nothing else. -/
theorem mem_places : (t, a) ∈ s.places ↔ ∃ segments, s.place? t = some (segments, a) := by
  induction t generalizing s with
  | nil =>
    rw [places_eq, List.mem_cons, Trail.mem_branches]
    constructor
    · rintro (heq | ⟨_, _, _, ⟨⟩, -⟩)
      cases heq
      exact ⟨[], rfl⟩
    · rintro ⟨_, ⟨⟩⟩
      exact .inl rfl
  | cons i t ih =>
    rw [places_eq, List.mem_cons, Trail.mem_branches]
    simp only [List.getElem?_map, Option.map_eq_some_iff, place?_cons_eq_some_iff]
    constructor
    · rintro (⟨⟨⟩⟩ | ⟨_, _, _, ⟨⟩, ⟨c, hc, rfl⟩, hmem⟩)
      obtain ⟨rest, hrest⟩ := ih.1 hmem
      exact ⟨_, c.1, c.2, rest, hc, hrest, rfl⟩
    · rintro ⟨_, segment, c, rest, hc, hrest, rfl⟩
      exact .inr ⟨i, t, _, rfl, ⟨_, hc, rfl⟩, ih.2 ⟨rest, hrest⟩⟩

/-- **The trails of all places of a schema.** -/
def trails (s : Schema) : Finset Trail := (s.places.map Prod.fst).toFinset

/-- A trail leads to a place if there is a path there. -/
theorem mem_trails : t ∈ s.trails ↔ ∃ path, s.path? t = some path := by
  rw [trails, List.mem_toFinset, List.mem_map]
  simp only [path?_eq_some_iff]
  constructor
  · rintro ⟨⟨_, a⟩, hmem, rfl⟩
    obtain ⟨segments, h⟩ := mem_places.1 hmem
    exact ⟨_, segments, a, h, rfl⟩
  · rintro ⟨_, segments, a, h, -⟩
    exact ⟨(t, a), mem_places.2 ⟨segments, h⟩, rfl⟩

end Schema

end TreeSchema
