import TreeSchema.Proofs.Visit

/-!
# The walk of a match

A match walks over its visits from left to right. Its findings are listed here with the trails that
they were found at (`Schema.trailed`), so that the walk can be compared with the visits: it finds
what they find (`Schema.mem_trailed_iff`), in the order of their trails (`Schema.ordered_trailed`),
and without the trails the list is that of the disagreements (`Schema.map_snd_trailed`).

The list with the trails is the middle between the two. It recurs as matching does, on the schema,
so that the one comparison is an induction with a `map` in it; and each entry of it says where it
comes from, so that the other is a statement about membership. Neither would do without it: in the
list of findings alone a finding that comes twice cannot be told from one that comes once, and the
visits alone have no order.

What a visit of each kind of node finds is said first, one equivalence for each case that the walk
distinguishes (`Schema.finds_fields_iff`, `Schema.finds_collection_iff` and the three before them).
The induction then meets the two sides in the same form and only has to take the children together,
which `Trail.branches` does by putting the position of each child in front of its trails.
-/

namespace TreeSchema

namespace TypeExpr

variable {e : TypeExpr} {v : Value} {path : String} {f : Finding}

/-! ## Type expressions

An expression fails on a value in one way at most, which its form tells: not at all on the null that
it lets pass, always if it is not known, and otherwise by the types of the value and of its pairs.
-/

/-- A type expression does not fail on the null that it lets pass. -/
theorem not_fails_of_null (h : e.nullable = true ∧ v.type = .null) : ¬ e.Fails v path f := by
  intro hf
  cases hf <;> contradiction

/-- An expression that is not known fails on any other value. -/
theorem fails_iff_of_unknown {fault : TypeFault} (hnull : ¬ (e.nullable = true ∧ v.type = .null))
    (hform : e.form = .unknown fault) : e.Fails v path f ↔ f = .unknownType path fault := by
  constructor
  · rintro (⟨-, h⟩ | ⟨-, h, -⟩ | ⟨-, h, -⟩ | ⟨-, h, -⟩) <;> cases hform.symm.trans h
    rfl
  · rintro rfl
    exact .unknown hnull hform

/-- A primitive type fails on the values of other types. -/
theorem fails_iff_of_primitive {p : Primitive} (hnull : ¬ (e.nullable = true ∧ v.type = .null))
    (hform : e.form = .primitive p) :
    e.Fails v path f ↔ v.type ≠ .primitive p ∧ f = .notPrimitive path p v := by
  constructor
  · rintro (⟨-, h⟩ | ⟨-, h, hp⟩ | ⟨-, h, -⟩ | ⟨-, h, -⟩) <;> cases hform.symm.trans h
    exact ⟨hp, rfl⟩
  · rintro ⟨hp, rfl⟩
    exact .notPrimitive hnull hform hp

/-- A pair of types fails on what is no container, and on a container with a pair of other types. -/
theorem fails_iff_of_pairs {key value : Primitive}
    (hnull : ¬ (e.nullable = true ∧ v.type = .null)) (hform : e.form = .pairs key value) :
    e.Fails v path f
      ↔ v.pairs? = none ∧ f = .notPairs path key value v
        ∨ ∃ pairs, v.pairs? = some pairs ∧
            (∃ q ∈ pairs, ¬ (q.1.type = .primitive key ∧ q.2.type = .primitive value)) ∧
            f = .wrongPair path key value := by
  constructor
  · rintro (⟨-, h⟩ | ⟨-, h, -⟩ | ⟨-, h, hv⟩ | ⟨-, h, hpairs, hq, hne⟩) <;>
      cases hform.symm.trans h
    · exact .inl ⟨Option.not_isSome_iff_eq_none.1 (ne_true_of_eq_false hv), rfl⟩
    · exact .inr ⟨_, hpairs, ⟨_, hq, hne⟩, rfl⟩
  · rintro (⟨hpairs, rfl⟩ | ⟨pairs, hpairs, ⟨q, hq, hne⟩, rfl⟩)
    · exact .notPairs hnull hform (Value.not_isContainer_of_pairs hpairs)
    · exact .wrongPair hnull hform hpairs hq hne

/-- **A type expression lists how it fails.** -/
theorem mem_findings_iff : f ∈ e.findings v path ↔ e.Fails v path f := by
  by_cases hnull : e.nullable = true ∧ v.type = .null
  · rw [findings, if_pos hnull]
    exact iff_of_false List.not_mem_nil (not_fails_of_null hnull)
  rw [findings, if_neg hnull]
  cases hform : e.form with
  | unknown fault =>
    rw [fails_iff_of_unknown hnull hform]
    exact List.mem_singleton
  | primitive p =>
    rw [fails_iff_of_primitive hnull hform]
    by_cases hp : v.type = .primitive p <;> simp [hp]
  | pairs key value =>
    rw [fails_iff_of_pairs hnull hform]
    cases hpairs : v.pairs? with
    | none => simp
    | some pairs =>
      have htest : ∀ q : Value × Value,
          (q.1.type ≠ .primitive key || q.2.type ≠ .primitive value) = true
            ↔ ¬ (q.1.type = .primitive key ∧ q.2.type = .primitive value) := by
        intro q
        rw [Bool.or_eq_true, decide_eq_true_eq, decide_eq_true_eq, Decidable.not_and_iff_not_or_not]
      simp only [List.mem_map, List.mem_filter]
      constructor
      · rintro ⟨q, ⟨hq, hne⟩, rfl⟩
        exact .inr ⟨pairs, rfl, ⟨q, hq, (htest q).1 hne⟩, rfl⟩
      · rintro (⟨h, -⟩ | ⟨_, ⟨⟩, ⟨q, hq, hne⟩, rfl⟩)
        · cases h
        · exact ⟨q, ⟨hq, (htest q).2 hne⟩, rfl⟩

/-- A type expression fails on a value in one way only. -/
theorem Fails.unique {g : Finding} (hf : e.Fails v path f) (hg : e.Fails v path g) : f = g := by
  by_cases hnull : e.nullable = true ∧ v.type = .null
  · exact absurd hf (not_fails_of_null hnull)
  cases hform : e.form with
  | unknown fault =>
    rw [fails_iff_of_unknown hnull hform] at hf hg
    exact hf.trans hg.symm
  | primitive p =>
    rw [fails_iff_of_primitive hnull hform] at hf hg
    exact hf.2.trans hg.2.symm
  | pairs key value =>
    rw [fails_iff_of_pairs hnull hform] at hf hg
    cases hpairs : v.pairs? with
    | none => simp_all
    | some pairs => simp_all

end TypeExpr

namespace Schema

/-! ## The findings with their trails

The same recursion as in matching, with the position of each child put in front of what is found
below it. Fields are numbered in the order of the schema, whatever the data holds, and the elements
of a collection in the order of the data. -/

mutual

/-- **The findings of a schema with their trails**, in the order of the walk. -/
def trailed : Schema → Value → String → List (Trail × Finding)
  | .leaf e, v, path => (e.findings v path).map ([], ·)
  | .collection siblings item, v, path =>
    match v.pairs? with
    | none => [([], .notContainer path v)]
    | some pairs =>
      if siblings.isEmpty then
        Trail.branches (pairs.map fun q => item.trailed q.2 (joinPath path wildcard))
      else [([], .crowdedCollection (joinPath path wildcard))]
  | .fields fs, v, path =>
    if v.isContainer then Trail.branches (fieldBranches fs v path)
    else [([], .notContainer path v)]

/-- The findings of each field in a container with their trails. -/
def fieldBranches : List (FieldKey × Schema) → Value → String → List (List (Trail × Finding))
  | [], _, _ => []
  | (key, s) :: fs, v, path =>
    (match v.field? key.key with
      | some x => s.trailed x (joinPath path key.name)
      | none => if key.optional then [] else [([], .absentKey (joinPath path key.name))]) ::
    fieldBranches fs v path

end

/-- What one field finds in a container, with the trails below its own position. -/
def fieldTrailed (v : Value) (path : String) (f : FieldKey × Schema) : List (Trail × Finding) :=
  match v.field? f.1.key with
  | some x => f.2.trailed x (joinPath path f.1.name)
  | none => if f.1.optional then [] else [([], .absentKey (joinPath path f.1.name))]

/-- What the fields find, one after the other. -/
theorem fieldBranches_eq_map (fs : List (FieldKey × Schema)) (v : Value) (path : String) :
    fieldBranches fs v path = fs.map (fieldTrailed v path) := by
  induction fs with
  | nil => rfl
  | cons f fs ih => rw [fieldBranches, ih]; rfl

/-- **The walk goes in the order of the trails.** -/
theorem ordered_trailed (s : Schema) (v : Value) (path : String) :
    Trail.Ordered (s.trailed v path) := by
  induction s generalizing v path with
  | leaf e =>
    -- All findings of a leaf have the empty trail, so they are in order only as they are equal.
    rw [trailed]
    refine List.pairwise_map.2 (List.pairwise_of_forall_mem_list fun f hf g hg => ?_)
    have hsame : f = g :=
      (TypeExpr.mem_findings_iff.1 hf).unique (TypeExpr.mem_findings_iff.1 hg)
    exact .inr (by rw [hsame])
  | collection siblings item ih =>
    rw [trailed]
    split
    · exact List.pairwise_singleton _ _
    · split
      · refine Trail.ordered_branches fun l hl => ?_
        obtain ⟨q, -, rfl⟩ := List.mem_map.1 hl
        exact ih _ _
      · exact List.pairwise_singleton _ _
  | fields fs ih =>
    rw [trailed, fieldBranches_eq_map]
    split
    · refine Trail.ordered_branches fun l hl => ?_
      obtain ⟨f, hf, rfl⟩ := List.mem_map.1 hl
      unfold fieldTrailed
      split
      · exact ih f hf _ _
      · split
        · exact .nil
        · exact List.pairwise_singleton _ _
    · exact List.pairwise_singleton _ _

/-- Without their trails the findings of the walk are the disagreements. -/
theorem map_snd_trailed (s : Schema) (v : Value) (path : String) :
    (s.trailed v path).map Prod.snd = s.disagreements v path := by
  induction s generalizing v path with
  | leaf e =>
    rw [trailed, disagreements, List.map_map]
    exact List.map_id _
  | collection siblings item ih =>
    rw [trailed, disagreements]
    cases v.pairs? with
    | none => rfl
    | some pairs =>
      dsimp only
      split
      · rw [Trail.map_snd_branches, List.map_map, List.flatMap_def]
        exact congrArg List.flatten (List.map_congr_left fun q _ => ih _ _)
      · rfl
  | fields fs ih =>
    rw [trailed, disagreements]
    split
    · rw [fieldBranches_eq_map, fieldDisagreements_eq_flatMap, Trail.map_snd_branches,
        List.map_map, List.flatMap_def]
      refine congrArg List.flatten (List.map_congr_left fun f hf => ?_)
      show (fieldTrailed v path f).map Prod.snd = fieldDisagreement v path f
      unfold fieldTrailed fieldDisagreement
      cases v.field? f.1.key with
      | some x => exact ih f hf _ _
      | none => cases f.1.optional <;> rfl
    · rfl

/-! ## The walk and the visits

What the visits find is brought into the form in which the walk lists it: by the node, then by the
position of the child. -/

section

variable {v : Value} {path : String} {t : Trail} {f : Finding}

/-- What a visit of a type expression finds, it finds by itself. -/
theorem finds_leaf_iff {e : TypeExpr} :
    Visit.Finds ⟨.leaf e, v, path⟩ t f ↔ t = [] ∧ e.Fails v path f := by
  rw [Visit.finds_iff]
  constructor
  · rintro (⟨⟨h⟩⟩ | ⟨_, _, _, -, ⟨⟩, -⟩)
    exact ⟨rfl, h⟩
  · rintro ⟨rfl, h⟩
    exact .inl (.leaf h)

/-- Fields and a collection find nothing but the missing container where there is none. -/
theorem finds_notContainer_iff {s : Schema} (hs : ∀ e, s ≠ .leaf e) (hv : v.isContainer = false) :
    Visit.Finds ⟨s, v, path⟩ t f ↔ t = [] ∧ f = .notContainer path v := by
  rw [Visit.finds_iff]
  constructor
  · rintro (h | ⟨_, _, _, -, h, -⟩)
    · cases h with
      | leaf _ => exact absurd rfl (hs _)
      | absent hyes | crowded hyes => exact absurd hyes (ne_true_of_eq_false hv)
      | fieldsNotContainer _ | collectionNotContainer _ => exact ⟨rfl, rfl⟩
    · cases h with
      | field hyes => exact absurd hyes (ne_true_of_eq_false hv)
      | element hv' => exact absurd (Value.isContainer_of_pairs hv') (ne_true_of_eq_false hv)
  · rintro ⟨rfl, rfl⟩
    cases s with
    | leaf e => exact absurd rfl (hs e)
    | collection siblings item => exact .inl (.collectionNotContainer hv)
    | fields fs => exact .inl (.fieldsNotContainer hv)

/-- A collection with siblings finds nothing else in a container. -/
theorem finds_crowded_iff {siblings : List String} {item : Schema} (hv : v.isContainer = true)
    (hne : siblings ≠ []) :
    Visit.Finds ⟨.collection siblings item, v, path⟩ t f
      ↔ t = [] ∧ f = .crowdedCollection (joinPath path wildcard) := by
  rw [Visit.finds_iff]
  constructor
  · rintro (h | ⟨_, _, _, -, h, -⟩)
    · cases h with
      | collectionNotContainer hno => exact absurd hv (ne_true_of_eq_false hno)
      | crowded _ _ => exact ⟨rfl, rfl⟩
    · cases h with
      | element _ _ => exact absurd rfl hne
  · rintro ⟨rfl, rfl⟩
    exact .inl (.crowded hv hne)

/-- What a visit of fields finds, position by position. -/
theorem finds_fields_iff {fs : List (FieldKey × Schema)} (hv : v.isContainer = true) :
    Visit.Finds ⟨.fields fs, v, path⟩ t f
      ↔ ∃ i u key s, t = i :: u ∧ fs[i]? = some (key, s) ∧
          ((∃ x, v.field? key.key = some x ∧ Visit.Finds ⟨s, x, joinPath path key.name⟩ u f)
            ∨ v.field? key.key = none ∧ key.optional = false ∧ u = [] ∧
              f = .absentKey (joinPath path key.name)) := by
  rw [Visit.finds_iff]
  constructor
  · rintro (h | ⟨i, _, u, rfl, h, hf⟩)
    · cases h with
      | fieldsNotContainer hno => exact absurd hv (ne_true_of_eq_false hno)
      | absent _ hi hx ho => exact ⟨_, [], _, _, rfl, hi, .inr ⟨hx, ho, rfl, rfl⟩⟩
    · cases h with
      | field _ hi hx => exact ⟨i, u, _, _, rfl, hi, .inl ⟨_, hx, hf⟩⟩
  · rintro ⟨i, u, key, s, rfl, hi, ⟨x, hx, hf⟩ | ⟨hx, ho, rfl, rfl⟩⟩
    · exact .inr ⟨i, _, u, rfl, .field hv hi hx, hf⟩
    · exact .inl (.absent hv hi hx ho)

/-- What a visit of a collection finds, element by element. -/
theorem finds_collection_iff {item : Schema} {pairs : List (Value × Value)}
    (hv : v.pairs? = some pairs) :
    Visit.Finds ⟨.collection [] item, v, path⟩ t f
      ↔ ∃ i u q, t = i :: u ∧ pairs[i]? = some q ∧
          Visit.Finds ⟨item, q.2, joinPath path wildcard⟩ u f := by
  have hcontainer := Value.isContainer_of_pairs hv
  rw [Visit.finds_iff]
  constructor
  · rintro (h | ⟨i, _, u, rfl, h, hf⟩)
    · cases h with
      | collectionNotContainer hno => exact absurd hcontainer (ne_true_of_eq_false hno)
      | crowded _ hne => exact absurd rfl hne
    · cases h with
      | element hv' hi =>
        cases hv.symm.trans hv'
        exact ⟨i, u, _, rfl, hi, hf⟩
  · rintro ⟨i, u, q, rfl, hi, hf⟩
    exact .inr ⟨i, _, u, rfl, .element hv hi, hf⟩

end

/-- What one field finds is what the visit that it leads to finds, or its own absence. -/
theorem mem_fieldTrailed_iff {v : Value} {path : String} {key : FieldKey} {s : Schema} {t : Trail}
    {f : Finding}
    (h : ∀ x, (t, f) ∈ s.trailed x (joinPath path key.name)
      ↔ Visit.Finds ⟨s, x, joinPath path key.name⟩ t f) :
    (t, f) ∈ fieldTrailed v path (key, s)
      ↔ (∃ x, v.field? key.key = some x ∧ Visit.Finds ⟨s, x, joinPath path key.name⟩ t f)
        ∨ v.field? key.key = none ∧ key.optional = false ∧ t = [] ∧
            f = .absentKey (joinPath path key.name) := by
  unfold fieldTrailed
  cases v.field? key.key with
  | some x => simp [h]
  | none => cases key.optional <;> simp

/-- **The walk finds what the visits find**, each finding under its trail. -/
theorem mem_trailed_iff {s : Schema} {v : Value} {path : String} {t : Trail} {f : Finding} :
    (t, f) ∈ s.trailed v path ↔ Visit.Finds ⟨s, v, path⟩ t f := by
  induction s generalizing v path t f with
  | leaf e =>
    rw [trailed, finds_leaf_iff, ← TypeExpr.mem_findings_iff, List.mem_map]
    constructor
    · rintro ⟨g, hg, heq⟩
      cases heq
      exact ⟨rfl, hg⟩
    · rintro ⟨rfl, hf⟩
      exact ⟨f, hf, rfl⟩
  | collection siblings item ih =>
    rw [trailed]
    cases hv : v.pairs? with
    | none =>
      rw [finds_notContainer_iff (by simp) (Value.not_isContainer_of_pairs hv)]
      simp
    | some pairs =>
      dsimp only
      cases siblings with
      | nil =>
        rw [finds_collection_iff hv, if_pos List.isEmpty_nil, Trail.mem_branches]
        simp only [List.getElem?_map, Option.map_eq_some_iff]
        constructor
        · rintro ⟨i, u, _, rfl, ⟨q, hq, rfl⟩, hmem⟩
          exact ⟨i, u, q, rfl, hq, ih.1 hmem⟩
        · rintro ⟨i, u, q, rfl, hq, hf⟩
          exact ⟨i, u, _, rfl, ⟨q, hq, rfl⟩, ih.2 hf⟩
      | cons name names =>
        -- A wildcard beside other keys is told of and not gone into.
        rw [finds_crowded_iff (Value.isContainer_of_pairs hv) (List.cons_ne_nil _ _)]
        simp
  | fields fs ih =>
    rw [trailed]
    cases hv : v.isContainer with
    | false =>
      rw [finds_notContainer_iff (by simp) hv, if_neg Bool.false_ne_true]
      simp
    | true =>
      rw [finds_fields_iff hv, if_pos rfl, fieldBranches_eq_map, Trail.mem_branches]
      simp only [List.getElem?_map, Option.map_eq_some_iff]
      constructor
      · rintro ⟨i, u, _, rfl, ⟨⟨key, s⟩, hi, rfl⟩, hmem⟩
        refine ⟨i, u, key, s, rfl, hi, ?_⟩
        exact (mem_fieldTrailed_iff fun _ => ih _ (List.mem_of_getElem? hi)).1 hmem
      · rintro ⟨i, u, key, s, rfl, hi, hfinds⟩
        refine ⟨i, u, _, rfl, ⟨(key, s), hi, rfl⟩, ?_⟩
        exact (mem_fieldTrailed_iff fun _ => ih _ (List.mem_of_getElem? hi)).2 hfinds

end Schema

end TreeSchema
