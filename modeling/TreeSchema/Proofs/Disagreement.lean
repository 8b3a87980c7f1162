import TreeSchema.Matcher
import TreeSchema.Proofs.Field

/-!
# The disagreements of data with a schema

Matching is refused only where the key of a field cannot be spelled; what it finds otherwise is a
plain function of the schema, the data and the path (`Schema.disagreements`).

This function is what nearly everything after it is about. Matching itself is a computation that may
be refused at every field, and its result is a list inside of that; the function has the list alone,
by the same recursion, with what a container holds for a field (`Value.field?`) in the place of the
look-up. That the two are the same where nothing is refused is `Schema.ends_findings`.

What it finds is said case by case (`Schema.disagreements_fields`, `Schema.disagreements_collection`
and the two before them), so that no proof has to unfold the recursion: a node that is no leaf and
meets no container has one finding, a collection with siblings has one, and otherwise the findings
of the children stand one after the other.

An induction on a schema goes by `Schema.induction`: a schema has its fields in a list, and what
holds of them is needed for each of them, not for the list.
-/

namespace TreeSchema

/-! ## Paths

A path is joined with a point, except at the root, whose path is empty. So an empty segment at the
root leaves the path empty, and this is the only way in which the path below a node can be that of
the root. -/

/-- The wildcard is a segment. -/
theorem wildcard_ne_empty : wildcard ≠ "" := by decide

/-- Below the root a segment is joined with a point. -/
theorem joinPath_of_ne {parent : String} (h : parent ≠ "") (segment : String) :
    joinPath parent segment = parent ++ "." ++ segment :=
  if_neg (mt String.isEmpty_iff.1 h)

/-- A path is empty only for an empty segment at the root. -/
theorem joinPath_ne_empty {parent segment : String} (h : parent ≠ "" ∨ segment ≠ "") :
    joinPath parent segment ≠ "" := by
  unfold joinPath
  split
  · rename_i hparent
    exact h.resolve_left fun hne => hne (String.isEmpty_iff.1 hparent)
  · intro hempty
    rw [String.append_assoc, String.append_eq_empty_iff, String.append_eq_empty_iff] at hempty
    exact absurd hempty.2.1 (by decide)

/-! ## Containers

A value is a container if it has pairs of a key and a value. -/

namespace Value

variable {v : Value}

/-- What has pairs is a container. -/
theorem isContainer_of_pairs {pairs : List (Value × Value)} (h : v.pairs? = some pairs) :
    v.isContainer = true := by
  rw [isContainer, h]
  rfl

/-- What has none is no container. -/
theorem not_isContainer_of_pairs (h : v.pairs? = none) : v.isContainer = false := by
  rw [isContainer, h]
  rfl

/-- What is no container has no pairs. -/
theorem pairs_of_not_isContainer (h : v.isContainer = false) : v.pairs? = none :=
  Option.not_isSome_iff_eq_none.1 (ne_true_of_eq_false h)

/-- All containers are arrays by their type. -/
theorem type_of_pairs {pairs : List (Value × Value)} (h : v.pairs? = some pairs) :
    v.type = .array :=
  isContainer_iff_type.1 (isContainer_of_pairs h)

end Value

/-! ## Schemas -/

namespace Schema

/-- The item of a collection is smaller than the collection. -/
theorem sizeOf_item_lt (siblings : List String) (item : Schema) :
    sizeOf item < sizeOf (collection siblings item) := by
  rw [collection.sizeOf_spec]
  omega

/-- The schema of a field is smaller than the fields. -/
theorem sizeOf_lt_of_mem {fs : List (FieldKey × Schema)} {f : FieldKey × Schema} (h : f ∈ fs) :
    sizeOf f.2 < sizeOf (fields fs) := by
  have hlt := List.sizeOf_lt_of_mem h
  rw [Prod.mk.sizeOf_spec] at hlt
  rw [fields.sizeOf_spec]
  omega

/-- Induction on a schema, with the schemas of its fields as the smaller ones. -/
@[elab_as_elim, induction_eliminator]
theorem induction {motive : Schema → Prop} (leaf : ∀ expr, motive (.leaf expr))
    (collection : ∀ siblings item, motive item → motive (.collection siblings item))
    (fields : ∀ fs, (∀ f ∈ fs, motive f.2) → motive (.fields fs)) : ∀ s, motive s
  | .leaf expr => leaf expr
  | .collection siblings item =>
    collection siblings item (induction leaf collection fields item)
  | .fields fs => fields fs fun f _hf => induction leaf collection fields f.2
termination_by s => sizeOf s
decreasing_by
  · exact sizeOf_item_lt _ _
  · exact sizeOf_lt_of_mem _hf

mutual

/-- **What a schema finds in a value at a path**, when every key can be spelled. -/
def disagreements : Schema → Value → String → List Finding
  | .leaf e, v, path => e.findings v path
  | .collection siblings item, v, path =>
    match v.pairs? with
    | none => [.notContainer path v]
    | some pairs =>
      if siblings.isEmpty then
        pairs.flatMap fun p => item.disagreements p.2 (joinPath path wildcard)
      else [.crowdedCollection (joinPath path wildcard)]
  | .fields fs, v, path =>
    if v.isContainer then fieldDisagreements fs v path else [.notContainer path v]

/-- What the fields of a schema find in a container. -/
def fieldDisagreements : List (FieldKey × Schema) → Value → String → List Finding
  | [], _, _ => []
  | (key, s) :: fs, v, path =>
    (match v.field? key.key with
      | some x => s.disagreements x (joinPath path key.name)
      | none => if key.optional then [] else [.absentKey (joinPath path key.name)]) ++
    fieldDisagreements fs v path

end

/-- What one field finds in a container. -/
def fieldDisagreement (v : Value) (path : String) (f : FieldKey × Schema) : List Finding :=
  match v.field? f.1.key with
  | some x => f.2.disagreements x (joinPath path f.1.name)
  | none => if f.1.optional then [] else [.absentKey (joinPath path f.1.name)]

/-- What the fields find, one after the other. -/
theorem fieldDisagreements_eq_flatMap (fs : List (FieldKey × Schema)) (v : Value)
    (path : String) : fieldDisagreements fs v path = fs.flatMap (fieldDisagreement v path) := by
  induction fs with
  | nil => rfl
  | cons f fs ih => rw [fieldDisagreements, ih]; rfl

/-- Fields and a collection find the missing container where there is none. -/
theorem disagreements_of_not_isContainer {s : Schema} (hs : ∀ e, s ≠ .leaf e) {v : Value}
    (hv : v.isContainer = false) (path : String) :
    s.disagreements v path = [.notContainer path v] := by
  cases s with
  | leaf e => exact absurd rfl (hs e)
  | collection siblings item => rw [disagreements, Value.pairs_of_not_isContainer hv]
  | fields fs => rw [disagreements, if_neg (ne_true_of_eq_false hv)]

/-- A collection with siblings finds in a container that it has them, and nothing else. -/
theorem disagreements_crowded {siblings : List String} (hne : siblings ≠ []) {v : Value}
    (hv : v.isContainer = true) (item : Schema) (path : String) :
    (collection siblings item).disagreements v path
      = [.crowdedCollection (joinPath path wildcard)] := by
  obtain ⟨pairs, hpairs⟩ := Option.isSome_iff_exists.1 hv
  rw [disagreements, hpairs]
  exact if_neg (mt List.isEmpty_iff.1 hne)

/-- Fields find in a container what each of them finds there. -/
theorem disagreements_fields {v : Value} (hv : v.isContainer = true)
    (fs : List (FieldKey × Schema)) (path : String) :
    (fields fs).disagreements v path = fs.flatMap (fieldDisagreement v path) := by
  rw [disagreements, if_pos hv, fieldDisagreements_eq_flatMap]

/-- A collection finds in a container what its item finds in each element. -/
theorem disagreements_collection {v : Value} {pairs : List (Value × Value)}
    (hv : v.pairs? = some pairs) (item : Schema) (path : String) :
    (collection [] item).disagreements v path
      = pairs.flatMap fun q => item.disagreements q.2 (joinPath path wildcard) := by
  rw [disagreements, hv]
  rfl

end Schema

end TreeSchema
