import TreeSchema.Proofs.Disagreement
import TreeSchema.Proofs.Trail

/-!
# The visits of a match

A match visits pairs of a node of the schema and a value, each at a path. It starts with the whole
schema and the whole data, and a visit leads to others one step below (`Visit.Step`): fields to what
the container holds for them, and a collection to each element. What a match finds is told by the
visits alone: each of them fails by itself or not (`Visit.Fails`), and the findings are those of
every visit that is reached (`Visit.Finds`).

This is the reading of a match that has no walk in it. Nothing here recurs on the schema, collects
findings or joins lists; a step is one of two cases and a failure is one of five, and each of them
can be held against the description of what a schema means. What a report has to say about data is
stated with these relations, and that the walk says it is proved afterwards.

Two statements tie this to matching. `Schema.mem_trailed_iff` says that the walk lists what the
visits find, each finding under its trail and in the order of the trails. `Schema.ends_findings`
says when matching comes to an end at all: if and only if no visit that is reached has a field whose
key cannot be spelled.

A visit that is reached is reached by a trail, the list of positions along which it goes down. The
path does not tell which visit is meant: two fields of one name have the same path, and so have all
the elements of a collection. The trail does, and the order of trails is the order of the walk,
which says which of several findings comes first.
-/

namespace TreeSchema

/-- **A visit**: a node of a schema that meets a value at a path. -/
structure Visit where
  node : Schema
  value : Value
  path : String

/-- **How a type expression fails** on a value at a path, unless it lets a null pass. -/
inductive TypeExpr.Fails (e : TypeExpr) (v : Value) (path : String) : Finding → Prop
  /-- The expression does not parse. -/
  | unknown {fault : TypeFault} : ¬ (e.nullable = true ∧ v.type = .null) →
      e.form = .unknown fault → Fails e v path (.unknownType path fault)
  /-- The value is not of the primitive type. -/
  | notPrimitive {p : Primitive} : ¬ (e.nullable = true ∧ v.type = .null) →
      e.form = .primitive p → v.type ≠ .primitive p → Fails e v path (.notPrimitive path p v)
  /-- The value is no container. -/
  | notPairs {key value : Primitive} : ¬ (e.nullable = true ∧ v.type = .null) →
      e.form = .pairs key value → v.isContainer = false →
      Fails e v path (.notPairs path key value v)
  /-- A key or a value in the container is of another type. -/
  | wrongPair {key value : Primitive} {pairs : List (Value × Value)} {q : Value × Value} :
      ¬ (e.nullable = true ∧ v.type = .null) → e.form = .pairs key value →
      v.pairs? = some pairs → q ∈ pairs →
      ¬ (q.1.type = .primitive key ∧ q.2.type = .primitive value) →
      Fails e v path (.wrongPair path key value)

namespace Visit

/-- **One step down**, and the position at which it goes. -/
inductive Step : Visit → Nat → Visit → Prop
  /-- Fields lead to what a container holds for them. -/
  | field {fs : List (FieldKey × Schema)} {v x : Value} {path : String} {i : Nat} {key : FieldKey}
      {s : Schema} : v.isContainer = true → fs[i]? = some (key, s) →
      v.field? key.key = some x → Step ⟨.fields fs, v, path⟩ i ⟨s, x, joinPath path key.name⟩
  /-- A collection without siblings leads to every element of a container. -/
  | element {item : Schema} {v : Value} {path : String} {pairs : List (Value × Value)} {i : Nat}
      {q : Value × Value} : v.pairs? = some pairs → pairs[i]? = some q →
      Step ⟨.collection [] item, v, path⟩ i ⟨item, q.2, joinPath path wildcard⟩

/-- **The visits that a visit leads to**, itself included, each with the trail that leads there. -/
inductive Reaches (start : Visit) : Trail → Visit → Prop
  | start : Reaches start [] start
  | step {t : Trail} {a b : Visit} {i : Nat} : Reaches start t a → a.Step i b →
      Reaches start (t ++ [i]) b

/-- **How a visit fails by itself**: the position below it where it does, if there is one, and the
finding. -/
inductive Fails : Visit → Trail → Finding → Prop
  /-- A type expression fails on the value. -/
  | leaf {e : TypeExpr} {v : Value} {path : String} {f : Finding} : e.Fails v path f →
      Fails ⟨.leaf e, v, path⟩ [] f
  /-- Fields meet no container. -/
  | fieldsNotContainer {fs : List (FieldKey × Schema)} {v : Value} {path : String} :
      v.isContainer = false → Fails ⟨.fields fs, v, path⟩ [] (.notContainer path v)
  /-- A required field is absent. -/
  | absent {fs : List (FieldKey × Schema)} {v : Value} {path : String} {i : Nat} {key : FieldKey}
      {s : Schema} : v.isContainer = true → fs[i]? = some (key, s) → v.field? key.key = none →
      key.optional = false →
      Fails ⟨.fields fs, v, path⟩ [i] (.absentKey (joinPath path key.name))
  /-- A collection meets no container. -/
  | collectionNotContainer {siblings : List String} {item : Schema} {v : Value} {path : String} :
      v.isContainer = false → Fails ⟨.collection siblings item, v, path⟩ [] (.notContainer path v)
  /-- A collection has siblings. -/
  | crowded {siblings : List String} {item : Schema} {v : Value} {path : String} :
      v.isContainer = true → siblings ≠ [] →
      Fails ⟨.collection siblings item, v, path⟩ [] (.crowdedCollection (joinPath path wildcard))

/-- **What a visit finds**, by itself or by a visit that it leads to, and at which trail. -/
def Finds (a : Visit) (t : Trail) (f : Finding) : Prop :=
  ∃ u w b, a.Reaches u b ∧ b.Fails w f ∧ t = u ++ w

/-- A visit that is reached from one a step below is reached, by the trail with the step in
front. -/
theorem Reaches.cons {a b c : Visit} {i : Nat} {t : Trail} (hstep : a.Step i b)
    (h : b.Reaches t c) : a.Reaches (i :: t) c := by
  induction h with
  | start => exact .step .start hstep
  | step _ hs ih => exact .step ih hs

/-- A visit that is reached is the first one, or is reached from one a step below. -/
theorem reaches_iff {a c : Visit} {t : Trail} :
    a.Reaches t c
      ↔ t = [] ∧ c = a ∨ ∃ i b u, t = i :: u ∧ a.Step i b ∧ b.Reaches u c := by
  constructor
  · intro h
    induction h with
    | start => exact .inl ⟨rfl, rfl⟩
    | step _ hs ih =>
      obtain ⟨rfl, rfl⟩ | ⟨i, b, u, rfl, hab, hb⟩ := ih
      · exact .inr ⟨_, _, [], rfl, hs, .start⟩
      · exact .inr ⟨i, b, _, rfl, hab, .step hb hs⟩
  · rintro (⟨rfl, rfl⟩ | ⟨i, b, u, rfl, hab, hb⟩)
    · exact .start
    · exact hb.cons hab

/-- **What a visit finds** is how it fails by itself, and what the visits a step below it find. -/
theorem finds_iff {a : Visit} {t : Trail} {f : Finding} :
    a.Finds t f ↔ a.Fails t f ∨ ∃ i b u, t = i :: u ∧ a.Step i b ∧ b.Finds u f := by
  constructor
  · rintro ⟨u, w, c, hc, hf, rfl⟩
    obtain ⟨rfl, rfl⟩ | ⟨i, b, u, rfl, hab, hb⟩ := reaches_iff.1 hc
    · exact .inl hf
    · exact .inr ⟨i, b, u ++ w, rfl, hab, u, w, c, hb, hf, rfl⟩
  · rintro (hf | ⟨i, b, _, rfl, hab, u, w, c, hc, hf, rfl⟩)
    · exact ⟨[], t, a, .start, hf, rfl⟩
    · exact ⟨i :: u, w, c, hc.cons hab, hf, rfl⟩

end Visit

end TreeSchema
