import Mathlib.Data.List.Flatten
import Mathlib.Logic.Relation
import TreeSchema.Proofs.Description
import TreeSchema.Proofs.FirstCome

/-!
# Relaxed schemas

A schema can be relaxed at any depth: a field may be made optional or be dropped, and a type
expression may be made to let a null pass (`Schema.Relaxes`). A relaxed schema never finds anything
new: whatever it reports is reported by the schema that it was relaxed from, whatever the data is,
and data that was valid stays valid (`Schema.tells_of_relaxed`).

One relaxation takes findings out of the list of a walk and changes none of the others
(`Schema.Relaxes.disagreements_sublist`). That is more than what the report shows: where the first
finding of a kind at a path is taken out, the report still tells of the kind there, but with the
message of a later one. So the statement on reports is about kinds and paths, while messages and the
order of paths may change.

Any number of relaxations is the closure of one of them, and a part of a list of a part of a list is
a part of the list. This is where it pays that the statement is about the list of findings: the
kinds at the paths of a report would have to be compared anew after every relaxation, with the same
result.

A field that is dropped takes the findings of its data away with it, and one that is made optional
the finding of its absence. A collection with siblings stays one, since relaxing its item changes
nothing about them.
-/

namespace TreeSchema

/-- A list that gives less at one place gives less. -/
theorem flatMap_sublist_of_middle {α β : Type} {g : α → List β} {a b : α} (h : (g b).Sublist (g a))
    (front back : List α) :
    ((front ++ b :: back).flatMap g).Sublist ((front ++ a :: back).flatMap g) := by
  rw [List.flatMap_append, List.flatMap_append, List.flatMap_cons, List.flatMap_cons]
  exact (List.Sublist.refl _).append (h.append (.refl _))

/-- A type expression that lets a null pass finds nothing else than one that may not. -/
theorem TypeExpr.findings_nullable_sublist (e : TypeExpr) (raw : String) (v : Value)
    (path : String) :
    (TypeExpr.findings ⟨raw, true, e.form⟩ v path).Sublist (e.findings v path) := by
  by_cases hnull : v.type = .null
  · rw [findings, if_pos ⟨rfl, hnull⟩]
    exact List.nil_sublist _
  · rw [findings, findings, if_neg fun h => hnull h.2, if_neg fun h => hnull h.2]

namespace Schema

/-- **One relaxation of a schema**, at any depth. A type expression that is made to let a null pass
may change its text, which gets a mark. -/
inductive Relaxes : Schema → Schema → Prop
  /-- A type expression lets a null pass. -/
  | nullable (e : TypeExpr) (raw : String) : Relaxes (.leaf e) (.leaf ⟨raw, true, e.form⟩)
  /-- A field may be absent. -/
  | optional (front back : List (FieldKey × Schema)) (key : FieldKey) (s : Schema) :
      Relaxes (.fields (front ++ (key, s) :: back))
        (.fields (front ++ ({ key with optional := true }, s) :: back))
  /-- A field is dropped. -/
  | drop (front back : List (FieldKey × Schema)) (f : FieldKey × Schema) :
      Relaxes (.fields (front ++ f :: back)) (.fields (front ++ back))
  /-- The schema of a field is relaxed. -/
  | field {s s' : Schema} (front back : List (FieldKey × Schema)) (key : FieldKey) :
      Relaxes s s' → Relaxes (.fields (front ++ (key, s) :: back))
        (.fields (front ++ (key, s') :: back))
  /-- The schema of the elements is relaxed. -/
  | item {s s' : Schema} (siblings : List String) :
      Relaxes s s' → Relaxes (.collection siblings s) (.collection siblings s')

/-- Fields of which each container shows less find less, since other values show nothing of them. -/
theorem disagreements_fields_sublist {fs fs' : List (FieldKey × Schema)} {v : Value} {path : String}
    (h : (fs'.flatMap (fieldDisagreement v path)).Sublist (fs.flatMap (fieldDisagreement v path))) :
    ((fields fs').disagreements v path).Sublist ((fields fs).disagreements v path) := by
  cases hv : v.isContainer with
  | true =>
    rw [disagreements_fields hv, disagreements_fields hv]
    exact h
  | false =>
    have hne : ∀ fs e, fields fs ≠ .leaf e := fun fs e heq => by cases heq
    rw [disagreements_of_not_isContainer (hne fs') hv, disagreements_of_not_isContainer (hne fs) hv]

namespace Relaxes

variable {s s' : Schema}

/-- A relaxation leaves the keys that are there as they are. -/
theorem allKeys {P : Value → Prop} (h : Relaxes s s') (hs : s.AllKeys P) : s'.AllKeys P := by
  induction h with
  | nullable e raw =>
    rw [AllKeys]
    trivial
  | optional front back key s =>
    rw [AllKeys, List.forall_mem_append, List.forall_mem_cons] at hs ⊢
    exact hs
  | drop front back f =>
    rw [AllKeys, List.forall_mem_append, List.forall_mem_cons] at hs
    rw [AllKeys, List.forall_mem_append]
    exact ⟨hs.1, hs.2.2⟩
  | field front back key _ ih =>
    rw [AllKeys, List.forall_mem_append, List.forall_mem_cons] at hs ⊢
    exact ⟨hs.1, ⟨hs.2.1.1, ih hs.2.1.2⟩, hs.2.2⟩
  | item siblings _ ih =>
    rw [AllKeys] at hs ⊢
    exact ih hs

/-- **A relaxation only takes findings out**, and leaves the others in their order. -/
theorem disagreements_sublist (h : Relaxes s s') (v : Value) (path : String) :
    (s'.disagreements v path).Sublist (s.disagreements v path) := by
  induction h generalizing v path with
  | nullable e raw =>
    rw [disagreements, disagreements]
    exact e.findings_nullable_sublist raw v path
  | optional front back key s =>
    -- A field that may be absent loses its finding where it is, and keeps those below it where it
    -- is not.
    refine disagreements_fields_sublist (flatMap_sublist_of_middle ?_ front back)
    unfold fieldDisagreement
    cases v.field? key.key with
    | some x => exact .refl _
    | none => exact List.nil_sublist _
  | drop front back f =>
    refine disagreements_fields_sublist (List.Sublist.flatMap ?_ _)
    exact (List.Sublist.refl front).append (List.sublist_cons_self f back)
  | field front back key _ ih =>
    refine disagreements_fields_sublist (flatMap_sublist_of_middle ?_ front back)
    unfold fieldDisagreement
    cases v.field? key.key with
    | some x => exact ih x _
    | none => exact .refl _
  | item siblings _ ih =>
    rw [disagreements, disagreements]
    cases v.pairs? with
    | none => exact .refl _
    | some pairs =>
      show List.Sublist (if siblings.isEmpty then _ else _) (if siblings.isEmpty then _ else _)
      split
      · exact List.Sublist.flatMap_right pairs fun q _ => ih q.2 _
      · exact .refl _

end Relaxes

/-! ## Any number of relaxations

The steps of relaxation are put one after the other, in any order and at any depths. -/

/-- **A schema is relaxed to another one** by any number of relaxations. -/
def Relaxed : Schema → Schema → Prop := Relation.ReflTransGen Relaxes

namespace Relaxed

variable {s s' : Schema}

/-- Any number of relaxations leaves the keys that are there as they are. -/
theorem allKeys {P : Value → Prop} (h : Relaxed s s') (hs : s.AllKeys P) : s'.AllKeys P := by
  induction h with
  | refl => exact hs
  | tail _ hstep ih => exact hstep.allKeys ih

/-- Any number of relaxations only takes findings out. -/
theorem disagreements_sublist (h : Relaxed s s') (v : Value) (path : String) :
    (s'.disagreements v path).Sublist (s.disagreements v path) := by
  induction h with
  | refl => exact .refl _
  | tail _ hstep ih => exact (hstep.disagreements_sublist v path).trans ih

end Relaxed

/-- **A relaxed schema reports nothing new.** Whatever kind of disagreement it tells of at a path,
the schema that it was relaxed from tells of it there for the same data, and data that is valid
there is valid for the relaxed schema. -/
theorem tells_of_relaxed {s s' : Schema} (relaxed : Relaxed s s')
    (legible : s.AllKeys Value.IsLegible) (v : Value) (path : String) :
    ∃ fs fs', s.findings v path = .ok fs ∧ s'.findings v path = .ok fs' ∧
      (∀ p kind, (∃ message, (Report.ofFindings fs').Tells p kind message) →
        ∃ message, (Report.ofFindings fs).Tells p kind message) ∧
      ((Report.ofFindings fs).isValid = true → (Report.ofFindings fs').isValid = true) := by
  have hsub := relaxed.disagreements_sublist v path
  refine ⟨_, _, findings_eq_ok legible v path, findings_eq_ok (relaxed.allKeys legible) v path,
    fun p kind => ?_, ?_⟩
  · rw [Report.exists_tells_ofFindings_iff, Report.exists_tells_ofFindings_iff]
    rintro ⟨f, hf, hsame⟩
    exact ⟨f, hsub.subset hf, hsame⟩
  · rw [Report.isValid_ofFindings_iff, Report.isValid_ofFindings_iff]
    intro hnil
    rw [hnil] at hsub
    exact List.sublist_nil.1 hsub

/-- A number, a name and scores. -/
def scored : Schema :=
  .fields [(⟨"id", false, .text "id"⟩, .leaf (.ofText "integer")),
    (⟨"name", false, .text "name"⟩, .leaf (.ofText "string")),
    (⟨"scores", false, .text "scores"⟩, .collection [] (.leaf (.ofText "integer")))]

/-- A name that may be absent and scores that may be null. -/
def scoredLoosely : Schema :=
  .fields [(⟨"name", true, .text "name"⟩, .leaf (.ofText "string")),
    (⟨"scores", false, .text "scores"⟩, .collection [] (.leaf (.ofText "?integer")))]

/-- Of a null and a text among the scores the relaxed schema reports the text. The other one reports
a wrong type there as well, though for the null. -/
theorem tells_of_relaxed_scores :
    Relaxed scored scoredLoosely ∧ scored.AllKeys Value.IsLegible ∧
      ∃ fs fs',
        scored.findings (.mapping [(.text "scores", .list [.int 1, .null, .text "a"])]) ""
          = .ok fs ∧
        scoredLoosely.findings (.mapping [(.text "scores", .list [.int 1, .null, .text "a"])]) ""
          = .ok fs' ∧
        (Report.ofFindings fs').Tells "scores.*" .typeMismatch
          "The value must be of type 'integer', got 'string'." ∧
        ∃ message, (Report.ofFindings fs).Tells "scores.*" .typeMismatch message := by
  have relaxed : Relaxed scored scoredLoosely := by
    refine .trans (.single (.drop [] _ _)) (.trans (.single (.optional [] _ _ _)) (.single ?_))
    exact .field [_] [] _ (.item [] (.nullable (.ofText "integer") "?integer"))
  have legible : scored.AllKeys Value.IsLegible := by
    simp only [scored, AllKeys, List.forall_mem_cons]
    refine ⟨⟨?_, trivial⟩, ⟨?_, trivial⟩, ⟨?_, trivial⟩, List.forall_mem_nil _⟩ <;>
      exact fun h => absurd h (by decide)
  obtain ⟨fs, fs', hfs, hfs', htells, -⟩ := tells_of_relaxed relaxed legible
    (.mapping [(.text "scores", .list [.int 1, .null, .text "a"])]) ""
  have hmessage : (Report.ofFindings fs').Tells "scores.*" .typeMismatch
      "The value must be of type 'integer', got 'string'." := by
    cases hfs'
    exact ⟨_, .head _, .head _⟩
  exact ⟨relaxed, legible, fs, fs', hfs, hfs', hmessage, htells _ _ ⟨_, hmessage⟩⟩

end Schema

end TreeSchema
