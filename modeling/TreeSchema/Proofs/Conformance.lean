import TreeSchema.Proofs.Description
import TreeSchema.Proofs.FirstCome
import TreeSchema.Proofs.TypeExpression

/-!
# Conformance with a description

What a description asks for can be said without the schema that it is read to: `Conforms` walks the
description itself, with the three ways in which a leaf accepts a value (`Accepts`). The main
statement is that a check finds no disagreement exactly when the data conforms
(`Matcher.isValid_check_iff_conforms`); reading and matching are two recursions, and the invariant
between them is that a description and the schema that it is read to agree on every value
(`Schema.disagreements_eq_nil_iff`).

`Conforms` has no findings, no paths and no order in it. It says of each mapping in the description
whether it is a collection or fields, and of each key what the data has to hold under it, and so it
can be read next to the rules for descriptions, one clause after the other. The two forms of a
mapping are told apart by the look-up of the wildcard, as in reading, but everything beside that is
different: a collection with other keys beside the wildcard is one that nothing conforms with, where
the matcher has a finding for it.

A leaf is compared with its text. What a text asks for is known from its spelling
(`TypeExpr.formOf_eq_primitive_iff`, `TypeExpr.formOf_eq_pairs_iff`), so the leaf of a description
accepts by the grammar and not by what it was read to.

The empty description stands apart. It asks for a container by the rule for fields, and a check lets
every value pass by it, because it is not matched at all.
-/

namespace TreeSchema

/-- **How a leaf of a description accepts a value.** A leaf that is no text accepts none. -/
inductive Accepts : Value → Value → Prop
  /-- A marked text lets a null pass, whatever it asks for. -/
  | null {s : String} {v : Value} : (splitMark s).1 = true → v.type = .null → Accepts (.text s) v
  /-- The name of a primitive type accepts the values of the type. -/
  | primitive {s : String} {v : Value} {p : Primitive} : (splitMark s).2 = p.name →
      v.type = .primitive p → Accepts (.text s) v
  /-- A pair of types accepts the containers whose keys and values have them. -/
  | pairs {s : String} {v : Value} {key value : Primitive} {pairs : List (Value × Value)} :
      TypeExpr.IsPairText (splitMark s).2 key value → v.pairs? = some pairs →
      (∀ q ∈ pairs, q.1.type = .primitive key ∧ q.2.type = .primitive value) →
      Accepts (.text s) v

/-- **Whether a value conforms with a description.** With a mapping that has the wildcard, which
must be its only key, a container conforms if every element conforms with what stands there. With
any other mapping a container conforms if for each entry it holds a value that conforms, or holds
none and the key is marked. -/
def Conforms : Value → Value → Prop
  | .mapping entries, v =>
    match _h : Value.entry? (.text wildcard) entries with
    | some item => (∀ e ∈ entries, isWildcard e.1 = true) ∧
        ∃ pairs, v.pairs? = some pairs ∧ ∀ q ∈ pairs, Conforms item q.2
    | none => v.isContainer = true ∧ ∀ e ∈ entries,
        (∃ x, v.field? e.1.addressed = some x ∧ Conforms e.2 x)
          ∨ v.field? e.1.addressed = none ∧ e.1.isMarked = true
  | leaf, v => Accepts leaf v
termination_by description => sizeOf description
decreasing_by
  · obtain ⟨key, -, hmem⟩ := Assoc.mem_of_find? _h
    exact Value.sizeOf_lt_of_mem hmem
  · exact Value.sizeOf_lt_of_mem ‹e ∈ entries›

/-- With the wildcard every element of a container has to conform, and there are no other keys. -/
theorem conforms_wildcard_iff {entries : List (Value × Value)} {item : Value}
    (h : Value.entry? (.text wildcard) entries = some item) (v : Value) :
    Conforms (.mapping entries) v
      ↔ (∀ e ∈ entries, isWildcard e.1 = true) ∧
          ∃ pairs, v.pairs? = some pairs ∧ ∀ q ∈ pairs, Conforms item q.2 := by
  rw [Conforms]
  split
  · rename_i other hother
    cases h.symm.trans hother
    rfl
  · rename_i hnone
    cases h.symm.trans hnone

/-- Without it a container has to hold what each entry asks for. -/
theorem conforms_fields_iff {entries : List (Value × Value)}
    (h : Value.entry? (.text wildcard) entries = none) (v : Value) :
    Conforms (.mapping entries) v
      ↔ v.isContainer = true ∧ ∀ e ∈ entries,
          (∃ x, v.field? e.1.addressed = some x ∧ Conforms e.2 x)
            ∨ v.field? e.1.addressed = none ∧ e.1.isMarked = true := by
  rw [Conforms]
  split
  · rename_i hsome
    cases h.symm.trans hsome
  · rfl

/-- A description that is no mapping accepts as a leaf. -/
theorem conforms_leaf_iff {leaf : Value} (h : ∀ entries, leaf ≠ .mapping entries) (v : Value) :
    Conforms leaf v ↔ Accepts leaf v := by
  rw [Conforms]
  exact h

/-! ## Leaves

A leaf finds nothing in a value in three cases, which are those of acceptance one by one. A leaf
whose text is not known finds something in every value but a null that it lets pass. -/

/-- When a type expression finds nothing. -/
theorem TypeExpr.findings_eq_nil_iff {e : TypeExpr} {v : Value} {path : String} :
    e.findings v path = []
      ↔ e.nullable = true ∧ v.type = .null
        ∨ (∃ p, e.form = .primitive p ∧ v.type = .primitive p)
        ∨ ∃ key value pairs, e.form = .pairs key value ∧ v.pairs? = some pairs ∧
            ∀ q ∈ pairs, q.1.type = .primitive key ∧ q.2.type = .primitive value := by
  rw [findings]
  by_cases hnull : e.nullable = true ∧ v.type = .null
  · rw [if_pos hnull]
    exact iff_of_true rfl (.inl hnull)
  rw [if_neg hnull, or_iff_right hnull]
  cases e.form with
  | unknown fault => simp
  | primitive p => simp
  | pairs key value =>
    cases v.pairs? with
    | none => simp
    | some pairs => simp [List.filter_eq_nil_iff]

/-- **A leaf accepts what its type expression finds nothing in.** -/
theorem accepts_iff {leaf : Value} {e : TypeExpr} (h : TypeExpr.ofValue leaf = .ok e) (v : Value)
    (path : String) : Accepts leaf v ↔ e.findings v path = [] := by
  rw [TypeExpr.findings_eq_nil_iff]
  cases leaf with
  | text s =>
    cases h
    show Accepts (.text s) v ↔ (splitMark s).1 = true ∧ v.type = .null
      ∨ (∃ p, TypeExpr.formOf (splitMark s).2 = .primitive p ∧ v.type = .primitive p)
      ∨ ∃ key value pairs, TypeExpr.formOf (splitMark s).2 = .pairs key value ∧
          v.pairs? = some pairs ∧
          ∀ q ∈ pairs, q.1.type = .primitive key ∧ q.2.type = .primitive value
    simp only [TypeExpr.formOf_eq_primitive_iff, TypeExpr.formOf_eq_pairs_iff]
    constructor
    · intro haccepts
      cases haccepts with
      | null hmark hv => exact .inl ⟨hmark, hv⟩
      | primitive hname hv => exact .inr (.inl ⟨_, hname, hv⟩)
      | pairs htext hv hall => exact .inr (.inr ⟨_, _, _, htext, hv, hall⟩)
    · rintro (⟨hmark, hv⟩ | ⟨p, hname, hv⟩ | ⟨key, value, pairs, htext, hv, hall⟩)
      · exact .null hmark hv
      · exact .primitive hname hv
      · exact .pairs htext hv hall
  | _ =>
    obtain ⟨raw, -, he⟩ := bind_eq_ok_iff.1 h
    cases he
    refine iff_of_false (fun haccepts => nomatch haccepts) ?_
    simp

/-! ## Descriptions

The induction is on the description. In a mapping of fields the entries and the fields are related
one by one, and what a field finds is compared with what its entry asks for. -/

/-- A field finds nothing if what the container holds for it conforms, or if nothing is there and it
may be absent. -/
theorem Schema.fieldDisagreement_eq_nil_iff {e : Value × Value} {f : FieldKey × Schema} {v : Value}
    {path : String} (hkey : FieldKey.ofValue e.1 = .ok f.1)
    (hnode : ∀ x, f.2.disagreements x (joinPath path f.1.name) = [] ↔ Conforms e.2 x) :
    fieldDisagreement v path f = []
      ↔ (∃ x, v.field? e.1.addressed = some x ∧ Conforms e.2 x)
        ∨ v.field? e.1.addressed = none ∧ e.1.isMarked = true := by
  obtain ⟨haddressed, hmarked⟩ := FieldKey.ofValue_eq_ok hkey
  rw [fieldDisagreement, ← haddressed, ← hmarked]
  cases v.field? f.1.key with
  | some x => simp [hnode]
  | none => simp

/-- **A description accepts what its schema finds nothing in**: reading and matching together follow
the description. -/
theorem Schema.disagreements_eq_nil_iff {description : Value} {s : Schema}
    (h : ofDescription description = .ok s) (v : Value) (path : String) :
    s.disagreements v path = [] ↔ Conforms description v := by
  induction description using Value.descriptionInduction generalizing s v path with
  | leaf leaf hleaf =>
    obtain ⟨e, he, rfl⟩ := ofDescription_leaf hleaf h
    rw [conforms_leaf_iff hleaf, accepts_iff he v path, disagreements]
  | mapping entries ih =>
    -- Reading and conformance ask the same question first: what stands at the wildcard.
    obtain ⟨item, node, siblings, hitem, hnode, hsiblings, rfl⟩ | ⟨hnone, fs, hfs, rfl⟩ :=
      ofDescription_mapping h
    · obtain ⟨key, -, hmem⟩ := Assoc.mem_of_find? hitem
      rw [conforms_wildcard_iff hitem, ← siblingTexts_eq_nil_iff hsiblings]
      cases hv : v.pairs? with
      | none => simp [disagreements, hv]
      | some pairs =>
        cases siblings with
        | cons name names => simp [disagreements, hv]
        | nil =>
          rw [disagreements_collection hv, List.flatMap_eq_nil_iff]
          simp only [ih _ hmem hnode]
          simp
    · rw [conforms_fields_iff hnone]
      cases hv : v.isContainer with
      | false => simp [disagreements, hv]
      | true =>
        rw [disagreements_fields hv, List.flatMap_eq_nil_iff, and_iff_right rfl]
        refine (forall_mem_iff_of_forall₂ hfs fun e he f hf => ?_).symm
        exact (fieldDisagreement_eq_nil_iff hf.1 fun x => ih e he hf.2 x _).symm

/-! ## Checks

A report without rows is one of no findings. -/

namespace Matcher

/-- **A check finds no disagreement exactly when the data conforms** with the description that the
matcher was made of, or the description is empty. -/
theorem isValid_check_iff_conforms {entries : List (Value × Value)} {m : Matcher}
    (built : ofDescription (.mapping entries) = .ok m)
    (short : (Value.mapping entries).HasShortNumerals) (v : Value) :
    ∃ r, m.check v = .ok r ∧
      (r.isValid = true ↔ entries = [] ∨ Conforms (.mapping entries) v) := by
  obtain ⟨hentries, hroot⟩ := ofDescription_mapping built
  refine ⟨_, check_eq built short v, ?_⟩
  rw [isEmpty, hentries]
  cases entries with
  | nil => exact iff_of_true rfl (.inl rfl)
  | cons e entries =>
    rw [List.isEmpty_cons, if_neg Bool.false_ne_true, Report.isValid_ofFindings_iff,
      Schema.disagreements_eq_nil_iff hroot, or_iff_right (List.cons_ne_nil _ _)]

/-- Tags that may be left out, each a text or null, and flags under a number. -/
def tagsAndFlags : Matcher where
  description := [(.text "?tags", .mapping [(.text "*", .text "?string")]),
    (.int 7, .text "string => boolean")]
  root := .fields [(⟨"tags", true, .text "tags"⟩, .collection [] (.leaf (.ofText "?string"))),
    (⟨"7", false, .int 7⟩, .leaf (.ofText "string => boolean"))]

/-- Two tags, of which one is null, and flags under the number spelled as a text: the check finds
nothing, so the data conforms. -/
theorem conforms_tagsAndFlags :
    ofDescription (.mapping tagsAndFlags.description) = .ok tagsAndFlags ∧
      (Value.mapping tagsAndFlags.description).HasShortNumerals ∧
      Conforms (.mapping tagsAndFlags.description)
        (.mapping [(.text "tags", .list [.text "a", .null]),
          (.text "7", .mapping [(.text "on", .bool true)])]) := by
  have built : ofDescription (.mapping tagsAndFlags.description) = .ok tagsAndFlags := rfl
  have short : (Value.mapping tagsAndFlags.description).HasShortNumerals := by
    simp only [Value.HasShortNumerals, Value.AllKeys, tagsAndFlags, List.forall_mem_cons]
    refine ⟨⟨fun s hs _ => ?_, ⟨fun s hs _ => ?_, trivial⟩, ?_⟩, ⟨fun s hs _ => ?_, trivial⟩, ?_⟩
    · cases hs
      decide
    · cases hs
      decide
    · exact List.forall_mem_nil _
    · cases hs
    · exact List.forall_mem_nil _
  refine ⟨built, short, ?_⟩
  obtain ⟨r, hr, hvalid⟩ := isValid_check_iff_conforms built short
    (.mapping [(.text "tags", .list [.text "a", .null]),
      (.text "7", .mapping [(.text "on", .bool true)])])
  cases hr
  exact (hvalid.1 rfl).resolve_left (List.cons_ne_nil _ _)

end Matcher

end TreeSchema
