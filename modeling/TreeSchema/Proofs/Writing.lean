import TreeSchema.Proofs.ByPosition
import TreeSchema.Proofs.TypeExpression

/-!
# Writing schemas back

A schema can be written as a description again (`Schema.description`): fields as the mapping of
their keys, with the mark in front of the optional ones, a collection as what stands at the
wildcard, and a leaf as its text. If the leaves of a description are texts and the wildcard is alone
wherever it stands, then the schema that the description is read to is written as the description
itself, so that nothing in it is lost (`Schema.description_ofDescription`).

The mark is taken off a key once, and once it is put in front again (`FieldKey.written_of_ofValue`).
So keys that begin with several marks, or are nothing but one, come back as they were.

Where a wildcard has keys beside it, something is lost: they are kept as texts, for the message, and
what stood under them is not read. And a leaf that is no text is kept by its literal, which comes
back as a text. These two are the conditions, and both are on the description, since a schema cannot
tell whether it was read from one that meets them.

A schema knows a key in two ways, by the value that is looked up and by the name that paths show.
Writing goes by the value, which is why an integer comes back as an integer and its text as a text,
although the two have one name.
-/

namespace TreeSchema

/-- **The key of a description that a field is written under**: with the mark in front, if the field
is optional. -/
def FieldKey.written (key : FieldKey) : Value :=
  match key.key with
  | .text s => .text (TypeExpr.mark key.optional ++ s)
  | k => k

/-- **A field is written under the key that it was read from.** -/
theorem FieldKey.written_of_ofValue {v : Value} {key : FieldKey} (h : ofValue v = .ok key) :
    key.written = v := by
  obtain ⟨hkey, hoptional⟩ := ofValue_eq_ok h
  rw [written, hkey, hoptional]
  cases v with
  | text s => exact congrArg Value.text (TypeExpr.mark_append_splitMark s)
  | _ => rfl

namespace Schema

mutual

/-- **The description that a schema is written as.** -/
def description : Schema → Value
  | .leaf e => .text e.raw
  | .collection _ item => .mapping [(.text wildcard, item.description)]
  | .fields fs => .mapping (fieldDescriptions fs)

/-- The entries that fields are written as. -/
def fieldDescriptions : List (FieldKey × Schema) → List (Value × Value)
  | [] => []
  | (key, s) :: fs => (key.written, s.description) :: fieldDescriptions fs

end

/-- Fields are written one after the other. -/
theorem fieldDescriptions_eq_map (fs : List (FieldKey × Schema)) :
    fieldDescriptions fs = fs.map fun f => (f.1.written, f.2.description) := by
  induction fs with
  | nil => rfl
  | cons f fs ih => rw [fieldDescriptions, ih, List.map_cons]

end Schema

/-! ## Descriptions that are read without loss

With lone wildcards a mapping is read in one of two ways that do not overlap, and both keep all of
it. -/

namespace Value

/-- **Whether the wildcard is alone** on every level of a description that has it. -/
def HasLoneWildcards : Value → Prop
  | mapping entries => ((∀ e ∈ entries, isWildcard e.1 = false)
        ∨ ∃ item, entries = [(text wildcard, item)]) ∧
      ∀ e ∈ entries, e.2.HasLoneWildcards
  | _ => True
termination_by v => sizeOf v
decreasing_by exact sizeOf_lt_of_mem ‹e ∈ entries›

/-- Wildcards are alone below each entry. -/
theorem HasLoneWildcards.of_mem {entries : List (Value × Value)} {e : Value × Value}
    (h : (mapping entries).HasLoneWildcards) (he : e ∈ entries) : e.2.HasLoneWildcards := by
  rw [HasLoneWildcards] at h
  exact h.2 e he

end Value

namespace Schema

/-- **How a mapping with lone wildcards is read**: the wildcard to a collection without siblings,
and any other mapping to fields. -/
theorem ofDescription_lone {entries : List (Value × Value)} {s : Schema}
    (lone : (Value.mapping entries).HasLoneWildcards)
    (h : ofDescription (.mapping entries) = .ok s) :
    (∃ item node, entries = [(.text wildcard, item)] ∧ ofDescription item = .ok node ∧
        s = .collection [] node)
      ∨ ∃ fs, List.Forall₂
          (fun e f => FieldKey.ofValue e.1 = .ok f.1 ∧ ofDescription e.2 = .ok f.2) entries fs ∧
          s = .fields fs := by
  rw [Value.HasLoneWildcards] at lone
  obtain ⟨item, node, siblings, hitem, hnode, hsiblings, rfl⟩ | ⟨-, fs, hfs, rfl⟩ :=
    ofDescription_mapping h
  · obtain hno | ⟨item', rfl⟩ := lone.1
    · obtain ⟨key, hkey, hmem⟩ := Assoc.mem_of_find? hitem
      exact nomatch hkey.symm.trans (hno _ hmem)
    · cases hitem
      cases hsiblings
      exact .inl ⟨item, node, rfl, hnode, rfl⟩
  · exact .inr ⟨fs, hfs, rfl⟩

/-- **A schema is written as the description that it was read from.** -/
theorem description_eq_of_ofDescription {d : Value} {s : Schema} (leaves : d.HasTextLeaves)
    (lone : d.HasLoneWildcards) (h : ofDescription d = .ok s) : s.description = d := by
  induction d using Value.descriptionInduction generalizing s with
  | leaf leaf hleaf =>
    obtain ⟨t, rfl⟩ := leaves.exists_text hleaf
    cases h
    rfl
  | mapping entries ih =>
    rw [Value.HasTextLeaves] at leaves
    have hvalues : ∀ e ∈ entries, ∀ s, ofDescription e.2 = .ok s → s.description = e.2 :=
      fun e he s hs => ih e he (leaves e he) (lone.of_mem he) hs
    obtain ⟨item, node, rfl, hnode, rfl⟩ | ⟨fs, hfs, rfl⟩ := ofDescription_lone lone h
    · rw [description, hvalues _ (.head _) node hnode]
    · have hentries : List.Forall₂ (fun e f => id e = (f.1.written, f.2.description)) entries fs :=
        ((List.forall₂_and_left _ _).2 ⟨hvalues, hfs⟩).imp fun e f hf =>
          Prod.ext (FieldKey.written_of_ofValue hf.2.1).symm (hf.1 _ hf.2.2).symm
      rw [description, fieldDescriptions_eq_map, ← map_eq_map_iff_forall₂.2 hentries, List.map_id]

/-- Every key of a description with lone wildcards has been shown, when the description is read. -/
theorem allKeys_of_ofDescription_lone {d : Value} {s : Schema} (lone : d.HasLoneWildcards)
    (h : ofDescription d = .ok s) : d.AllKeys fun key => ∃ name, key.shown = .ok name := by
  induction d using Value.descriptionInduction generalizing s with
  | leaf leaf hleaf =>
    rw [Value.AllKeys]
    · trivial
    · exact hleaf
  | mapping entries ih =>
    rw [Value.AllKeys]
    obtain ⟨item, node, rfl, hnode, rfl⟩ | ⟨fs, hfs, rfl⟩ := ofDescription_lone lone h
    · refine List.forall_mem_singleton.2 ⟨⟨wildcard, rfl⟩, ?_⟩
      exact ih _ (.head _) (lone.of_mem (.head _)) hnode
    · intro e he
      obtain ⟨f, -, hkey, hnode⟩ := exists_mem_of_forall₂ hfs e he
      exact ⟨FieldKey.exists_ofValue_iff.1 ⟨_, hkey⟩, ih e he (lone.of_mem he) hnode⟩

/-- **Reading a description loses nothing of it.** A description whose keys are texts and integers,
whose leaves are texts and whose wildcards are alone is read, unless an integer among the keys is
beyond the digit limit, and the schema is written as the description again. So no other such
description is read to the same schema. -/
theorem description_ofDescription {d : Value} (keys : d.AllKeys Value.IsTextOrInt)
    (leaves : d.HasTextLeaves) (lone : d.HasLoneWildcards) :
    ((∃ s, ofDescription d = .ok s) ↔ d.AllKeys fun key =>
        ∀ n, key = .int n → (decimalDigits n.natAbs).length ≤ digitLimit) ∧
      ∀ s, ofDescription d = .ok s → s.description = d ∧
        ∀ d', d'.HasTextLeaves → d'.HasLoneWildcards → ofDescription d' = .ok s → d' = d := by
  refine ⟨⟨?_, fun h => ?_⟩, fun s hs => ?_⟩
  · rintro ⟨s, hs⟩
    exact keys.imp₂ (allKeys_of_ofDescription_lone lone hs) fun key hkey => hkey.exists_shown_iff.1
  · exact exists_ofDescription leaves (keys.imp₂ h fun key hkey => hkey.exists_shown_iff.2)
  · have hwritten := description_eq_of_ofDescription leaves lone hs
    refine ⟨hwritten, fun d' leaves' lone' hs' => ?_⟩
    rw [← hwritten, description_eq_of_ofDescription leaves' lone' hs']

/-- Keys with several marks, with nothing but a mark and with a marked wildcard, and a number as an
integer and as a text. -/
def markedKeys : Value :=
  .mapping [(.text "??a", .text "?string"), (.text "?", .text "no type"),
    (.text "?*", .mapping [(.text "*", .text "integer => string")]), (.int 1, .text "integer"),
    (.text "1", .text "double")]

/-- All of these keys come back. -/
theorem description_markedKeys :
    markedKeys.AllKeys Value.IsTextOrInt ∧ markedKeys.HasTextLeaves ∧
      markedKeys.HasLoneWildcards ∧ ∃ s, ofDescription markedKeys = .ok s ∧
        s.description = markedKeys := by
  have keys : markedKeys.AllKeys Value.IsTextOrInt := by
    simp only [markedKeys, Value.AllKeys, List.forall_mem_cons]
    exact ⟨⟨.inl ⟨_, rfl⟩, trivial⟩, ⟨.inl ⟨_, rfl⟩, trivial⟩,
      ⟨.inl ⟨_, rfl⟩, ⟨.inl ⟨_, rfl⟩, trivial⟩, List.forall_mem_nil _⟩, ⟨.inr ⟨_, rfl⟩, trivial⟩,
      ⟨.inl ⟨_, rfl⟩, trivial⟩, List.forall_mem_nil _⟩
  have leaves : markedKeys.HasTextLeaves := by
    simp [markedKeys, Value.HasTextLeaves]
  have lone : markedKeys.HasLoneWildcards := by
    simp only [markedKeys, Value.HasLoneWildcards, List.forall_mem_cons]
    exact ⟨.inl (by decide), trivial, trivial, ⟨.inr ⟨_, rfl⟩, trivial, List.forall_mem_nil _⟩,
      trivial, trivial, List.forall_mem_nil _⟩
  obtain ⟨s, hs⟩ : ∃ s, ofDescription markedKeys = .ok s := ⟨_, rfl⟩
  exact ⟨keys, leaves, lone, s, hs, ((description_ofDescription keys leaves lone).2 s hs).1⟩

end Schema

end TreeSchema
