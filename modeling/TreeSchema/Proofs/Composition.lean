import TreeSchema.Proofs.Exactness
import TreeSchema.Proofs.Merge

/-!
# Schemas made of schemas

A schema can be put under the wildcard, or several of them under keys of one mapping. A check of the
whole is then no more than checks of the parts: its report is the merge of their reports, each
relocated under its key (`Matcher.check_compositional`).

What carries the proof is that a walk is the same at any path: below a key it finds what it finds at
the root, relocated (`Schema.disagreements_relocatePath`). The root is the one place with the empty
path, and a segment after it stands alone, without a point before it. So this needs segments that
are not empty, but only at the first level: below that no path is empty any more.

The parts are matchers that were made of descriptions (`Matcher.IsPart`), and so is the whole: the
description of it is built from those of the parts, and it is read again. Nothing is known of the
whole but its description, which is what a caller has in hand who nests one description in another.
That it is read to the nested schema has two conditions on a key (`IsPartKey`). It must not be the
wildcard, which would make a collection of the mapping, and it must have no mark, since the name of
the field would be without it.

The empty description cannot be a part. It is not matched on its own, so that every value passes by
it, but inside of another description it asks for a container.
-/

namespace TreeSchema

/-! ## The walk below a key

A path and the key in front of it, a segment and the path before it: the two ways of joining agree
where neither the key nor the first segment is empty. -/

/-- A segment may be joined before a path is relocated or after it. -/
theorem joinPath_relocatePath {key path segment : String} (hkey : key ≠ "")
    (h : path ≠ "" ∨ segment ≠ "") :
    joinPath (relocatePath key path) segment = relocatePath key (joinPath path segment) := by
  rw [relocatePath_of_ne (joinPath_ne_empty h)]
  by_cases hpath : path = ""
  · subst hpath
    exact joinPath_of_ne hkey segment
  · have hne : key ++ "." ++ path ≠ "" := by
      intro hempty
      exact hpath (String.append_eq_empty_iff.1 hempty).2
    rw [relocatePath_of_ne hpath, joinPath_of_ne hne, joinPath_of_ne hpath]
    simp only [String.append_assoc]

/-- A type expression finds the same at every path. -/
theorem TypeExpr.findings_relocatePath (e : TypeExpr) (v : Value) (key path : String) :
    e.findings v (relocatePath key path) = (e.findings v path).map (.relocate key) := by
  unfold findings
  split
  · rfl
  · cases e.form with
    | unknown fault => rfl
    | primitive p => dsimp only; split <;> rfl
    | pairs k x =>
      dsimp only
      cases v.pairs? with
      | none => rfl
      | some pairs =>
        dsimp only
        rw [List.map_map]
        rfl

namespace Schema

/-- Whether no field at the first level of a schema has an empty name. -/
def HasNamedFields : Schema → Prop
  | .fields fs => ∀ f ∈ fs, f.1.name ≠ ""
  | _ => True

/-- Where there is no container, this is found at every path. -/
theorem disagreements_relocatePath_of_not_isContainer {s : Schema} (hs : ∀ e, s ≠ .leaf e)
    {v : Value} (hv : v.isContainer = false) (key path : String) :
    s.disagreements v (relocatePath key path)
      = (s.disagreements v path).map (.relocate key) := by
  rw [disagreements_of_not_isContainer hs hv, disagreements_of_not_isContainer hs hv]
  rfl

/-- **Below a key a schema finds what it finds at the root**, relocated. -/
theorem disagreements_relocatePath {s : Schema} {key path : String} (hkey : key ≠ "")
    (h : path ≠ "" ∨ s.HasNamedFields) (v : Value) :
    s.disagreements v (relocatePath key path)
      = (s.disagreements v path).map (.relocate key) := by
  induction s generalizing v path with
  | leaf e =>
    rw [disagreements, disagreements]
    exact e.findings_relocatePath v key path
  | collection siblings item ih =>
    have hbelow : joinPath (relocatePath key path) wildcard
        = relocatePath key (joinPath path wildcard) :=
      joinPath_relocatePath hkey (.inr wildcard_ne_empty)
    have hne : joinPath path wildcard ≠ "" := joinPath_ne_empty (.inr wildcard_ne_empty)
    cases hv : v.pairs? with
    | none =>
      exact disagreements_relocatePath_of_not_isContainer (by simp)
        (Value.not_isContainer_of_pairs hv) key path
    | some pairs =>
      cases siblings with
      | nil =>
        rw [disagreements_collection hv, disagreements_collection hv, List.map_flatMap, hbelow]
        -- Below a wildcard no path is empty, so the second premise is needed at the root only.
        exact List.flatMap_congr fun q _ => ih (.inl hne) q.2
      | cons name names =>
        have hcontainer := Value.isContainer_of_pairs hv
        rw [disagreements_crowded (List.cons_ne_nil _ _) hcontainer,
          disagreements_crowded (List.cons_ne_nil _ _) hcontainer, hbelow]
        rfl
  | fields fs ih =>
    cases hv : v.isContainer with
    | false => exact disagreements_relocatePath_of_not_isContainer (by simp) hv key path
    | true =>
      rw [disagreements_fields hv, disagreements_fields hv, List.map_flatMap]
      refine List.flatMap_congr fun f hf => ?_
      have hname : path ≠ "" ∨ f.1.name ≠ "" := h.imp_right fun hnamed => hnamed f hf
      unfold fieldDisagreement
      rw [joinPath_relocatePath hkey hname]
      cases v.field? f.1.key with
      | some x => exact ih f hf (.inl (joinPath_ne_empty hname)) x
      | none => cases f.1.optional <;> rfl

/-! ## The schemas that are made

A mapping with the wildcard alone, and a mapping with keys that are read as they are written. -/

/-- What stands alone under the wildcard is read to the item of a collection. -/
theorem ofDescription_underWildcard {item : Value} {s : Schema} (h : ofDescription item = .ok s) :
    ofDescription (.mapping [(.text wildcard, item)]) = .ok (.collection [] s) := by
  have hwildcard : isWildcard (.text wildcard) = true := by decide
  rw [ofDescription, ofWildcard, if_pos hwildcard, h]
  rfl

end Schema

/-- **A key that a part can be put under**: a text that is the path segment of its own field. -/
structure IsPartKey (key : String) : Prop where
  ne_empty : key ≠ ""
  ne_wildcard : key ≠ wildcard
  unmarked : key.toList.head? ≠ some '?'
  short : (Value.text key).IsShortKey

namespace IsPartKey

variable {key : String}

/-- The key of a part is read to a field of that name. -/
theorem ofValue_eq (h : IsPartKey key) :
    FieldKey.ofValue (.text key) = .ok ⟨key, false, .text key⟩ := by
  rw [FieldKey.ofValue, splitMark_of_head_ne h.unmarked]

/-- The key of a part can be spelled. -/
theorem isLegible (h : IsPartKey key) : (Value.text key).IsLegible :=
  FieldKey.isLegible_of_ofValue h.ofValue_eq h.short

end IsPartKey

namespace Value

/-- **The elements of a container**, in order. -/
def elements? : Value → Option (List Value)
  | list items | tuple items => some items
  | mapping entries => some (entries.map Prod.snd)
  | _ => none

/-- The elements are what stands in the pairs. -/
theorem pairs_of_elements {v : Value} {ds : List Value} (h : v.elements? = some ds) :
    ∃ pairs, v.pairs? = some pairs ∧ pairs.map Prod.snd = ds := by
  have hitems : ∀ items : List Value,
      (items.zipIdx.map fun p => (int p.2, p.1)).map Prod.snd = items := by
    intro items
    rw [List.map_map]
    exact List.zipIdx_map_fst 0 items
  cases v with
  | mapping entries =>
    cases h
    exact ⟨entries, rfl, rfl⟩
  | list items | tuple items =>
    cases h
    exact ⟨_, rfl, hitems _⟩
  | _ => cases h

end Value

namespace Matcher

/-- **A matcher that can be part of another one**: it is made of a mapping that is not empty, and no
field at its first level has an empty name. -/
structure IsPart (m : Matcher) : Prop where
  built : ofDescription (.mapping m.description) = .ok m
  nonempty : m.description ≠ []
  short : (Value.mapping m.description).HasShortNumerals
  named : m.root.HasNamedFields

/-- The matcher of a part under the wildcard. -/
def underWildcard (m : Matcher) : Matcher where
  description := [(.text wildcard, .mapping m.description)]
  root := .collection [] m.root

/-- The matcher of parts under keys. -/
def underKeys (parts : List (String × Matcher)) : Matcher where
  description := parts.map fun p => (.text p.1, .mapping p.2.description)
  root := .fields (parts.map fun p => (⟨p.1, false, .text p.1⟩, p.2.root))

/-- The report of a part on data. -/
def partReport (m : Matcher) (v : Value) : Report := Visit.report ⟨m.root, v, ""⟩

namespace IsPart

variable {m : Matcher}

/-- A part is checked with its own report. -/
theorem check_eq (h : m.IsPart) (v : Value) : m.check v = .ok (m.partReport v) :=
  check_eq_report h.built h.nonempty h.short v

/-- A part is read from its description. -/
theorem root_eq (h : m.IsPart) : Schema.ofDescription (.mapping m.description) = .ok m.root :=
  (ofDescription_mapping h.built).2

/-- Under a key a part finds what it finds at the root, relocated. -/
theorem ofFindings_disagreements (h : m.IsPart) {key : String} (hkey : key ≠ "") (v : Value) :
    Report.ofFindings (m.root.disagreements v key) = (m.partReport v).relocate key := by
  have hroot : m.root.disagreements v (relocatePath key "")
      = (m.root.disagreements v "").map (.relocate key) :=
    Schema.disagreements_relocatePath hkey (.inr h.named) v
  rw [partReport, Visit.report, Report.relocate_ofFindings, ← hroot]
  rfl

/-! ## A part under the wildcard

The collection goes to the elements in the order of the container, so the report merges those on the
elements in this order, and the report on one container after another merges two. -/

/-- The whole is made of the description. -/
theorem built_underWildcard (h : m.IsPart) :
    ofDescription (.mapping m.underWildcard.description) = .ok m.underWildcard := by
  rw [underWildcard, ofDescription, ofEntries, Schema.ofDescription_underWildcard h.root_eq]
  rfl

/-- The wildcard is no long numeral. -/
theorem short_underWildcard (h : m.IsPart) :
    (Value.mapping m.underWildcard.description).HasShortNumerals := by
  rw [Value.HasShortNumerals, underWildcard, Value.AllKeys, List.forall_mem_singleton]
  exact ⟨Value.isShortKey_text (by decide), h.short⟩

/-- The report of a part under the wildcard is that of what the part finds in each element. -/
theorem check_underWildcard (h : m.IsPart) {v : Value} {ds : List Value}
    (hv : v.elements? = some ds) :
    m.underWildcard.check v
      = .ok (.ofFindings (ds.flatMap fun d => m.root.disagreements d wildcard)) := by
  obtain ⟨pairs, hpairs, rfl⟩ := Value.pairs_of_elements hv
  rw [check_eq_report h.built_underWildcard (List.cons_ne_nil _ _) h.short_underWildcard,
    Visit.report, underWildcard, Schema.disagreements_collection hpairs, List.flatMap_map]
  rfl

/-- **The report of a part under the wildcard** merges those of the part on the elements. -/
theorem check_underWildcard_eq_mergeAll (h : m.IsPart) {v : Value} {ds : List Value}
    (hv : v.elements? = some ds) :
    ∃ rs, List.Forall₂ (fun d r => m.check d = .ok r) ds rs ∧
      m.underWildcard.check v = .ok (.mergeAll (rs.map (.relocate wildcard))) := by
  refine ⟨ds.map m.partReport, List.forall₂_map_right_iff.2
    (List.forall₂_same.2 fun d _ => h.check_eq d), ?_⟩
  rw [h.check_underWildcard hv, ← Report.mergeAll_map_ofFindings, List.map_map]
  refine congrArg (fun rs => Except.ok (Report.mergeAll rs)) (List.map_congr_left fun d _ => ?_)
  exact h.ofFindings_disagreements wildcard_ne_empty d

/-- **The report on one container after another** merges the reports on the two. -/
theorem check_underWildcard_append (h : m.IsPart) {u v w : Value} {xs ys : List Value}
    (hu : u.elements? = some xs) (hv : v.elements? = some ys)
    (hw : w.elements? = some (xs ++ ys)) :
    ∃ r s, m.underWildcard.check u = .ok r ∧ m.underWildcard.check v = .ok s ∧
      m.underWildcard.check w = .ok (r.merge s) ∧
      ((r.merge s).isValid = true ↔ r.isValid = true ∧ s.isValid = true) := by
  refine ⟨_, _, h.check_underWildcard hu, h.check_underWildcard hv, ?_, Report.isValid_merge _ _⟩
  rw [h.check_underWildcard hw, List.flatMap_append, ← Report.merge_ofFindings]

end IsPart

/-! ## Parts under keys

The keys are looked up one after the other in the order of the parts, whatever the container is and
whatever else it holds. A key that is not there has a report of its own, with the one finding. -/

/-- **The report on a field of a container**: that of the part on what the container holds for the
key, relocated under it, or that the key is absent. -/
inductive ReportsField (v : Value) : String × Matcher → Report → Prop
  | found {key : String} {m : Matcher} {x : Value} {r : Report} :
      v.lookup (.text key) = .ok (some x) → m.check x = .ok r →
      ReportsField v (key, m) (r.relocate key)
  | absent {key : String} {m : Matcher} : v.lookup (.text key) = .ok none →
      ReportsField v (key, m) ⟨[(key, [(.keyNotFound,
        "The key defined in the schema is not found in the data.")])]⟩

/-- The findings of one of the parts under keys. -/
def keyFindings (v : Value) (p : String × Matcher) : List Finding :=
  Schema.fieldDisagreement v "" (⟨p.1, false, .text p.1⟩, p.2.root)

/-- The report on a field tells of what the part under its key finds. -/
theorem reportsField_keyFindings {v : Value} {p : String × Matcher} (hpart : p.2.IsPart)
    (hkey : IsPartKey p.1) : ReportsField v p (.ofFindings (keyFindings v p)) := by
  obtain ⟨key, m⟩ := p
  have hlookup : v.lookup (.text key) = .ok (v.field? (.text key)) :=
    Value.lookup_eq hkey.isLegible v
  rw [keyFindings, Schema.fieldDisagreement]
  dsimp only
  cases hx : v.field? (.text key) with
  | none =>
    rw [hx] at hlookup
    exact .absent hlookup
  | some x =>
    rw [hx] at hlookup
    dsimp only
    show ReportsField v (key, m) (.ofFindings (m.root.disagreements x key))
    rw [hpart.ofFindings_disagreements hkey.ne_empty]
    exact .found hlookup (hpart.check_eq x)

variable {parts : List (String × Matcher)}

/-- There is no wildcard among the keys. -/
theorem ofWildcard_underKeys (h : ∀ p ∈ parts, p.2.IsPart ∧ IsPartKey p.1) :
    Schema.ofWildcard (underKeys parts).description = .ok none := by
  induction parts with
  | nil => rfl
  | cons p parts ih =>
    have hnot : ¬ isWildcard (.text p.1) = true :=
      mt isWildcard_text_iff.1 (h p (.head _)).2.ne_wildcard
    rw [underKeys, List.map_cons, Schema.ofWildcard, if_neg hnot]
    exact ih fun q hq => h q (.tail _ hq)

/-- The entries are read one by one, each to the schema of its part. -/
theorem ofEntries_underKeys (h : ∀ p ∈ parts, p.2.IsPart ∧ IsPartKey p.1) :
    Schema.ofEntries (underKeys parts).description
      = .ok (parts.map fun p => (⟨p.1, false, .text p.1⟩, p.2.root)) := by
  induction parts with
  | nil => rfl
  | cons p parts ih =>
    obtain ⟨hpart, hkey⟩ := h p (.head _)
    have hrest := ih fun q hq => h q (.tail _ hq)
    rw [underKeys] at hrest
    rw [underKeys, List.map_cons, Schema.ofEntries, hkey.ofValue_eq, hpart.root_eq, hrest]
    rfl

/-- The whole is made of the description. -/
theorem built_underKeys (h : ∀ p ∈ parts, p.2.IsPart ∧ IsPartKey p.1) :
    ofDescription (.mapping (underKeys parts).description) = .ok (underKeys parts) := by
  rw [ofDescription, ofEntries, Schema.ofDescription, ofWildcard_underKeys h,
    ofEntries_underKeys h]
  rfl

/-- No key is a long numeral. -/
theorem short_underKeys (h : ∀ p ∈ parts, p.2.IsPart ∧ IsPartKey p.1) :
    (Value.mapping (underKeys parts).description).HasShortNumerals := by
  rw [Value.HasShortNumerals, Value.AllKeys, underKeys, List.forall_mem_map]
  exact fun p hp => ⟨(h p hp).2.short, (h p hp).1.short⟩

/-- Parts under keys find in a container what each of them finds. -/
theorem check_underKeys (h : ∀ p ∈ parts, p.2.IsPart ∧ IsPartKey p.1) {v : Value}
    (hv : v.isContainer = true) :
    (underKeys parts).check v = .ok (.ofFindings (parts.flatMap (keyFindings v))) := by
  rw [Matcher.check_eq (built_underKeys h) (short_underKeys h)]
  cases parts with
  | nil => rfl
  | cons p parts =>
    rw [underKeys, Schema.disagreements_fields hv, List.flatMap_map]
    rfl

/-- **The report of parts under keys** merges those on the fields. -/
theorem check_underKeys_eq_mergeAll (h : ∀ p ∈ parts, p.2.IsPart ∧ IsPartKey p.1) {v : Value}
    (hv : v.isContainer = true) :
    ∃ rs, List.Forall₂ (ReportsField v) parts rs ∧
      (underKeys parts).check v = .ok (.mergeAll rs) := by
  refine ⟨parts.map fun p => .ofFindings (keyFindings v p), List.forall₂_map_right_iff.2
    (List.forall₂_same.2 fun p hp => reportsField_keyFindings (h p hp).1 (h p hp).2), ?_⟩
  rw [Report.mergeAll_map_ofFindings]
  exact check_underKeys h hv

/-- **Checking is compositional.** A part under the wildcard gives on a container the merge of its
reports on the elements, each relocated under the wildcard, so that the report on one container
after another merges the two reports, and is valid if both are. Parts under keys give on a
container the merge of the reports on the fields, each relocated under its key. -/
theorem check_compositional :
    (∀ m : Matcher, m.IsPart → ∃ whole,
      ofDescription (.mapping [(.text wildcard, .mapping m.description)]) = .ok whole ∧
      (∀ (v : Value) (ds : List Value), v.elements? = some ds →
        ∃ rs, List.Forall₂ (fun d r => m.check d = .ok r) ds rs ∧
          whole.check v = .ok (.mergeAll (rs.map (.relocate wildcard)))) ∧
      ∀ (u v w : Value) (xs ys : List Value), u.elements? = some xs → v.elements? = some ys →
        w.elements? = some (xs ++ ys) →
        ∃ r s, whole.check u = .ok r ∧ whole.check v = .ok s ∧
          whole.check w = .ok (r.merge s) ∧
          ((r.merge s).isValid = true ↔ r.isValid = true ∧ s.isValid = true)) ∧
    ∀ parts : List (String × Matcher), (∀ p ∈ parts, p.2.IsPart ∧ IsPartKey p.1) → ∃ whole,
      ofDescription (.mapping (parts.map fun p => (.text p.1, .mapping p.2.description)))
        = .ok whole ∧
      ∀ v : Value, v.isContainer = true →
        ∃ rs, List.Forall₂ (ReportsField v) parts rs ∧ whole.check v = .ok (.mergeAll rs) := by
  refine ⟨fun m h => ⟨m.underWildcard, h.built_underWildcard, fun v ds hv => ?_,
    fun u v w xs ys hu hv hw => ?_⟩, fun parts h => ⟨underKeys parts, built_underKeys h,
    fun v hv => ?_⟩⟩
  · exact h.check_underWildcard_eq_mergeAll hv
  · exact h.check_underWildcard_append hu hv hw
  · exact check_underKeys_eq_mergeAll h hv

/-- A name alone. -/
def nameOnly : Matcher where
  description := [(.text "name", .text "string")]
  root := .fields [(⟨"name", false, .text "name"⟩, .leaf (.ofText "string"))]

/-- Three elements without a proper name and an owner who is none: what the elements share a path
for is told once for each kind, and the paths are those of the parts under their keys. -/
theorem check_nameOnly_under :
    nameOnly.IsPart ∧ IsPartKey "owner" ∧
      (∃ whole, ofDescription (.mapping [(.text wildcard, .mapping nameOnly.description)])
          = .ok whole ∧
        whole.check (.list [.mapping [], .int 5, .mapping [(.text "name", .int 1)]])
          = .ok ⟨[("*.name",
              [(.keyNotFound, "The key defined in the schema is not found in the data."),
                (.typeMismatch, "The value must be of type 'string', got 'integer'.")]),
            ("*", [(.typeMismatch,
              "The value must be an array as defined in the schema, got 'integer'.")])]⟩) ∧
      ∃ whole, ofDescription (.mapping [(.text "owner", .mapping nameOnly.description)])
          = .ok whole ∧
        whole.check (.mapping [(.text "owner", .null)])
          = .ok ⟨[("owner", [(.typeMismatch,
              "The value must be an array as defined in the schema, got 'null'.")])]⟩ := by
  have short : (Value.mapping nameOnly.description).HasShortNumerals := by
    rw [Value.HasShortNumerals, nameOnly, Value.AllKeys, List.forall_mem_singleton, Value.AllKeys]
    · exact ⟨Value.isShortKey_text (by decide), trivial⟩
    · simp
  have part : nameOnly.IsPart :=
    ⟨rfl, List.cons_ne_nil _ _, short, List.forall_mem_singleton.2 (by decide)⟩
  have key : IsPartKey "owner" :=
    ⟨by decide, by decide, by decide, Value.isShortKey_text (by decide)⟩
  refine ⟨part, key, ?_, ?_⟩
  · obtain ⟨whole, built, hcheck, -⟩ := check_compositional.1 nameOnly part
    obtain ⟨rs, hrs, hr⟩ :=
      hcheck (.list [.mapping [], .int 5, .mapping [(.text "name", .int 1)]]) _ rfl
    obtain _ | ⟨h1, _ | ⟨h2, _ | ⟨h3, _ | _⟩⟩⟩ := hrs
    cases h1
    cases h2
    cases h3
    exact ⟨whole, built, hr.trans rfl⟩
  · obtain ⟨whole, built, hcheck⟩ := check_compositional.2 [("owner", nameOnly)]
      (List.forall_mem_singleton.2 ⟨part, key⟩)
    obtain ⟨rs, hrs, hr⟩ := hcheck (.mapping [(.text "owner", .null)]) rfl
    obtain _ | ⟨hfield, _ | _⟩ := hrs
    cases hfield with
    | absent h => cases h
    | found h hx =>
      cases h
      cases hx
      exact ⟨whole, built, hr.trans rfl⟩

end Matcher

end TreeSchema
