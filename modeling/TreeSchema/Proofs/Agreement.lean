import TreeSchema.Proofs.Exactness

/-!
# What a check looks at

A check goes into data only where the schema leads it, and of what it meets there it looks at the
type alone. To say so, two values are compared on a schema (`Schema.Agree`): where the schema has
fields or a collection, by what it leads to in both of them, and where it has a type expression, by
their types. Values that agree get the same report, with the same paths, kinds and messages in the
same order (`Matcher.check_eq_of_agree`).

The agreement changes its shape with every kind of node, as the walk does, so that one induction on
the schema goes through. A message tells of a value by its type only (`Finding.notContainer_congr`
and the two after it).

What agreement leaves free is the point of it. Numbers and texts may be any, so long as they are
numbers and texts. A mapping may have its entries in another order and further entries besides, and
where it meets fields it may even be a list, if the positions are what the fields ask for. A
collection is stricter, since it goes to every element in the order of the container: there the
elements have to agree one by one. And of a container that meets a pair of types nothing counts but
the types in it, in order, because there is a finding for each pair that is wrong.

Two checks are compared, so nothing has to be said about what either of them finds. Both come to an
end or neither does, and that depends on the schema alone here: a description with short numerals is
never refused (`Matcher.check_eq_of_ofDescription`).
-/

namespace TreeSchema

/-- Two lists have the same images if the elements in the same places have. -/
theorem map_eq_map_iff_forall₂ {α β γ : Type} {f : α → γ} {g : β → γ} {as : List α} {bs : List β} :
    as.map f = bs.map g ↔ List.Forall₂ (fun a b => f a = g b) as bs := by
  rw [← List.forall₂_eq_eq_eq, List.forall₂_map_left_iff, List.forall₂_map_right_iff]

namespace Value

/-- Whether neither of two values is a container, and both have one type. -/
def AlikeNonContainers (a b : Value) : Prop :=
  a.isContainer = false ∧ b.isContainer = false ∧ a.type = b.type

/-- The types of a key and of the value under it. -/
def pairTypes (q : Value × Value) : ValueType × ValueType := (q.1.type, q.2.type)

end Value

namespace Finding

variable {a b : Value}

/-- What is no container is told of by its type. -/
theorem notContainer_congr (h : a.type = b.type) (path : String) :
    notContainer path a = notContainer path b := by
  rw [notContainer, notContainer, h]

/-- What is no container of pairs is told of by its type. -/
theorem notPairs_congr (h : a.type = b.type) (path : String) (key value : Primitive) :
    notPairs path key value a = notPairs path key value b := by
  rw [notPairs, notPairs, h]

/-- What is not of a primitive type is told of by its type. -/
theorem notPrimitive_congr (h : a.type = b.type) (path : String) (p : Primitive) :
    notPrimitive path p a = notPrimitive path p b := by
  rw [notPrimitive, notPrimitive, h]

end Finding

namespace TypeExpr

/-- **Whether two values agree on a type expression.** For a pair of types they do if both are
containers with the same types of keys and values in the same order, or neither is one and they
have the same type. For any other expression they do if they have the same type. -/
def Agree (e : TypeExpr) (a b : Value) : Prop :=
  match e.form with
  | .pairs _ _ => a.AlikeNonContainers b ∨ ∃ ps qs, a.pairs? = some ps ∧ b.pairs? = some qs ∧
      ps.map Value.pairTypes = qs.map Value.pairTypes
  | _ => a.type = b.type

variable {e : TypeExpr} {a b : Value}

/-- Values that agree have one type. -/
theorem Agree.type_eq (h : e.Agree a b) : a.type = b.type := by
  unfold Agree at h
  split at h
  · obtain ⟨-, -, htype⟩ | ⟨ps, qs, hps, hqs, -⟩ := h
    · exact htype
    · rw [Value.type_of_pairs hps, Value.type_of_pairs hqs]
  · exact h

/-- A value agrees with itself. -/
theorem Agree.refl (e : TypeExpr) (a : Value) : e.Agree a a := by
  unfold Agree
  split
  · cases ha : a.pairs? with
    | none =>
      have hnot := Value.not_isContainer_of_pairs ha
      exact .inl ⟨hnot, hnot, rfl⟩
    | some ps => exact .inr ⟨ps, ps, rfl, rfl, rfl⟩
  · rfl

/-- How many pairs of a container are wrong is told by the types in it. -/
theorem map_filter_wrongPairs (pairs : List (Value × Value)) (key value : Primitive)
    (f : Finding) :
    ((pairs.filter fun (k, x) => k.type ≠ .primitive key || x.type ≠ .primitive value).map
        fun _ => f)
      = ((pairs.map Value.pairTypes).filter fun (k, x) =>
          k ≠ .primitive key || x ≠ .primitive value).map fun _ => f := by
  rw [List.filter_map, List.map_map]
  rfl

/-- A type expression finds the same in values that agree on it. -/
theorem findings_eq_of_agree (h : e.Agree a b) (path : String) :
    e.findings a path = e.findings b path := by
  have htype := h.type_eq
  rw [findings, findings, htype]
  by_cases hnull : e.nullable = true ∧ b.type = .null
  · rw [if_pos hnull, if_pos hnull]
  rw [if_neg hnull, if_neg hnull]
  unfold Agree at h
  cases hform : e.form with
  | unknown fault => rfl
  | primitive p =>
    dsimp only
    rw [Finding.notPrimitive_congr htype]
  | pairs key value =>
    rw [hform] at h
    obtain ⟨ha, hb, -⟩ | ⟨ps, qs, hps, hqs, htypes⟩ := h
    · rw [Value.pairs_of_not_isContainer ha, Value.pairs_of_not_isContainer hb]
      dsimp only
      rw [Finding.notPairs_congr htype]
    · rw [hps, hqs]
      dsimp only
      rw [map_filter_wrongPairs, map_filter_wrongPairs, htypes]

end TypeExpr

namespace Schema

/-- **Whether two values agree on a schema.** On fields and on a collection they do if neither is a
container and they have the same type, or if both are containers and what the schema leads to in
them agrees: for each field what the two hold for it, which may be nothing in both, and for a
collection without siblings the elements one by one. -/
def Agree : Schema → Value → Value → Prop
  | .leaf e, a, b => e.Agree a b
  | .collection siblings item, a, b => a.AlikeNonContainers b ∨ ∃ ps qs, a.pairs? = some ps ∧
      b.pairs? = some qs ∧ (siblings = [] → List.Forall₂ (fun p q => item.Agree p.2 q.2) ps qs)
  | .fields fs, a, b => a.AlikeNonContainers b ∨ a.isContainer = true ∧ b.isContainer = true ∧
      ∀ f ∈ fs, (∃ x y, a.field? f.1.key = some x ∧ b.field? f.1.key = some y ∧ f.2.Agree x y)
        ∨ a.field? f.1.key = none ∧ b.field? f.1.key = none
termination_by s => sizeOf s
decreasing_by
  · exact sizeOf_item_lt _ _
  · exact sizeOf_lt_of_mem ‹f ∈ fs›

variable {a b : Value}

/-- Containers that hold the same for every field agree on the fields, if each value agrees with
itself. -/
theorem agree_fields_of_field_eq {fs : List (FieldKey × Schema)} (ha : a.isContainer = true)
    (hb : b.isContainer = true) (hrefl : ∀ f ∈ fs, ∀ x, f.2.Agree x x)
    (h : ∀ f ∈ fs, a.field? f.1.key = b.field? f.1.key) : (fields fs).Agree a b := by
  rw [Agree]
  refine .inr ⟨ha, hb, fun f hf => ?_⟩
  rw [h f hf]
  cases b.field? f.1.key with
  | none => exact .inr ⟨rfl, rfl⟩
  | some x => exact .inl ⟨x, x, rfl, rfl, hrefl f hf x⟩

/-- A value agrees with itself. -/
theorem Agree.refl (s : Schema) (a : Value) : s.Agree a a := by
  induction s generalizing a with
  | leaf e =>
    rw [Agree]
    exact .refl e a
  | collection siblings item ih =>
    rw [Agree]
    cases ha : a.pairs? with
    | none =>
      have hnot := Value.not_isContainer_of_pairs ha
      exact .inl ⟨hnot, hnot, rfl⟩
    | some ps =>
      exact .inr ⟨ps, ps, rfl, rfl, fun _ => List.forall₂_same.2 fun p _ => ih p.2⟩
  | fields fs ih =>
    cases ha : a.isContainer with
    | false =>
      rw [Agree]
      exact .inl ⟨ha, ha, rfl⟩
    | true => exact agree_fields_of_field_eq ha ha ih fun f _ => rfl

/-- **Entries that hold nothing for any field do not count**, wherever in a mapping they stand. -/
theorem agree_filter {fs : List (FieldKey × Schema)} {entries : List (Value × Value)}
    {keep : Value × Value → Bool}
    (h : ∀ e ∈ entries, keep e = false → ∀ f ∈ fs, (Value.mapping [e]).field? f.1.key = none) :
    (fields fs).Agree (.mapping (entries.filter keep)) (.mapping entries) := by
  refine agree_fields_of_field_eq rfl rfl (fun f _ => .refl f.2) fun f hf => ?_
  have hnone := fun e he hdrop => Value.field?_eq_none_iff.1 (h e he hdrop f hf)
  refine Value.field?_congr ?_ fun other hother => ?_
  · exact Value.at?_filter fun e he hdrop => (hnone e he hdrop).1
  · exact Value.at?_filter fun e he hdrop => (hnone e he hdrop).2 other hother

/-- Where there is no container, fields and a collection look at the type alone. -/
theorem disagreements_eq_of_alikeNonContainers {s : Schema} (hs : ∀ e, s ≠ .leaf e)
    (h : a.AlikeNonContainers b) (path : String) :
    s.disagreements a path = s.disagreements b path := by
  obtain ⟨ha, hb, htype⟩ := h
  rw [disagreements_of_not_isContainer hs ha, disagreements_of_not_isContainer hs hb,
    Finding.notContainer_congr htype]

/-- A field finds the same in containers that hold values for it that agree, or nothing. -/
theorem fieldDisagreement_eq_of_agree {f : FieldKey × Schema} {path : String}
    (h : (∃ x y, a.field? f.1.key = some x ∧ b.field? f.1.key = some y ∧ f.2.Agree x y)
      ∨ a.field? f.1.key = none ∧ b.field? f.1.key = none)
    (hnode : ∀ x y, f.2.Agree x y → ∀ path, f.2.disagreements x path = f.2.disagreements y path) :
    fieldDisagreement a path f = fieldDisagreement b path f := by
  unfold fieldDisagreement
  obtain ⟨x, y, hx, hy, hxy⟩ | ⟨hx, hy⟩ := h
  · rw [hx, hy]
    exact hnode x y hxy _
  · rw [hx, hy]

/-- **A schema finds the same in values that agree on it.** -/
theorem disagreements_eq_of_agree {s : Schema} (h : s.Agree a b) (path : String) :
    s.disagreements a path = s.disagreements b path := by
  induction s generalizing a b path with
  | leaf e =>
    rw [Agree] at h
    rw [disagreements, disagreements, TypeExpr.findings_eq_of_agree h]
  | collection siblings item ih =>
    rw [Agree] at h
    obtain halike | ⟨ps, qs, hps, hqs, hall⟩ := h
    · exact disagreements_eq_of_alikeNonContainers (by simp) halike path
    · cases siblings with
      | nil =>
        rw [disagreements_collection hps, disagreements_collection hqs, List.flatMap_def,
          List.flatMap_def]
        exact congrArg List.flatten
          (map_eq_map_iff_forall₂.2 ((hall rfl).imp fun p q hpq => ih hpq _))
      | cons name names =>
        rw [disagreements_crowded (List.cons_ne_nil _ _) (Value.isContainer_of_pairs hps),
          disagreements_crowded (List.cons_ne_nil _ _) (Value.isContainer_of_pairs hqs)]
  | fields fs ih =>
    rw [Agree] at h
    obtain halike | ⟨ha, hb, hall⟩ := h
    · exact disagreements_eq_of_alikeNonContainers (by simp) halike path
    · rw [disagreements_fields ha, disagreements_fields hb, List.flatMap_def, List.flatMap_def]
      refine congrArg List.flatten (List.map_congr_left fun f hf => ?_)
      exact fieldDisagreement_eq_of_agree (hall f hf) fun x y hxy path => ih f hf hxy path

end Schema

namespace Matcher

/-- **A check gives values that agree on the schema the same report.** In particular entries of a
mapping that hold nothing for any of the fields do not count. -/
theorem check_eq_of_agree {description : Value} {m : Matcher}
    (built : ofDescription description = .ok m) (short : description.HasShortNumerals) :
    (∀ a b, m.root.Agree a b → ∃ r, m.check a = .ok r ∧ m.check b = .ok r) ∧
      ∀ fs, m.root = .fields fs → ∀ (entries : List (Value × Value)) (keep : Value × Value → Bool),
        (∀ e ∈ entries, keep e = false → ∀ f ∈ fs, (Value.mapping [e]).field? f.1.key = none) →
        ∃ r, m.check (.mapping (entries.filter keep)) = .ok r ∧
          m.check (.mapping entries) = .ok r := by
  have hagree : ∀ a b, m.root.Agree a b → ∃ r, m.check a = .ok r ∧ m.check b = .ok r := by
    intro a b h
    refine ⟨_, check_eq_of_ofDescription built short a, ?_⟩
    rw [check_eq_of_ofDescription built short b, Schema.disagreements_eq_of_agree h]
  refine ⟨hagree, fun fs hroot entries keep hdrop => hagree _ _ ?_⟩
  rw [hroot]
  exact Schema.agree_filter hdrop

/-- A number, and flags that may be left out. -/
def countAndFlags : Matcher where
  description := [(.text "count", .text "integer"),
    (.text "?flags", .mapping [(.text "*", .text "boolean")])]
  root := .fields [(⟨"count", false, .text "count"⟩, .leaf (.ofText "integer")),
    (⟨"flags", true, .text "flags"⟩, .collection [] (.leaf (.ofText "boolean")))]

/-- Data with other numbers and other flags, in another order and with a further entry, gets the
same report. One of the flags is no flag in both. -/
theorem check_eq_countAndFlags :
    ofDescription (.mapping countAndFlags.description) = .ok countAndFlags ∧
      (Value.mapping countAndFlags.description).HasShortNumerals ∧
      ∃ r, r.isValid = false ∧
        countAndFlags.check (.mapping [(.text "count", .int 7),
          (.text "flags", .list [.bool true, .int 1])]) = .ok r ∧
        countAndFlags.check (.mapping [(.text "flags", .tuple [.bool false, .int 2]),
          (.text "size", .null), (.text "count", .int 8)]) = .ok r := by
  have built : ofDescription (.mapping countAndFlags.description) = .ok countAndFlags := rfl
  have short : (Value.mapping countAndFlags.description).HasShortNumerals := by
    simp only [Value.HasShortNumerals, Value.AllKeys, countAndFlags, List.forall_mem_cons]
    exact ⟨⟨Value.isShortKey_text (by decide), trivial⟩, ⟨Value.isShortKey_text (by decide),
      ⟨Value.isShortKey_text (by decide), trivial⟩, List.forall_mem_nil _⟩, List.forall_mem_nil _⟩
  refine ⟨built, short, ?_⟩
  have hagree : countAndFlags.root.Agree
      (.mapping [(.text "count", .int 7), (.text "flags", .list [.bool true, .int 1])])
      (.mapping [(.text "flags", .tuple [.bool false, .int 2]), (.text "size", .null),
        (.text "count", .int 8)]) := by
    rw [countAndFlags, Schema.Agree]
    refine .inr ⟨rfl, rfl, List.forall_mem_cons.2 ⟨?_, List.forall_mem_singleton.2 ?_⟩⟩
    · refine .inl ⟨.int 7, .int 8, rfl, rfl, ?_⟩
      rw [Schema.Agree]
      rfl
    · refine .inl ⟨.list [.bool true, .int 1], .tuple [.bool false, .int 2], rfl, rfl, ?_⟩
      rw [Schema.Agree]
      refine .inr ⟨_, _, rfl, rfl, fun _ => .cons ?_ (.cons ?_ .nil)⟩ <;> rw [Schema.Agree] <;> rfl
  obtain ⟨r, ha, hb⟩ := (check_eq_of_agree built short).1 _ _ hagree
  refine ⟨r, ?_, ha, hb⟩
  cases ha
  rfl

end Matcher

end TreeSchema
