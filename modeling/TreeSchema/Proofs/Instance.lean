import TreeSchema.Proofs.ByPosition
import TreeSchema.Proofs.Conformance
import TreeSchema.Proofs.DistinctKeys
import TreeSchema.Proofs.Isolation

/-!
# Instances of descriptions

A description shows what data conforms with it: put values in the place of types, the keys without
their marks, and a list of one element in the place of a wildcard (`Value.IsInstance`). If the
description is well-formed, then there are such data, and a matcher of the description holds all of
them for matching, whatever it was asked before (`Matcher.holds_instance`).

What this stands on is that a field finds its own entry (`Value.IsInstance.field?_eq_some`). Other
keys of the level may be other spellings of the same number, such as `1` beside `"1"` and `"01"`;
but the key as written is looked for first, and no other key is the same.

A description is well-formed if nothing in it is at odds with anything else in it: its leaves are
types, a wildcard has nothing beside it, and no two keys of a level are the same without their
marks. The last of these would otherwise ask one key for two things. No more is needed, and in
particular a key may be an integer or a text or nothing but a mark.

An instance is a value of the same make as the description, so that the two are compared by going
down both at once. It holds every field, the optional ones included, and it would conform without
those as well. That it conforms is said of the description (`Conforms`), and what a matcher does
follows from the equivalence between conforming and an empty report.
-/

namespace TreeSchema

namespace Value

/-- Texts and integers are the same key only if they are the same value. -/
theorem IsTextOrInt.sameKey_iff {k l : Value} (hk : k.IsTextOrInt) (hl : l.IsTextOrInt) :
    k.sameKey l = true ↔ k = l := by
  obtain ⟨s, rfl⟩ | ⟨i, rfl⟩ := hk
  · obtain ⟨t, rfl⟩ | ⟨j, rfl⟩ := hl
    · rw [sameKey_text, beq_iff_eq, text.injEq]
    · rw [sameKey_text_int]
      exact iff_of_false Bool.false_ne_true nofun
  · obtain ⟨t, rfl⟩ | ⟨j, rfl⟩ := hl
    · rw [sameKey_comm, sameKey_text_int]
      exact iff_of_false Bool.false_ne_true nofun
    · rw [sameKey_int, beq_iff_eq, int.injEq]

/-- A key is a text or an integer without its mark, too. -/
theorem IsTextOrInt.addressed {k : Value} (h : k.IsTextOrInt) : k.addressed.IsTextOrInt := by
  obtain ⟨s, rfl⟩ | ⟨n, rfl⟩ := h
  · exact .inl ⟨_, rfl⟩
  · exact .inr ⟨n, rfl⟩

/-! ## Well-formed descriptions

Well-formedness is decided on each level by itself. The two kinds of levels exclude each other,
apart from the empty one, which has no keys. -/

/-- **Whether a description is well-formed**: its leaves are texts of types, the wildcard is alone
on its level, and the keys of any other level stay different without their marks. -/
def IsWellFormed : Value → Prop
  | text s => ∀ fault, (TypeExpr.ofText s).form ≠ .unknown fault
  | mapping entries => (∀ e ∈ entries, e.2.IsWellFormed) ∧
      ((∃ item, entries = [(text wildcard, item)])
        ∨ (∀ e ∈ entries, isWildcard e.1 = false) ∧ (entries.map fun e => e.1.addressed).Nodup)
  | _ => False
termination_by v => sizeOf v
decreasing_by exact sizeOf_lt_of_mem ‹e ∈ entries›

/-- All leaves of a well-formed description are texts. -/
theorem IsWellFormed.hasTextLeaves {d : Value} (h : d.IsWellFormed) : d.HasTextLeaves := by
  induction d using descriptionInduction with
  | leaf leaf hleaf =>
    cases leaf with
    | text s =>
      rw [HasTextLeaves]
      trivial
    | mapping entries => exact absurd rfl (hleaf entries)
    | _ =>
      rw [IsWellFormed] at h
      · exact h.elim
      all_goals simp
  | mapping entries ih =>
    rw [IsWellFormed] at h
    rw [HasTextLeaves]
    exact fun e he => ih e he (h.1 e he)

/-- **The instances of a description**: any values of the types at its leaves, under the keys
without their marks and in their order, and an element for a wildcard. -/
inductive IsInstance : (description data : Value) → Prop
  /-- A primitive type has its values as instances. -/
  | primitive {s : String} {v : Value} {p : Primitive} :
      (TypeExpr.ofText s).form = .primitive p → v.type = .primitive p → IsInstance (.text s) v
  /-- A pair of types has the mappings from a key to a value as instances. -/
  | pairs {s : String} {k v : Value} {key value : Primitive} :
      (TypeExpr.ofText s).form = .pairs key value → k.type = .primitive key →
      v.type = .primitive value → IsInstance (.text s) (.mapping [(k, v)])
  /-- A collection has the lists of one instance as instances. -/
  | collection {item v : Value} : IsInstance item v →
      IsInstance (.mapping [(.text wildcard, item)]) (.list [v])
  /-- Fields have mappings as instances, with an instance for each field. -/
  | fields {entries others : List (Value × Value)} : (∀ e ∈ entries, isWildcard e.1 = false) →
      (entries.map fun e => e.1.addressed) = others.map Prod.fst →
      List.Forall₂ IsInstance (entries.map Prod.snd) (others.map Prod.snd) →
      IsInstance (.mapping entries) (.mapping others)

/-- Every primitive type has a value. -/
theorem exists_type_eq (p : Primitive) : ∃ v : Value, v.type = .primitive p := by
  cases p with
  | integer => exact ⟨.int 0, rfl⟩
  | double => exact ⟨.real 0, rfl⟩
  | boolean => exact ⟨.bool true, rfl⟩
  | string => exact ⟨.text "", rfl⟩

/-- **A well-formed description has an instance.** -/
theorem IsWellFormed.exists_isInstance {d : Value} (h : d.IsWellFormed) : ∃ v, d.IsInstance v := by
  induction d using descriptionInduction with
  | leaf leaf hleaf =>
    obtain ⟨s, rfl⟩ := h.hasTextLeaves.exists_text hleaf
    rw [IsWellFormed] at h
    cases hform : (TypeExpr.ofText s).form with
    | unknown fault => exact absurd hform (h fault)
    | primitive p =>
      obtain ⟨v, hv⟩ := exists_type_eq p
      exact ⟨v, .primitive hform hv⟩
    | pairs key value =>
      obtain ⟨k, hk⟩ := exists_type_eq key
      obtain ⟨v, hv⟩ := exists_type_eq value
      exact ⟨_, .pairs hform hk hv⟩
  | mapping entries ih =>
    rw [IsWellFormed] at h
    obtain ⟨hvalues, ⟨item, rfl⟩ | ⟨hnone, -⟩⟩ := h
    · obtain ⟨v, hv⟩ := ih _ (.head _) (hvalues _ (.head _))
      exact ⟨_, .collection hv⟩
    · have hentries : ∀ e ∈ entries, ∃ f : Value × Value,
          e.1.addressed = f.1 ∧ e.2.IsInstance f.2 := by
        intro e he
        obtain ⟨v, hv⟩ := ih e he (hvalues e he)
        exact ⟨(e.1.addressed, v), rfl, hv⟩
      obtain ⟨others, hothers⟩ := exists_forall₂ hentries
      refine ⟨.mapping others, .fields hnone
        (map_eq_map_iff_forall₂.2 (hothers.imp fun _ _ h => h.1)) ?_⟩
      rw [List.forall₂_map_left_iff, List.forall₂_map_right_iff]
      exact hothers.imp fun _ _ h => h.2

/-! ## What an instance conforms with

The keys of an instance are those of the description without their marks, in the same order and all
different, so each of them has one entry. -/

namespace IsInstance

variable {entries others : List (Value × Value)}

/-- **A field finds its own entry** in an instance, whatever other spellings of its key there
are. -/
theorem field?_eq_some (hkeys : (entries.map fun e => e.1.addressed) = others.map Prod.fst)
    (keys : ∀ e ∈ entries, e.1.IsTextOrInt)
    (hnodup : (entries.map fun e => e.1.addressed).Nodup) {f : Value × Value} (hf : f ∈ others) :
    (mapping others).field? f.1 = some f.2 := by
  have hall : ∀ k ∈ others.map Prod.fst, k.IsTextOrInt := by
    rw [← hkeys]
    exact List.forall_mem_map.2 fun e he => (keys e he).addressed
  have hdistinct : (others.map Prod.fst).Pairwise fun k l => k.sameKey l = false := by
    rw [hkeys] at hnodup
    refine hnodup.imp_of_mem fun hk hl hne => ?_
    rw [← Bool.not_eq_true, (hall _ hk).sameKey_iff (hall _ hl)]
    exact hne
  have hself := hall _ (List.mem_map_of_mem hf)
  have hat : (mapping others).at? f.1 = some f.2 :=
    (at?_eq_some_iff hdistinct).2 ⟨f.1, (hself.sameKey_iff hself).2 rfl, hf⟩
  rw [field?, hat, Option.some_or]

/-- **Every instance of a well-formed description conforms with it.** -/
theorem conforms {d v : Value} (h : d.IsInstance v) (wellFormed : d.IsWellFormed)
    (keys : d.AllKeys IsTextOrInt) : Conforms d v := by
  induction d using descriptionInduction generalizing v with
  | leaf leaf hleaf =>
    rw [conforms_leaf_iff hleaf]
    cases h with
    | primitive hform hv =>
      refine (accepts_iff rfl _ "").2 (TypeExpr.findings_eq_nil_iff.2 ?_)
      exact .inr (.inl ⟨_, hform, hv⟩)
    | pairs hform hk hv =>
      refine (accepts_iff rfl _ "").2 (TypeExpr.findings_eq_nil_iff.2 ?_)
      exact .inr (.inr ⟨_, _, _, hform, rfl, List.forall_mem_singleton.2 ⟨hk, hv⟩⟩)
    | collection _ | fields _ _ _ => exact absurd rfl (hleaf _)
  | mapping entries ih =>
    rw [IsWellFormed] at wellFormed
    rw [AllKeys] at keys
    cases h with
    | @collection item x hx =>
      have hconforms : Conforms item x :=
        ih _ (.head _) hx (wellFormed.1 _ (.head _)) (keys _ (.head _)).2
      refine (conforms_wildcard_iff rfl _).2 ⟨List.forall_mem_singleton.2 rfl, _, rfl, ?_⟩
      exact List.forall_mem_singleton.2 hconforms
    | @fields _ others hno hkeys hvalues =>
      -- A lone wildcard is read to a collection, so that there are no fields.
      obtain ⟨hvalue, ⟨item, rfl⟩ | ⟨-, hnodup⟩⟩ := wellFormed
      · cases (isWildcard_text_iff.2 rfl).symm.trans (hno _ (.head _))
      have hnone : entry? (text wildcard) entries = none := Assoc.find?_eq_none_of_forall hno
      have hbeside : ∀ e ∈ entries, ∃ f ∈ others, e.1.addressed = f.1 ∧ e.2.IsInstance f.2 :=
        exists_mem_of_forall₂ (forall₂_of_map_eq hkeys hvalues)
      refine (conforms_fields_iff hnone _).2 ⟨rfl, fun e he => ?_⟩
      obtain ⟨f, hf, hkey, hinstance⟩ := hbeside e he
      refine .inl ⟨f.2, ?_, ih e he hinstance (hvalue e he) (keys e he).2⟩
      rw [hkey]
      exact field?_eq_some hkeys (fun e he => (keys e he).1) hnodup hf

end IsInstance

end Value

/-! ## Checks -/

namespace Matcher

/-- **A well-formed description is satisfied by its instances.** It makes a matcher and has an
instance, and the matcher holds every instance for matching and has no errors to tell afterwards,
whatever steps it has taken before. -/
theorem holds_instance {entries : List (Value × Value)}
    (wellFormed : (Value.mapping entries).IsWellFormed)
    (keys : (Value.mapping entries).AllKeys Value.IsTextOrInt)
    (short : (Value.mapping entries).AllKeys fun key => key.addressed.IsLegible) :
    ∃ m, ofDescription (.mapping entries) = .ok m ∧
      (∃ data, (Value.mapping entries).IsInstance data) ∧
      ∀ data, (Value.mapping entries).IsInstance data → ∀ steps,
        (((Session.start m).after steps).step (.holds data)).1 = .flag true ∧
          (((Session.start m).after steps).step (.holds data)).2.report = .empty := by
  have hshown : (Value.mapping entries).AllKeys fun key => ∃ name, key.shown = .ok name :=
    keys.imp₂ short fun key hkey hlegible => hkey.exists_shown_iff.2 fun n hn => by
      rw [hn] at hlegible
      exact hlegible
  obtain ⟨root, hroot⟩ := Schema.exists_ofDescription wellFormed.hasTextLeaves hshown
  have built := ofDescription_eq_ok hroot
  refine ⟨_, built, wellFormed.exists_isInstance, fun data hdata steps => ?_⟩
  have hshort : (Value.mapping entries).HasShortNumerals := short.imp fun key hkey s hs => by
    rw [hs] at hkey
    exact hkey
  obtain ⟨r, hr, hvalid⟩ := isValid_check_iff_conforms built hshort data
  obtain rfl := Report.isValid_iff.1 (hvalid.2 (.inr (hdata.conforms wellFormed keys)))
  obtain ⟨hanswer, hkeeps⟩ := (Session.keeps_after ⟨entries, root⟩ steps).step (.holds data)
  rw [hanswer, hkeeps.report_eq]
  refine ⟨?_, ?_⟩
  · simp only [answer, hr]
    rfl
  · show reportOn _ data = .empty
    rw [reportOn, hr]

/-- Spellings of one number as different keys, beside rows that may be left out. -/
def spelledOnes : List (Value × Value) :=
  [(.int 1, .text "integer"), (.text "1", .text "?string"), (.text "?01", .text "boolean"),
    (.text "?rows", .mapping [(.text "*", .text "string => integer")])]

/-- Each of the spellings finds its own value, after a check of other data. -/
theorem holds_spelledOnes :
    (Value.mapping spelledOnes).IsWellFormed ∧
      (Value.mapping spelledOnes).AllKeys Value.IsTextOrInt ∧
      (Value.mapping spelledOnes).AllKeys (fun key => key.addressed.IsLegible) ∧
      ∃ m, ofDescription (.mapping spelledOnes) = .ok m ∧
        (((Session.start m).after [.check .null]).step (.holds (.mapping
          [(.int 1, .int 5), (.text "1", .text "x"), (.text "01", .bool true),
            (.text "rows", .list [.mapping [(.text "a", .int 7)]])]))).1 = .flag true := by
  have wellFormed : (Value.mapping spelledOnes).IsWellFormed := by
    have haddressed : (spelledOnes.map fun e => e.1.addressed)
        = [.int 1, .text "1", .text "01", .text "rows"] := rfl
    rw [Value.IsWellFormed, haddressed]
    refine ⟨?_, .inr ⟨by decide, by simp⟩⟩
    simp only [Value.IsWellFormed, spelledOnes, List.forall_mem_cons]
    exact ⟨nofun, nofun, nofun, ⟨⟨nofun, List.forall_mem_nil _⟩, .inl ⟨_, rfl⟩⟩,
      List.forall_mem_nil _⟩
  have keys : (Value.mapping spelledOnes).AllKeys Value.IsTextOrInt := by
    simp only [Value.AllKeys, spelledOnes, List.forall_mem_cons]
    exact ⟨⟨.inr ⟨_, rfl⟩, trivial⟩, ⟨.inl ⟨_, rfl⟩, trivial⟩, ⟨.inl ⟨_, rfl⟩, trivial⟩,
      ⟨.inl ⟨_, rfl⟩, ⟨.inl ⟨_, rfl⟩, trivial⟩, List.forall_mem_nil _⟩, List.forall_mem_nil _⟩
  have short : (Value.mapping spelledOnes).AllKeys fun key => key.addressed.IsLegible := by
    simp only [Value.AllKeys, spelledOnes, List.forall_mem_cons]
    have hone : (decimalDigits 1).length ≤ digitLimit := by decide
    exact ⟨⟨hone, trivial⟩, ⟨fun _ => by decide, trivial⟩, ⟨fun _ => by decide, trivial⟩,
      ⟨fun _ => by decide, ⟨fun _ => by decide, trivial⟩, List.forall_mem_nil _⟩,
      List.forall_mem_nil _⟩
  obtain ⟨m, hm, -, hholds⟩ := holds_instance wellFormed keys short
  refine ⟨wellFormed, keys, short, m, hm, (hholds _ ?_ [.check .null]).1⟩
  have hrows : (Value.mapping [(.text "*", .text "string => integer")]).IsInstance
      (.list [.mapping [(.text "a", .int 7)]]) :=
    .collection (.pairs rfl rfl rfl)
  exact .fields (by decide) rfl (.cons (.primitive rfl rfl) (.cons (.primitive rfl rfl)
    (.cons (.primitive rfl rfl) (.cons hrows .nil))))

end Matcher

end TreeSchema
