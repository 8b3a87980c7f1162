import Mathlib.Data.List.Perm.Basic
import TreeSchema.Proofs.ByPosition
import TreeSchema.Proofs.DistinctKeys
import TreeSchema.Proofs.Literal

/-!
# The order of entries

A mapping keeps the order of its entries, but nothing depends on it except the order in which
disagreements are told. If entries of mappings are put in another order, in the description, in the
data or in both and at any depth, a check tells of the same kinds at the same paths
(`Matcher.check_tells_of_reordered`). Of two findings of one kind at one path the first one gives
the message, so messages may change.

The two walks visit fields and elements in unrelated orders. They are compared on the pairs of path
and kind that they find, which the second walk finds as often as the first one, in another order
(`Schema.Reordered.perm_marks`). What carries this is that the keys of a mapping differ, so that a
look-up finds the same wherever an entry stands (`Value.Reordered.rel_at?`). Without that the first
of two entries with one key would be found, and which of them is the first is a matter of order.

The order of a description comes into the schema in three places. Fields stand in it as the entries
do. The siblings of a collection are told in their order, but whether there are any is all that
counts. And a leaf that is no text has its literal for a text, where a mapping inside of it shows
its entries in order; such a leaf has no known type in either order, with texts and faults that may
differ. So the relation between the two schemas (`Schema.Reordered`) says no more of siblings than
whether there are any, and nothing of the texts of such leaves.

That reading takes a description in another order to a schema in another order, and does not fail
where it did not before, is a part of the statement (`Schema.exists_reordered_of_ofDescription`):
what can be refused is a long integer, and these are the same in any order.
-/

namespace TreeSchema

/-- Lists that are made of parts are permutations of each other if the parts are, one by one and
then in another order. -/
theorem perm_flatMap_of_forall₂ {α β γ : Type} {R : α → β → Prop} {f : α → List γ} {g : β → List γ}
    {as : List α} {middle bs : List β} (h : List.Forall₂ R as middle) (hperm : middle.Perm bs)
    (hfg : ∀ a ∈ as, ∀ b, R a b → (f a).Perm (g b)) : (as.flatMap f).Perm (bs.flatMap g) := by
  have hparts : (as.flatMap f).Perm (middle.flatMap g) := by
    clear hperm
    induction h with
    | nil => exact .refl _
    | cons hab _ ih =>
      rw [List.flatMap_cons, List.flatMap_cons]
      exact (hfg _ (.head _) _ hab).append (ih fun a ha => hfg a (.tail _ ha))
  exact hparts.trans (hperm.flatMap_right g)

/-! ## Values with their entries in another order

Entries are related one by one to those of a mapping in between, with the same keys in the same
order, and this is then permuted. So the inductions have the parts to themselves, and what a
permutation does is asked only about one mapping at a time. -/

namespace Value

/-- **Data with entries in another order**: the second value is the first one with the entries of
some of its mappings, at any depth, permuted. -/
inductive Reordered : Value → Value → Prop
  | refl (v : Value) : Reordered v v
  | list {items others : List Value} : List.Forall₂ Reordered items others →
      Reordered (.list items) (.list others)
  | tuple {items others : List Value} : List.Forall₂ Reordered items others →
      Reordered (.tuple items) (.tuple others)
  | mapping {entries middle others : List (Value × Value)} :
      entries.map Prod.fst = middle.map Prod.fst →
      List.Forall₂ Reordered (entries.map Prod.snd) (middle.map Prod.snd) →
      middle.Perm others → Reordered (.mapping entries) (.mapping others)

/-- A mapping of one entry is in the same order. -/
theorem Reordered.single (k : Value) {v v' : Value} (h : v.Reordered v') :
    (Value.mapping [(k, v)]).Reordered (.mapping [(k, v')]) :=
  have hvalues : List.Forall₂ Reordered [v] [v'] := .cons h .nil
  @mapping _ [(k, v')] _ rfl hvalues (.refl _)

/-- Two entries may be turned round. -/
theorem Reordered.swap (k l : Value) {v v' w w' : Value} (hv : v.Reordered v')
    (hw : w.Reordered w') :
    (Value.mapping [(k, v), (l, w)]).Reordered (.mapping [(l, w'), (k, v')]) :=
  have hvalues : List.Forall₂ Reordered [v, w] [v', w'] := .cons hv (.cons hw .nil)
  @mapping _ [(k, v'), (l, w')] _ rfl hvalues (.swap _ _ _)

/-- The entries of a mapping and those of the reordered one, under the same keys. -/
theorem Reordered.entries {entries : List (Value × Value)} {b : Value}
    (h : (Value.mapping entries).Reordered b) : ∃ middle others, b = .mapping others ∧
      List.Forall₂ (fun e f => e.1 = f.1 ∧ e.2.Reordered f.2) entries middle ∧
      middle.Perm others := by
  cases h with
  | refl =>
    exact ⟨entries, entries, rfl, List.forall₂_same.2 fun e _ => ⟨rfl, .refl e.2⟩, .refl _⟩
  | mapping hkeys hvalues hperm => exact ⟨_, _, rfl, forall₂_of_map_eq hkeys hvalues, hperm⟩

namespace Reordered

variable {a b : Value}

/-- All mappings have one type. -/
theorem type_eq (h : a.Reordered b) : a.type = b.type := by
  cases h <;> rfl

/-- Two containers have the same pairs, with values one by one reordered and then in another
order. -/
theorem pairs (h : a.Reordered b) :
    a.AlikeNonContainers b ∨ ∃ ps middle qs, a.pairs? = some ps ∧ b.pairs? = some qs ∧
      List.Forall₂ (fun p q => p.1 = q.1 ∧ p.2.Reordered q.2) ps middle ∧ middle.Perm qs := by
  cases h with
  | refl =>
    cases hpairs : a.pairs? with
    | none =>
      have hnot := not_isContainer_of_pairs hpairs
      exact .inl ⟨hnot, hnot, rfl⟩
    | some ps =>
      exact .inr ⟨ps, ps, ps, rfl, rfl, List.forall₂_same.2 fun p _ => ⟨rfl, .refl p.2⟩, .refl _⟩
  | mapping hkeys hvalues hperm =>
    exact .inr ⟨_, _, _, rfl, rfl, forall₂_of_map_eq hkeys hvalues, hperm⟩
  | list hitems | tuple hitems =>
    exact .inr ⟨_, _, _, rfl, rfl, forall₂_zipIdx hitems 0, .refl _⟩

/-- **What stands under a key is reordered**, if there is anything: the keys of a mapping differ, so
an entry is found wherever it stands. -/
theorem rel_at? (h : a.Reordered b) (distinct : a.HasDistinctKeys) (key : Value) :
    Option.Rel Reordered (a.at? key) (b.at? key) := by
  cases h with
  | refl =>
    cases a.at? key with
    | none => exact .none
    | some x => exact .some (.refl x)
  | list hitems => exact rel_at?_list hitems key
  | tuple hitems =>
    rw [at?_tuple, at?_tuple]
    exact rel_at?_list hitems key
  | mapping hkeys hvalues hperm =>
    rw [HasDistinctKeys, hkeys] at distinct
    rw [← at?_perm hperm distinct.1 key]
    exact Assoc.rel_find? (forall₂_of_map_eq hkeys hvalues)

/-- What a field finds is reordered, if it finds anything. -/
theorem rel_field? (h : a.Reordered b) (distinct : a.HasDistinctKeys) (key : Value) :
    Option.Rel Reordered (a.field? key) (b.field? key) :=
  Value.rel_field? (h.rel_at? distinct key) fun other _ => h.rel_at? distinct other

/-- What is no mapping is none in another order. -/
theorem ne_mapping (h : a.Reordered b) (ha : ∀ entries, a ≠ .mapping entries) :
    ∀ entries, b ≠ .mapping entries := by
  cases h with
  | refl => exact ha
  | list _ | tuple _ => exact nofun
  | mapping _ _ _ => exact absurd rfl (ha _)

/-- The integers of a value are there in another order. -/
theorem hasShortIntegers : ∀ {a b : Value}, a.Reordered b → a.HasShortIntegers →
    b.HasShortIntegers
  | _, _, .refl _, ha => ha
  | .list items, _, .list hitems, ha | .tuple items, _, .tuple hitems, ha => by
    rw [HasShortIntegers] at ha ⊢
    exact forall_mem_of_forall₂ hitems fun v hv w hvw => hvw.hasShortIntegers (ha v hv)
  | .mapping entries, _, .mapping hkeys hvalues hperm, ha => by
    rw [HasShortIntegers] at ha ⊢
    have hmiddle := forall_mem_of_forall₂ (forall₂_of_map_eq hkeys hvalues)
      (q := fun f => f.1.HasShortIntegers ∧ f.2.HasShortIntegers) fun e he f hef =>
        ⟨hef.1 ▸ (ha e he).1, hef.2.hasShortIntegers (ha e he).2⟩
    exact fun f hf => hmiddle f (hperm.mem_iff.2 hf)
termination_by a => sizeOf a
decreasing_by
  · exact sizeOf_lt_of_mem_list ‹v ∈ items›
  · exact sizeOf_lt_of_mem_tuple ‹v ∈ items›
  · exact sizeOf_lt_of_mem ‹e ∈ entries›

/-- The keys of a description are there in another order. -/
theorem allKeys {P : Value → Prop} (h : a.Reordered b) (ha : a.AllKeys P) : b.AllKeys P := by
  induction a using descriptionInduction generalizing b with
  | leaf a hleaf =>
    rw [AllKeys]
    · trivial
    · exact h.ne_mapping hleaf
  | mapping entries ih =>
    obtain ⟨middle, others, rfl, hentries, hperm⟩ := h.entries
    rw [AllKeys] at ha ⊢
    have hmiddle : ∀ f ∈ middle, P f.1 ∧ f.2.AllKeys P :=
      forall_mem_of_forall₂ hentries fun e he f hef =>
        ⟨hef.1 ▸ (ha e he).1, ih e he hef.2 (ha e he).2⟩
    exact fun f hf => hmiddle f (hperm.mem_iff.2 hf)

end Reordered

end Value

/-! ## Schemas with their fields in another order

The findings of two schemas are compared without their messages. Where fields are permuted, what
each of them finds is taken along as a whole. -/

/-- **What is told of a finding in any order**: its path and its kind. -/
def Finding.mark (f : Finding) : String × ErrorKind := (f.path, f.kind)

/-- A type expression finds the same in reordered values, with wrong pairs in another order. -/
theorem TypeExpr.perm_findings {a b : Value} (h : a.Reordered b) (e : TypeExpr) (path : String) :
    (e.findings a path).Perm (e.findings b path) := by
  rw [findings, findings, h.type_eq]
  split
  · exact .refl _
  · cases e.form with
    | unknown fault => exact .refl _
    | primitive p =>
      dsimp only
      rw [Finding.notPrimitive_congr h.type_eq]
    | pairs key value =>
      obtain ⟨ha, hb, htype⟩ | ⟨ps, middle, qs, hps, hqs, hvalues, hperm⟩ := h.pairs
      · rw [Value.pairs_of_not_isContainer ha, Value.pairs_of_not_isContainer hb]
        dsimp only
        rw [Finding.notPairs_congr htype]
      · have htypes : ps.map Value.pairTypes = middle.map Value.pairTypes := by
          refine map_eq_map_iff_forall₂.2 (hvalues.imp fun p q hpq => ?_)
          rw [Value.pairTypes, Value.pairTypes, hpq.1, hpq.2.type_eq]
        rw [hps, hqs]
        dsimp only
        rw [map_filter_wrongPairs, map_filter_wrongPairs, htypes]
        exact ((hperm.map _).filter _).map _

namespace Schema

/-- **A schema with fields in another order**: the second schema is the first one with fields, at
any depth, permuted. Leaves whose expressions do not parse may have other texts. -/
inductive Reordered : Schema → Schema → Prop
  | leaf (e : TypeExpr) : Reordered (.leaf e) (.leaf e)
  | unknown {raw raw' : String} {fault fault' : TypeFault} :
      Reordered (.leaf ⟨raw, false, .unknown fault⟩) (.leaf ⟨raw', false, .unknown fault'⟩)
  | collection {siblings siblings' : List String} {item item' : Schema} :
      (siblings = [] ↔ siblings' = []) → Reordered item item' →
      Reordered (.collection siblings item) (.collection siblings' item')
  | fields {fs middle fs' : List (FieldKey × Schema)} :
      fs.map Prod.fst = middle.map Prod.fst →
      List.Forall₂ Reordered (fs.map Prod.snd) (middle.map Prod.snd) → middle.Perm fs' →
      Reordered (.fields fs) (.fields fs')

namespace Reordered

variable {s s' : Schema} {a b : Value}

/-- Where there is no container, reordered schemas find the same. -/
theorem perm_marks_of_alikeNonContainers (hs : ∀ e, s ≠ .leaf e) (hs' : ∀ e, s' ≠ .leaf e)
    (h : a.AlikeNonContainers b) (path : String) :
    ((s.disagreements a path).map Finding.mark).Perm
      ((s'.disagreements b path).map Finding.mark) := by
  obtain ⟨ha, hb, htype⟩ := h
  rw [disagreements_of_not_isContainer hs ha, disagreements_of_not_isContainer hs' hb,
    Finding.notContainer_congr htype]

/-- Two schemas of one field find as much in containers that hold reordered values for it. -/
theorem perm_marks_field {key : FieldKey} {path : String}
    (hvalue : Option.Rel Value.Reordered (a.field? key.key) (b.field? key.key))
    (hnode : ∀ x y, a.field? key.key = some x → x.Reordered y →
      ((s.disagreements x (joinPath path key.name)).map Finding.mark).Perm
        ((s'.disagreements y (joinPath path key.name)).map Finding.mark)) :
    ((fieldDisagreement a path (key, s)).map Finding.mark).Perm
      ((fieldDisagreement b path (key, s')).map Finding.mark) := by
  unfold fieldDisagreement
  dsimp only
  obtain ⟨hx, hy⟩ | ⟨x, y, hx, hy, hxy⟩ := eq_none_or_eq_some_of_rel hvalue
  · rw [hx, hy]
  · rw [hx, hy]
    exact hnode x y hx hxy

/-- **Reordered schemas find as much of every kind at every path** in reordered values. -/
theorem perm_marks (h : s.Reordered s') (hab : a.Reordered b) (distinct : a.HasDistinctKeys)
    (path : String) :
    ((s.disagreements a path).map Finding.mark).Perm
      ((s'.disagreements b path).map Finding.mark) := by
  -- Only marks can be compared, not findings: the message of a mismatch quotes the data, and a
  -- mapping in another order is quoted in another order.
  induction s generalizing s' a b path with
  | leaf e =>
    cases h with
    | leaf =>
      rw [disagreements, disagreements]
      exact (TypeExpr.perm_findings hab e path).map _
    | unknown => exact .refl _
  | collection siblings item ih =>
    cases h with
    | collection hsiblings hitem =>
      obtain halike | ⟨ps, middle, qs, hps, hqs, hvalues, hperm⟩ := hab.pairs
      · exact perm_marks_of_alikeNonContainers (by simp) (by simp) halike path
      · by_cases hnil : siblings = []
        · obtain rfl := hnil
          obtain rfl := hsiblings.1 rfl
          rw [disagreements_collection hps, disagreements_collection hqs, List.map_flatMap,
            List.map_flatMap]
          refine perm_flatMap_of_forall₂ hvalues hperm fun p hp q hpq => ?_
          exact ih hitem hpq.2 (distinct.of_pairs hps p hp) _
        · rw [disagreements_crowded hnil (Value.isContainer_of_pairs hps),
            disagreements_crowded (mt hsiblings.2 hnil) (Value.isContainer_of_pairs hqs)]
  | fields fs ih =>
    cases h with
    | fields hkeys hnodes hperm =>
      obtain halike | ⟨ps, -, qs, hps, hqs, -, -⟩ := hab.pairs
      · exact perm_marks_of_alikeNonContainers (by simp) (by simp) halike path
      · rw [disagreements_fields (Value.isContainer_of_pairs hps),
          disagreements_fields (Value.isContainer_of_pairs hqs), List.map_flatMap,
          List.map_flatMap]
        -- Where a key is found does not depend on the order, since the keys of the data differ.
        have hfields := forall₂_of_map_eq hkeys hnodes
        refine perm_flatMap_of_forall₂ hfields hperm fun f hf g hfg => ?_
        obtain ⟨key, s⟩ := f
        obtain ⟨key', s'⟩ := g
        obtain ⟨rfl, hnode⟩ := hfg
        exact perm_marks_field (hab.rel_field? distinct key.key) fun x y hx hxy =>
          ih (key, s) hf hnode hxy (distinct.of_field? hx) _

end Reordered

/-! ## Reading

The induction is on the description. Its leaves and its mappings are read as before; what is new is
that the parts come in another order. -/

/-- Keys beside a wildcard can be written down in any order, and there are none if there were
none. -/
theorem exists_siblingTexts_of_perm {entries others : List (Value × Value)} {siblings : List String}
    (hkeys : (entries.map Prod.fst).Perm (others.map Prod.fst))
    (h : siblingTexts entries = .ok siblings) :
    ∃ siblings', siblingTexts others = .ok siblings' ∧ (siblings = [] ↔ siblings' = []) := by
  have hall : ∀ P : Value → Prop, (∀ e ∈ entries, P e.1) ↔ ∀ f ∈ others, P f.1 := by
    intro P
    rw [← List.forall_mem_map (f := Prod.fst), ← List.forall_mem_map (f := Prod.fst)]
    exact forall_congr' fun k => imp_congr_left hkeys.mem_iff
  have htexts := exists_siblingTexts_iff.1 ⟨siblings, h⟩
  obtain ⟨siblings', h'⟩ := exists_siblingTexts_iff.2
    ((hall fun k => isWildcard k = false → ∃ name, k.shown = .ok name).1 htexts)
  refine ⟨siblings', h', ?_⟩
  rw [siblingTexts_eq_nil_iff h, siblingTexts_eq_nil_iff h']
  exact hall fun k => isWildcard k = true

/-- A leaf in another order can be read if the leaf can, and differs in its literal at most. -/
theorem exists_reordered_leaf {leaf leaf' : Value} (h : leaf.Reordered leaf')
    (hleaf : ∀ entries, leaf ≠ .mapping entries) {e : TypeExpr}
    (he : TypeExpr.ofValue leaf = .ok e) :
    ∃ e', TypeExpr.ofValue leaf' = .ok e' ∧ Reordered (.leaf e) (.leaf e') := by
  have hliteral : (∃ raw, leaf.literal = .ok raw) → ∃ raw, leaf'.literal = .ok raw := by
    rw [Value.exists_literal_iff, Value.exists_literal_iff]
    exact h.hasShortIntegers
  cases h with
  | refl => exact ⟨e, he, .leaf e⟩
  | list _ | tuple _ =>
    obtain ⟨raw, hraw, he⟩ := bind_eq_ok_iff.1 he
    obtain ⟨raw', hraw'⟩ := hliteral ⟨raw, hraw⟩
    cases he
    exact ⟨_, bind_eq_ok_iff.2 ⟨raw', hraw', rfl⟩, .unknown⟩
  | mapping _ _ _ => exact absurd rfl (hleaf _)

/-- Entries in another order are read to the fields in another order. -/
theorem exists_reordered_fields {entries middle others : List (Value × Value)}
    {fs : List (FieldKey × Schema)}
    (hfs : List.Forall₂ (fun e f => FieldKey.ofValue e.1 = .ok f.1 ∧ ofDescription e.2 = .ok f.2)
      entries fs)
    (hentries : List.Forall₂ (fun e f => e.1 = f.1 ∧ e.2.Reordered f.2) entries middle)
    (hperm : middle.Perm others)
    (hnode : ∀ e ∈ entries, ∀ v s, ofDescription e.2 = .ok s → e.2.Reordered v →
      ∃ s', ofDescription v = .ok s' ∧ s.Reordered s') :
    ∃ fs', List.Forall₂
        (fun e f => FieldKey.ofValue e.1 = .ok f.1 ∧ ofDescription e.2 = .ok f.2) others fs' ∧
      Reordered (.fields fs) (.fields fs') := by
  -- The entries are first reordered inside, each one in its place, and then among each other.
  have hmiddle : ∃ gs, List.Forall₂
        (fun e f => FieldKey.ofValue e.1 = .ok f.1 ∧ ofDescription e.2 = .ok f.2) middle gs ∧
      fs.map Prod.fst = gs.map Prod.fst ∧
      List.Forall₂ Reordered (fs.map Prod.snd) (gs.map Prod.snd) := by
    clear hperm
    induction hfs generalizing middle with
    | nil =>
      cases hentries
      exact ⟨[], .nil, rfl, .nil⟩
    | cons hf _ ih =>
      cases hentries with
      | cons hef hrest =>
        obtain ⟨gs, hgs, hkeys, hnodes⟩ := ih hrest fun e he => hnode e (.tail _ he)
        obtain ⟨s', hs', hreordered⟩ := hnode _ (.head _) _ _ hf.2 hef.2
        exact ⟨(_, s') :: gs, .cons ⟨hef.1 ▸ hf.1, hs'⟩ hgs, congrArg (_ :: ·) hkeys,
          .cons hreordered hnodes⟩
  obtain ⟨gs, hgs, hkeys, hnodes⟩ := hmiddle
  obtain ⟨fs', hfs', hperm'⟩ := List.perm_comp_forall₂ hperm.symm hgs
  exact ⟨fs', hfs', .fields hkeys hnodes hperm'.symm⟩

/-- **A description with entries in another order** is read to the schema with fields in another
order. -/
theorem exists_reordered_of_ofDescription {d d' : Value} {s : Schema}
    (hread : ofDescription d = .ok s) (h : d.Reordered d') (distinct : d.HasDistinctKeys) :
    ∃ s', ofDescription d' = .ok s' ∧ s.Reordered s' := by
  induction d using Value.descriptionInduction generalizing d' s with
  | leaf leaf hleaf =>
    obtain ⟨e, he, rfl⟩ := ofDescription_leaf hleaf hread
    obtain ⟨e', he', hreordered⟩ := exists_reordered_leaf h hleaf he
    exact ⟨_, ofDescription_of_ofValue (h.ne_mapping hleaf) he', hreordered⟩
  | mapping entries ih =>
    have hentry : Option.Rel Value.Reordered (Value.entry? (.text wildcard) entries) _ :=
      h.rel_at? distinct (.text wildcard)
    obtain ⟨middle, others, rfl, hentries, hperm⟩ := h.entries
    rw [Value.HasDistinctKeys] at distinct
    obtain ⟨item, node, siblings, hitem, hnode, hsiblings, rfl⟩ | ⟨hnone, fs, hfs, rfl⟩ :=
      ofDescription_mapping hread
    · obtain ⟨key, -, hmem⟩ := Assoc.mem_of_find? hitem
      obtain ⟨hno, -⟩ | ⟨x, item', hx, hitem', hreordered⟩ := eq_none_or_eq_some_of_rel hentry
      · cases hitem.symm.trans hno
      · cases hitem.symm.trans hx
        obtain ⟨node', hnode', hsame⟩ := ih _ hmem hnode hreordered (distinct.2 _ hmem)
        -- The keys beside the wildcard are the same, so it is alone in both or in neither.
        have hkeys : (entries.map Prod.fst).Perm (others.map Prod.fst) := by
          rw [map_eq_map_iff_forall₂.2 (hentries.imp fun _ _ h => h.1)]
          exact hperm.map _
        obtain ⟨siblings', hsiblings', hempty⟩ := exists_siblingTexts_of_perm hkeys hsiblings
        exact ⟨_, ofDescription_of_entry hitem' hnode' hsiblings', .collection hempty hsame⟩
    · obtain ⟨-, hno⟩ | ⟨x, -, hx, -⟩ := eq_none_or_eq_some_of_rel hentry
      · obtain ⟨fs', hfs', hreordered⟩ := exists_reordered_fields hfs hentries hperm
          fun e he v s hs hv => ih e he hs hv (distinct.2 e he)
        exact ⟨_, ofDescription_of_entry_none hno hfs', hreordered⟩
      · cases hnone.symm.trans hx

end Schema

/-! ## Checks

A report tells of a kind at a path if there is a finding of it, and a permutation has the same
findings. -/

namespace Matcher

/-- A description in another order makes the matcher of the schema in another order. -/
theorem exists_reordered {description description' : Value} {m : Matcher}
    (built : ofDescription description = .ok m) (distinct : description.HasDistinctKeys)
    (h : description.Reordered description') :
    ∃ m', ofDescription description' = .ok m' ∧ m.isEmpty = m'.isEmpty ∧
      m.root.Reordered m'.root := by
  cases description with
  | null =>
    cases h
    refine ⟨m, built, rfl, ?_⟩
    cases built
    exact .fields rfl .nil (.refl _)
  | mapping entries =>
    obtain ⟨hentries, hroot⟩ := ofDescription_mapping built
    obtain ⟨root', hroot', hreordered⟩ := Schema.exists_reordered_of_ofDescription hroot h distinct
    obtain ⟨middle, others, rfl, hmiddle, hperm⟩ := h.entries
    refine ⟨⟨others, root'⟩, ofDescription_eq_ok hroot', ?_, hreordered⟩
    rw [isEmpty, isEmpty, hentries, Bool.eq_iff_iff, List.isEmpty_iff_length_eq_zero,
      List.isEmpty_iff_length_eq_zero, hmiddle.length_eq, hperm.length_eq]
  | _ => cases built

/-- **The order of entries does not matter to a check.** With the entries of mappings in another
order, in the description, in the data or in both and at any depth, a matcher can be made as well,
the data is as valid as it was, and the report tells of the same kinds at the same paths. -/
theorem check_tells_of_reordered {description description' : Value} {m : Matcher}
    (built : ofDescription description = .ok m) (short : description.HasShortNumerals)
    (distinct : description.HasDistinctKeys) (h : description.Reordered description')
    {a b : Value} (distinctData : a.HasDistinctKeys) (hab : a.Reordered b) :
    ∃ m' r r', ofDescription description' = .ok m' ∧ m.check a = .ok r ∧ m'.check b = .ok r' ∧
      r.isValid = r'.isValid ∧ ∀ path kind,
        (∃ message, r.Tells path kind message) ↔ ∃ message, r'.Tells path kind message := by
  obtain ⟨m', built', hempty, hroot⟩ := exists_reordered built distinct h
  refine ⟨m', _, _, built', check_eq_of_ofDescription built short a,
    check_eq_of_ofDescription built' (h.allKeys short) b, ?_⟩
  rw [← hempty]
  cases m.isEmpty with
  | true => exact ⟨rfl, fun _ _ => .rfl⟩
  | false =>
    have hmarks := hroot.perm_marks hab distinctData ""
    refine ⟨?_, fun path kind => ?_⟩
    · rw [if_neg Bool.false_ne_true, if_neg Bool.false_ne_true, Bool.eq_iff_iff,
        Report.isValid_ofFindings_iff, Report.isValid_ofFindings_iff, ← List.length_eq_zero_iff,
        ← List.length_eq_zero_iff, ← List.length_map Finding.mark, hmarks.length_eq,
        List.length_map]
    · have htells : ∀ fs : List Finding,
          (∃ f ∈ fs, f.path = path ∧ f.kind = kind) ↔ (path, kind) ∈ fs.map Finding.mark := by
        simp [Finding.mark, Prod.ext_iff]
      rw [if_neg Bool.false_ne_true, if_neg Bool.false_ne_true,
        Report.exists_tells_ofFindings_iff, Report.exists_tells_ofFindings_iff, htells, htells,
        hmarks.mem_iff]

/-- Rows of a name and an amount. -/
def namedAmounts : Matcher where
  description := [(.text "id", .text "integer"),
    (.text "rows", .mapping [(.text "*",
      .mapping [(.text "name", .text "string"), (.text "?amount", .text "double")])])]
  root := .fields [(⟨"id", false, .text "id"⟩, .leaf (.ofText "integer")),
    (⟨"rows", false, .text "rows"⟩, .collection [] (.fields
      [(⟨"name", false, .text "name"⟩, .leaf (.ofText "string")),
        (⟨"amount", true, .text "amount"⟩, .leaf (.ofText "double"))]))]

/-- Fields and entries turned round, in rows as well as around them: a missing name and a wrong
amount are told of at the same paths. -/
theorem check_tells_namedAmounts :
    ofDescription (.mapping namedAmounts.description) = .ok namedAmounts ∧
      ∃ m' r r', ofDescription (.mapping [(.text "rows", .mapping [(.text "*",
          .mapping [(.text "?amount", .text "double"), (.text "name", .text "string")])]),
          (.text "id", .text "integer")]) = .ok m' ∧
        namedAmounts.check (.mapping [(.text "rows", .list [.mapping [(.text "sum", .int 1),
          (.text "amount", .text "x")]]), (.text "id", .int 3)]) = .ok r ∧
        m'.check (.mapping [(.text "id", .int 3), (.text "rows", .list [.mapping
          [(.text "amount", .text "x"), (.text "sum", .int 1)]])]) = .ok r' ∧
        r.isValid = false ∧ r'.isValid = false ∧
        ∀ path kind, (∃ message, r.Tells path kind message) ↔
          ∃ message, r'.Tells path kind message := by
  have built : ofDescription (.mapping namedAmounts.description) = .ok namedAmounts := rfl
  have short : (Value.mapping namedAmounts.description).HasShortNumerals := by
    simp only [Value.HasShortNumerals, Value.AllKeys, namedAmounts, List.forall_mem_cons]
    refine ⟨⟨Value.isShortKey_text (by decide), trivial⟩, ⟨Value.isShortKey_text (by decide),
      ⟨Value.isShortKey_text (by decide), ⟨Value.isShortKey_text (by decide), trivial⟩,
        ⟨Value.isShortKey_text (by decide), trivial⟩, List.forall_mem_nil _⟩,
      List.forall_mem_nil _⟩, List.forall_mem_nil _⟩
  have distinct : (Value.mapping namedAmounts.description).HasDistinctKeys := by
    simp only [Value.HasDistinctKeys, namedAmounts, List.forall_mem_cons]
    exact ⟨by decide, trivial, ⟨by decide, ⟨by decide, trivial, trivial, List.forall_mem_nil _⟩,
      List.forall_mem_nil _⟩, List.forall_mem_nil _⟩
  have distinctData : Value.HasDistinctKeys
      (.mapping [(.text "rows", .list [.mapping [(.text "sum", .int 1),
        (.text "amount", .text "x")]]), (.text "id", .int 3)]) := by
    simp only [Value.HasDistinctKeys, List.forall_mem_cons]
    exact ⟨by decide, ⟨⟨by decide, trivial, trivial, List.forall_mem_nil _⟩,
      List.forall_mem_nil _⟩, trivial, List.forall_mem_nil _⟩
  obtain ⟨m', r, r', built', hr, hr', hvalid, htells⟩ :=
    check_tells_of_reordered built short distinct
      (.swap _ _ (.refl _) (.single _ (.swap _ _ (.refl _) (.refl _)))) distinctData
      (.swap _ _ (.list (.cons (.swap _ _ (.refl _) (.refl _)) .nil)) (.refl _))
  refine ⟨built, m', r, r', built', hr, hr', ?_, ?_, htells⟩
  · cases hr
    rfl
  · rw [← hvalid]
    cases hr
    rfl

end Matcher

end TreeSchema
