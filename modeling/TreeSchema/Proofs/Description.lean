import Mathlib.Data.List.Forall2
import TreeSchema.Matcher
import TreeSchema.Proofs.Refusal

/-!
# What a description is read to

Reading follows the description: a mapping with the wildcard gives a collection, any other mapping
gives fields, one for each entry, and the rest are leaves. `Schema.ofDescription_mapping` inverts
the reading of a mapping, so that proofs by induction on a description need not open it.

A description is a value as any other, and what is asked of it is asked of its keys and of its
leaves, at every level: that the keys can be shown, that none of them is a long numeral, that the
leaves are texts. All of these are `Value.AllKeys` of some property, or `Value.HasTextLeaves`. What
a property of the keys in a description comes to in the schema is one statement
(`Schema.allKeys_of_ofDescription`), whatever the property is.

The last part puts reading and matching together. A matcher that was made of a description checks a
value by its schema, so a check ends as matching does (`Matcher.ends_check`), and where no key of
the description is a long numeral it ends with the report of the disagreements (`Matcher.check_eq`).
Statements about two descriptions, or about a description and a value, start from there.

In front are the facts on sequences of computations that reading is taken apart with. A list that is
read element by element gives a list that is related to it element by element (`mapM_eq_ok_iff`),
and it is this relation between the entries of a mapping and the fields of the schema that the
inductions use, not the reading.
-/

namespace TreeSchema

/-- A sequence of two steps succeeds if the first one does, and the second one on its result. -/
theorem bind_eq_ok_iff {ε α β : Type} {x : Except ε α} {f : α → Except ε β} {b : β} :
    x >>= f = .ok b ↔ ∃ a, x = .ok a ∧ f a = .ok b := by
  cases x with
  | error e => exact iff_of_false nofun (by rintro ⟨_, ⟨⟩, -⟩)
  | ok a =>
    constructor
    · exact fun h => ⟨a, rfl, h⟩
    · rintro ⟨_, ⟨⟩, h⟩
      exact h

/-- A sequence of two steps fails in one of them. -/
theorem bind_eq_error_iff {ε α β : Type} {x : Except ε α} {f : α → Except ε β} {e : ε} :
    x >>= f = .error e ↔ x = .error e ∨ ∃ a, x = .ok a ∧ f a = .error e := by
  cases x with
  | error e' =>
    constructor
    · rintro ⟨⟩
      exact .inl rfl
    · rintro (⟨⟨⟩⟩ | ⟨_, ⟨⟩, -⟩)
      rfl
  | ok a =>
    constructor
    · exact fun h => .inr ⟨a, rfl, h⟩
    · rintro (⟨⟨⟩⟩ | ⟨_, ⟨⟩, h⟩)
      exact h

/-- What related elements of one list give holds throughout the other one. -/
theorem forall_mem_of_forall₂ {α β : Type} {R : α → β → Prop} {q : β → Prop} {as : List α}
    {bs : List β} (h : List.Forall₂ R as bs) (hq : ∀ a ∈ as, ∀ b, R a b → q b) : ∀ b ∈ bs, q b := by
  induction h with
  | nil => exact List.forall_mem_nil q
  | cons hab _ ih =>
    exact List.forall_mem_cons.2 ⟨hq _ (.head _) _ hab, ih fun a ha => hq a (.tail _ ha)⟩

/-- Every element of a list is related to one of the other list. -/
theorem exists_mem_of_forall₂ {α β : Type} {R : α → β → Prop} {as : List α} {bs : List β}
    (h : List.Forall₂ R as bs) : ∀ a ∈ as, ∃ b ∈ bs, R a b :=
  forall_mem_of_forall₂ h.flip fun b hb _ hab => ⟨b, hb, hab⟩

/-- If every element of a list is related to something, the list is related to some list. -/
theorem exists_forall₂ {α β : Type} {R : α → β → Prop} {as : List α}
    (h : ∀ a ∈ as, ∃ b, R a b) : ∃ bs, List.Forall₂ R as bs := by
  induction as with
  | nil => exact ⟨[], .nil⟩
  | cons a as ih =>
    obtain ⟨⟨b, hab⟩, hrest⟩ := List.forall_mem_cons.1 h
    obtain ⟨bs, hbs⟩ := ih hrest
    exact ⟨b :: bs, .cons hab hbs⟩

/-- Two lists agree throughout if related elements do. -/
theorem forall_mem_iff_of_forall₂ {α β : Type} {R : α → β → Prop} {p : α → Prop} {q : β → Prop}
    {as : List α} {bs : List β} (h : List.Forall₂ R as bs)
    (hpq : ∀ a ∈ as, ∀ b, R a b → (p a ↔ q b)) : (∀ a ∈ as, p a) ↔ ∀ b ∈ bs, q b := by
  induction h with
  | nil => exact iff_of_true (List.forall_mem_nil p) (List.forall_mem_nil q)
  | cons hab _ ih =>
    rw [List.forall_mem_cons, List.forall_mem_cons, hpq _ (.head _) _ hab,
      ih fun a ha => hpq a (.tail _ ha)]

/-- Something in one list has a property if something in the other one has the related property. -/
theorem exists_mem_iff_of_forall₂ {α β : Type} {R : α → β → Prop} {p : α → Prop} {q : β → Prop}
    {as : List α} {bs : List β} (h : List.Forall₂ R as bs)
    (hpq : ∀ a ∈ as, ∀ b, R a b → (p a ↔ q b)) : (∃ a ∈ as, p a) ↔ ∃ b ∈ bs, q b := by
  have hnone := forall_mem_iff_of_forall₂ h fun a ha b hab => not_congr (hpq a ha b hab)
  simpa using not_congr hnone

/-- What a sequence of computations gives. -/
theorem mapM_eq_ok_iff {ε α β : Type} {f : α → Except ε β} {l : List α} {bs : List β} :
    l.mapM f = .ok bs ↔ List.Forall₂ (fun a b => f a = .ok b) l bs := by
  induction l generalizing bs with
  | nil =>
    rw [List.forall₂_nil_left_iff]
    exact ⟨fun h => (Except.ok.inj h).symm, fun h => by rw [h]; rfl⟩
  | cons a l ih =>
    rw [List.mapM_cons, List.forall₂_cons_left_iff]
    constructor
    · intro h
      obtain ⟨b, hb, h⟩ := bind_eq_ok_iff.1 h
      obtain ⟨bs', hbs, h⟩ := bind_eq_ok_iff.1 h
      exact ⟨b, bs', hb, ih.1 hbs, (Except.ok.inj h).symm⟩
    · rintro ⟨b, bs', hb, hbs, rfl⟩
      rw [hb, ih.2 hbs]
      rfl

/-- A sequence of computations succeeds if each of them does. -/
theorem exists_mapM_eq_ok_iff {ε α β : Type} {f : α → Except ε β} {l : List α} :
    (∃ bs, l.mapM f = .ok bs) ↔ ∀ a ∈ l, ∃ b, f a = .ok b := by
  simp only [mapM_eq_ok_iff]
  constructor
  · rintro ⟨bs, h⟩ a ha
    obtain ⟨b, -, hb⟩ := exists_mem_of_forall₂ h a ha
    exact ⟨b, hb⟩
  · exact exists_forall₂

/-- What gives the results of a sequence of computations, one by one, gives them as a sequence. -/
theorem mapM_eq_ok_mono {ε α β : Type} {f g : α → Except ε β} {l : List α} {bs : List β}
    (hfg : ∀ a ∈ l, ∀ b, f a = .ok b → g a = .ok b) (h : l.mapM f = .ok bs) :
    l.mapM g = .ok bs := by
  rw [mapM_eq_ok_iff] at h ⊢
  induction h with
  | nil => exact .nil
  | cons hab _ ih => exact .cons (hfg _ (.head _) _ hab) (ih fun a ha => hfg a (.tail _ ha))

/-- A sequence of computations fails in the first one of them that does. -/
theorem mapM_eq_error_iff {ε α β : Type} {f : α → Except ε β} {l : List α} {e : ε} :
    l.mapM f = .error e ↔ ∃ front a back, l = front ++ a :: back ∧
      (∀ b ∈ front, ∃ r, f b = .ok r) ∧ f a = .error e := by
  induction l with
  | nil => exact iff_of_false nofun (by rintro ⟨front, a, back, h, -⟩; cases front <;> cases h)
  | cons c l ih =>
    rw [List.mapM_cons, bind_eq_error_iff]
    constructor
    · rintro (h | ⟨r, hr, h⟩)
      · exact ⟨[], c, l, rfl, List.forall_mem_nil _, h⟩
      · obtain h | ⟨_, -, h⟩ := bind_eq_error_iff.1 h
        · obtain ⟨front, a, back, rfl, hfront, ha⟩ := ih.1 h
          exact ⟨c :: front, a, back, rfl, List.forall_mem_cons.2 ⟨⟨r, hr⟩, hfront⟩, ha⟩
        · cases h
    · rintro ⟨front, a, back, h, hfront, ha⟩
      cases front with
      | nil =>
        cases h
        exact .inl ha
      | cons d front =>
        cases h
        obtain ⟨⟨r, hr⟩, hfront⟩ := List.forall_mem_cons.1 hfront
        exact .inr ⟨r, hr, bind_eq_error_iff.2 (.inl (ih.2 ⟨front, a, back, rfl, hfront, ha⟩))⟩

namespace Value

/-- The value of an entry is smaller than the mapping. -/
theorem sizeOf_lt_of_mem {entries : List (Value × Value)} {e : Value × Value} (h : e ∈ entries) :
    sizeOf e.2 < sizeOf (mapping entries) := by
  have hlt := List.sizeOf_lt_of_mem h
  rw [Prod.mk.sizeOf_spec] at hlt
  rw [mapping.sizeOf_spec]
  omega

/-- An item is smaller than the list. -/
theorem sizeOf_lt_of_mem_list {items : List Value} {v : Value} (h : v ∈ items) :
    sizeOf v < sizeOf (list items) := by
  have hlt := List.sizeOf_lt_of_mem h
  rw [list.sizeOf_spec]
  omega

/-- An item is smaller than the tuple. -/
theorem sizeOf_lt_of_mem_tuple {items : List Value} {v : Value} (h : v ∈ items) :
    sizeOf v < sizeOf (tuple items) := by
  have hlt := List.sizeOf_lt_of_mem h
  rw [tuple.sizeOf_spec]
  omega

/-- Induction on a description, with the descriptions in its entries as the smaller ones. -/
@[elab_as_elim]
theorem descriptionInduction {motive : Value → Prop}
    (mapping : ∀ entries, (∀ e ∈ entries, motive e.2) → motive (.mapping entries))
    (leaf : ∀ v, (∀ entries, v ≠ .mapping entries) → motive v) : ∀ v, motive v
  | .mapping entries =>
    mapping entries fun e _he => descriptionInduction mapping leaf e.2
  | .null | .bool _ | .int _ | .real _ | .text _ | .list _ | .tuple _ | .bytes _ | .set _
  | .date _ | .moment _ => leaf _ (by simp)
termination_by v => sizeOf v
decreasing_by exact sizeOf_lt_of_mem _he

/-- **The key that a key of a description addresses**: a text without its mark. -/
def addressed : Value → Value
  | text s => text (splitMark s).2
  | key => key

/-- Whether a key of a description has the mark of an optional field. -/
def isMarked : Value → Bool
  | text s => (splitMark s).1
  | _ => false

/-- **Whether a property holds of every key of a description**, at any level. -/
def AllKeys (P : Value → Prop) : Value → Prop
  | mapping entries => ∀ e ∈ entries, P e.1 ∧ e.2.AllKeys P
  | _ => True
termination_by v => sizeOf v
decreasing_by exact sizeOf_lt_of_mem ‹e ∈ entries›

/-- What follows from two properties of keys holds of every key if they do. -/
theorem AllKeys.imp₂ {P Q R : Value → Prop} {v : Value} (hP : v.AllKeys P) (hQ : v.AllKeys Q)
    (h : ∀ k, P k → Q k → R k) : v.AllKeys R := by
  induction v using descriptionInduction with
  | leaf v hv =>
    rw [AllKeys]
    · trivial
    · exact hv
  | mapping entries ih =>
    rw [AllKeys] at hP hQ ⊢
    exact fun e he => ⟨h _ (hP e he).1 (hQ e he).1, ih e he (hP e he).2 (hQ e he).2⟩

/-- What follows from a property of keys holds of every key if it does. -/
theorem AllKeys.imp {P Q : Value → Prop} {v : Value} (hP : v.AllKeys P) (h : ∀ k, P k → Q k) :
    v.AllKeys Q :=
  hP.imp₂ hP fun k hk _ => h k hk

/-- **Whether all leaves of a description are texts.** -/
def HasTextLeaves : Value → Prop
  | text _ => True
  | mapping entries => ∀ e ∈ entries, e.2.HasTextLeaves
  | _ => False
termination_by v => sizeOf v
decreasing_by exact sizeOf_lt_of_mem ‹e ∈ entries›

/-- A description that is no mapping is a leaf, and its text. -/
theorem HasTextLeaves.exists_text {leaf : Value} (h : leaf.HasTextLeaves)
    (hleaf : ∀ entries, leaf ≠ .mapping entries) : ∃ s, leaf = .text s := by
  cases leaf with
  | text s => exact ⟨s, rfl⟩
  | mapping entries => exact absurd rfl (hleaf entries)
  | _ =>
    rw [HasTextLeaves] at h
    · exact h.elim
    all_goals nofun

/-- Whether a key of a description addresses no decimal text beyond the digit limit. -/
def IsShortKey (key : Value) : Prop :=
  ∀ s, key.addressed = text s → Text.isDecimal s = true → s.toList.length ≤ digitLimit

/-- A text that has other characters than digits is no long numeral. -/
theorem isShortKey_text {s : String} (h : Text.isDecimal (splitMark s).2 = false) :
    (text s).IsShortKey := by
  rintro _ ⟨⟩ hs
  exact absurd hs (ne_true_of_eq_false h)

/-- **Whether no key of a description is a decimal text beyond the digit limit**, at any level. -/
def HasShortNumerals (v : Value) : Prop := v.AllKeys IsShortKey

end Value

/-! ## Keys of fields

A key of a description has a mark in front, or it has none, and what it addresses is the rest of it.
Only a text can have a mark. A key that is no text is shown in full, in the paths of findings, which
is what can be refused. -/

/-- The key of a field is what the key of a description addresses, and a marked one is optional. -/
theorem FieldKey.ofValue_eq_ok {v : Value} {key : FieldKey} (h : FieldKey.ofValue v = .ok key) :
    key.key = v.addressed ∧ key.optional = v.isMarked := by
  cases v with
  | text s =>
    cases h
    exact ⟨rfl, rfl⟩
  | _ =>
    obtain ⟨name, -, hname⟩ := bind_eq_ok_iff.1 h
    cases hname
    exact ⟨rfl, rfl⟩

/-- The key that a text is read to. -/
theorem FieldKey.ofValue_text (s : String) :
    ofValue (.text s) = .ok ⟨(splitMark s).2, (splitMark s).1, .text (splitMark s).2⟩ :=
  rfl

/-- The key of a field can be read if it has a text. -/
theorem FieldKey.exists_ofValue_iff {v : Value} :
    (∃ key, FieldKey.ofValue v = .ok key) ↔ ∃ name, v.shown = .ok name := by
  cases v with
  | text s => exact iff_of_true ⟨_, rfl⟩ ⟨s, rfl⟩
  | _ =>
    constructor
    · rintro ⟨key, hkey⟩
      obtain ⟨name, hname, -⟩ := bind_eq_ok_iff.1 hkey
      exact ⟨name, hname⟩
    · rintro ⟨name, hname⟩
      exact ⟨_, bind_eq_ok_iff.2 ⟨name, hname, rfl⟩⟩

/-- The key of a field that is no long numeral can be spelled: an integer beyond the digit limit
is not read as a key. -/
theorem FieldKey.isLegible_of_ofValue {v : Value} {key : FieldKey}
    (h : FieldKey.ofValue v = .ok key) (hshort : v.IsShortKey) : key.key.IsLegible := by
  rw [(FieldKey.ofValue_eq_ok h).1]
  cases v with
  | text s => exact hshort _ rfl
  | int n =>
    refine Nat.le_of_not_lt fun hlong => ?_
    have hwrite : decimal n = .error .tooLongToWrite := if_pos hlong
    obtain ⟨name, hname, -⟩ := bind_eq_ok_iff.1 h
    cases hwrite.symm.trans hname
  | _ => trivial

/-! ## Mappings

A mapping is asked for the wildcard first. What stands there is found by a look-up, so the wildcard
may be anywhere among the keys, and where there is one the other keys are not read but only shown.
-/

/-- Whether a wildcard has no other keys beside it is told by the texts of these. -/
theorem siblingTexts_eq_nil_iff {entries : List (Value × Value)} {names : List String}
    (h : siblingTexts entries = .ok names) :
    names = [] ↔ ∀ e ∈ entries, isWildcard e.1 = true := by
  have hnone : names = [] ↔ entries.filter (fun e => !isWildcard e.1) = [] := by
    rw [siblingTexts] at h
    cases hrest : entries.filter fun e => !isWildcard e.1 with
    | nil =>
      rw [hrest] at h
      cases h
      exact iff_of_true rfl rfl
    | cons e rest =>
      rw [hrest, List.mapM_cons] at h
      obtain ⟨name, -, h⟩ := bind_eq_ok_iff.1 h
      obtain ⟨names', -, h⟩ := bind_eq_ok_iff.1 h
      cases h
      exact iff_of_false (List.cons_ne_nil _ _) (List.cons_ne_nil _ _)
  rw [hnone, List.filter_eq_nil_iff]
  simp

/-- The keys beside a wildcard are written down if each of them has a text. -/
theorem exists_siblingTexts_iff {entries : List (Value × Value)} :
    (∃ names, siblingTexts entries = .ok names)
      ↔ ∀ e ∈ entries, isWildcard e.1 = false → ∃ name, e.1.shown = .ok name := by
  simp only [siblingTexts, exists_mapM_eq_ok_iff, List.mem_filter, Bool.not_eq_true', and_imp]

namespace Schema

/-- What stands at the wildcard is what a look-up finds there. -/
theorem ofWildcard_eq (entries : List (Value × Value)) :
    ofWildcard entries = match Value.entry? (.text wildcard) entries with
      | some item => some <$> ofDescription item
      | none => .ok none := by
  induction entries with
  | nil => rfl
  | cons e entries ih =>
    obtain ⟨key, v⟩ := e
    rw [ofWildcard, ih, Value.entry?, Value.entry?, Assoc.find?, isWildcard]
    cases (Value.text wildcard).sameKey key <;> rfl

/-- Entries are read to fields one by one. -/
theorem ofEntries_eq_ok_iff {entries : List (Value × Value)} {fs : List (FieldKey × Schema)} :
    ofEntries entries = .ok fs
      ↔ List.Forall₂ (fun e f => FieldKey.ofValue e.1 = .ok f.1 ∧ ofDescription e.2 = .ok f.2)
          entries fs := by
  constructor
  · intro h
    induction entries generalizing fs with
    | nil =>
      cases h
      exact .nil
    | cons e entries ih =>
      rw [ofEntries] at h
      obtain ⟨key, hkey, h⟩ := bind_eq_ok_iff.1 h
      obtain ⟨s, hs, h⟩ := bind_eq_ok_iff.1 h
      obtain ⟨rest, hrest, h⟩ := bind_eq_ok_iff.1 h
      cases h
      exact .cons ⟨hkey, hs⟩ (ih hrest)
  · intro h
    induction h with
    | nil => rfl
    | cons hf _ ih =>
      rw [ofEntries, hf.1, hf.2, ih]
      rfl

/-- **A mapping is read to a collection or to fields**: to a collection of what stands at the
wildcard, with the other keys as its siblings, or where there is no wildcard to a field for each
entry. -/
theorem ofDescription_mapping {entries : List (Value × Value)} {s : Schema}
    (h : ofDescription (.mapping entries) = .ok s) :
    (∃ item node siblings, Value.entry? (.text wildcard) entries = some item ∧
        ofDescription item = .ok node ∧ siblingTexts entries = .ok siblings ∧
        s = .collection siblings node)
      ∨ Value.entry? (.text wildcard) entries = none ∧ ∃ fs,
          List.Forall₂ (fun e f => FieldKey.ofValue e.1 = .ok f.1 ∧ ofDescription e.2 = .ok f.2)
            entries fs ∧ s = .fields fs := by
  rw [ofDescription, ofWildcard_eq] at h
  obtain ⟨found, hfound, h⟩ := bind_eq_ok_iff.1 h
  cases hentry : Value.entry? (.text wildcard) entries with
  | none =>
    rw [hentry] at hfound
    cases hfound
    obtain ⟨fs, hfs, h⟩ := bind_eq_ok_iff.1 h
    cases h
    exact .inr ⟨rfl, fs, ofEntries_eq_ok_iff.1 hfs, rfl⟩
  | some item =>
    rw [hentry] at hfound
    obtain ⟨node, hnode, hsome⟩ := bind_eq_ok_iff.1 hfound
    cases hsome
    obtain ⟨siblings, hsiblings, h⟩ := bind_eq_ok_iff.1 h
    cases h
    exact .inl ⟨item, node, siblings, rfl, hnode, hsiblings, rfl⟩

/-- With the wildcard, a mapping is read to the collection of what stands there. -/
theorem ofDescription_of_entry {entries : List (Value × Value)} {item : Value} {node : Schema}
    {siblings : List String} (h : Value.entry? (.text wildcard) entries = some item)
    (hitem : ofDescription item = .ok node) (hsiblings : siblingTexts entries = .ok siblings) :
    ofDescription (.mapping entries) = .ok (.collection siblings node) := by
  rw [ofDescription, ofWildcard_eq, h]
  dsimp only
  rw [hitem]
  show (do return collection (← siblingTexts entries) node) = _
  rw [hsiblings]
  rfl

/-- Without the wildcard, a mapping is read to the fields of its entries. -/
theorem ofDescription_of_entry_none {entries : List (Value × Value)}
    {fs : List (FieldKey × Schema)} (h : Value.entry? (.text wildcard) entries = none)
    (hfs : List.Forall₂ (fun e f => FieldKey.ofValue e.1 = .ok f.1 ∧ ofDescription e.2 = .ok f.2)
      entries fs) : ofDescription (.mapping entries) = .ok (.fields fs) := by
  rw [ofDescription, ofWildcard_eq, h]
  show (do return fields (← ofEntries entries)) = _
  rw [ofEntries_eq_ok_iff.2 hfs]
  rfl

/-- **A mapping can be read** if its keys have texts and its values can be read. -/
theorem exists_ofDescription_mapping {entries : List (Value × Value)}
    (hkeys : ∀ e ∈ entries, ∃ name, e.1.shown = .ok name)
    (hvalues : ∀ e ∈ entries, ∃ s, ofDescription e.2 = .ok s) :
    ∃ s, ofDescription (.mapping entries) = .ok s := by
  cases hentry : Value.entry? (.text wildcard) entries with
  | some item =>
    obtain ⟨key, -, hmem⟩ := Assoc.mem_of_find? hentry
    obtain ⟨node, hnode⟩ : ∃ node, ofDescription item = .ok node := hvalues _ hmem
    obtain ⟨names, hnames⟩ := exists_siblingTexts_iff.2 fun e he _ => hkeys e he
    exact ⟨_, ofDescription_of_entry hentry hnode hnames⟩
  | none =>
    have hfields : ∀ e ∈ entries, ∃ f : FieldKey × Schema,
        FieldKey.ofValue e.1 = .ok f.1 ∧ ofDescription e.2 = .ok f.2 := by
      intro e he
      obtain ⟨key, hkey⟩ := FieldKey.exists_ofValue_iff.2 (hkeys e he)
      obtain ⟨s, hs⟩ := hvalues e he
      exact ⟨(key, s), hkey, hs⟩
    obtain ⟨fs, hfs⟩ := exists_forall₂ hfields
    exact ⟨_, ofDescription_of_entry_none hentry hfs⟩

/-- **A description whose leaves are texts can be read** if its keys have texts. -/
theorem exists_ofDescription {v : Value} (leaves : v.HasTextLeaves)
    (keys : v.AllKeys fun key => ∃ name, key.shown = .ok name) :
    ∃ s, ofDescription v = .ok s := by
  induction v using Value.descriptionInduction with
  | leaf leaf hleaf =>
    obtain ⟨s, rfl⟩ := leaves.exists_text hleaf
    exact ⟨_, rfl⟩
  | mapping entries ih =>
    rw [Value.HasTextLeaves] at leaves
    rw [Value.AllKeys] at keys
    exact exists_ofDescription_mapping (fun e he => (keys e he).1)
      fun e he => ih e he (leaves e he) (keys e he).2

/-- Whatever is no mapping is read to a leaf. -/
theorem ofDescription_leaf {v : Value} (hv : ∀ entries, v ≠ .mapping entries) {s : Schema}
    (h : ofDescription v = .ok s) : ∃ e, TypeExpr.ofValue v = .ok e ∧ s = .leaf e := by
  cases v with
  | mapping entries => exact absurd rfl (hv entries)
  | _ =>
    rw [ofDescription] at h
    · obtain ⟨e, he, h⟩ := bind_eq_ok_iff.1 h
      cases h
      exact ⟨e, he, rfl⟩
    · exact hv

/-- Whatever is read as a type expression is read to a leaf, if it is no mapping. -/
theorem ofDescription_of_ofValue {v : Value} (hv : ∀ entries, v ≠ .mapping entries) {e : TypeExpr}
    (h : TypeExpr.ofValue v = .ok e) : ofDescription v = .ok (.leaf e) := by
  rw [ofDescription, h]
  · rfl
  · exact hv

/-- A mapping of one entry is read to one field, unless its key is the wildcard. -/
theorem ofDescription_single {k : Value} {key : FieldKey} (hkey : FieldKey.ofValue k = .ok key)
    (hwildcard : isWildcard k = false) (item : Value) :
    ofDescription (.mapping [(k, item)]) = (fun s => fields [(key, s)]) <$> ofDescription item := by
  rw [ofDescription, ofWildcard, hwildcard]
  show (do return fields (← ofEntries [(k, item)])) = _
  rw [ofEntries, hkey, ofEntries]
  cases ofDescription item <;> rfl

/-- **The keys of a schema** have whatever property follows from one of the keys in the
description. -/
theorem allKeys_of_ofDescription {P Q : Value → Prop} {v : Value} {s : Schema}
    (h : ofDescription v = .ok s) (hkeys : v.AllKeys Q)
    (hread : ∀ k key, FieldKey.ofValue k = .ok key → Q k → P key.key) : s.AllKeys P := by
  induction v using Value.descriptionInduction generalizing s with
  | leaf v hv =>
    obtain ⟨e, -, rfl⟩ := ofDescription_leaf hv h
    rw [AllKeys]
    trivial
  | mapping entries ih =>
    rw [Value.AllKeys] at hkeys
    obtain ⟨item, node, siblings, hitem, hnode, -, rfl⟩ | ⟨-, fs, hfs, rfl⟩ :=
      ofDescription_mapping h
    · obtain ⟨key, -, hmem⟩ := Assoc.mem_of_find? hitem
      rw [AllKeys]
      exact ih _ hmem hnode (hkeys _ hmem).2
    · rw [AllKeys]
      refine forall_mem_of_forall₂ hfs fun e he f hf => ?_
      exact ⟨hread _ _ hf.1 (hkeys e he).1, ih e he hf.2 (hkeys e he).2⟩

/-- A description without long numerals is read to a schema whose keys can be spelled. -/
theorem isLegible_of_ofDescription {v : Value} {s : Schema} (h : ofDescription v = .ok s)
    (hshort : v.HasShortNumerals) : s.AllKeys Value.IsLegible :=
  allKeys_of_ofDescription h hshort fun _ _ => FieldKey.isLegible_of_ofValue

end Schema

namespace Matcher

/-- **The matcher of a mapping** keeps it, with the schema that it is read to. -/
theorem ofDescription_mapping {entries : List (Value × Value)} {m : Matcher}
    (h : ofDescription (.mapping entries) = .ok m) :
    m.description = entries ∧ Schema.ofDescription (.mapping entries) = .ok m.root := by
  rw [ofDescription, ofEntries] at h
  cases hroot : Schema.ofDescription (.mapping entries) with
  | error fault =>
    rw [hroot] at h
    cases h
  | ok root =>
    rw [hroot] at h
    cases h
    exact ⟨rfl, rfl⟩

/-- A matcher is made of every mapping that can be read. -/
theorem ofDescription_eq_ok {entries : List (Value × Value)} {root : Schema}
    (h : Schema.ofDescription (.mapping entries) = .ok root) :
    ofDescription (.mapping entries) = .ok ⟨entries, root⟩ := by
  rw [ofDescription, ofEntries, h]
  rfl

/-- What a matcher is made of is read as a mapping: a null is taken for the empty one. -/
theorem exists_mapping_of_ofDescription {description : Value} {m : Matcher}
    (built : ofDescription description = .ok m) :
    ∃ entries, ofDescription (.mapping entries) = .ok m ∧
      ∀ P, description.AllKeys P → (Value.mapping entries).AllKeys P := by
  cases description with
  | mapping entries => exact ⟨entries, built, fun P h => h⟩
  | null =>
    refine ⟨[], built, fun P _ => ?_⟩
    rw [Value.AllKeys]
    exact List.forall_mem_nil _
  | _ => cases built

/-- **The keys of a matcher's schema** have whatever property follows from one of the keys in what
the matcher was made of. -/
theorem allKeys_root {P Q : Value → Prop} {description : Value} {m : Matcher}
    (built : ofDescription description = .ok m) (hkeys : description.AllKeys Q)
    (hread : ∀ k key, FieldKey.ofValue k = .ok key → Q k → P key.key) : m.root.AllKeys P := by
  obtain ⟨entries, hmapping, hall⟩ := exists_mapping_of_ofDescription built
  exact Schema.allKeys_of_ofDescription (ofDescription_mapping hmapping).2 (hall Q hkeys) hread

/-- **How a check ends**: with the report of the disagreements, or refused for a key that matching
stops at. Nothing stops at the empty description, which is not matched at all. -/
theorem ends_check {entries : List (Value × Value)} {m : Matcher}
    (built : ofDescription (.mapping entries) = .ok m) (v : Value) :
    Ends (m.check v) (if m.isEmpty then .empty else .ofFindings (m.root.disagreements v ""))
      (Visit.Stops ⟨m.root, v, ""⟩) := by
  obtain ⟨hentries, hroot⟩ := ofDescription_mapping built
  rw [check]
  cases hempty : m.isEmpty with
  | false => exact (Schema.ends_findings m.root v "").map Report.ofFindings
  | true =>
    -- A schema without any field has no key to stop at.
    rw [isEmpty, hentries, List.isEmpty_iff] at hempty
    subst hempty
    have hfields : Schema.fields [] = m.root := Except.ok.inj hroot
    refine .ok (Schema.not_stops ?_)
    show m.root.AllKeys Value.IsLegible
    rw [← hfields, Schema.AllKeys]
    exact List.forall_mem_nil _

/-- **A check reports the disagreements**, unless the description is empty. -/
theorem check_eq {entries : List (Value × Value)} {m : Matcher}
    (built : ofDescription (.mapping entries) = .ok m)
    (short : (Value.mapping entries).HasShortNumerals) (v : Value) :
    m.check v = .ok (if m.isEmpty then .empty else .ofFindings (m.root.disagreements v "")) := by
  obtain ⟨-, hroot⟩ := ofDescription_mapping built
  exact (ends_check built v).eq_ok
    (Schema.not_stops (Schema.isLegible_of_ofDescription hroot short))

/-- The same holds of whatever a matcher is made of. -/
theorem check_eq_of_ofDescription {description : Value} {m : Matcher}
    (built : ofDescription description = .ok m) (short : description.HasShortNumerals) (v : Value) :
    m.check v = .ok (if m.isEmpty then .empty else .ofFindings (m.root.disagreements v "")) := by
  obtain ⟨entries, hmapping, hall⟩ := exists_mapping_of_ofDescription built
  exact check_eq hmapping (hall _ short) v

end Matcher

end TreeSchema
