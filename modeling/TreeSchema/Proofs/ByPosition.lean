import TreeSchema.Proofs.Agreement

/-!
# Lists as mappings of positions

A list or a tuple is looked at as the mapping of its positions to its items: its pairs are the
entries of this mapping, and a field finds the same in both (`Value.at?_byPosition`). So wherever in
data a list or a tuple is written as such a mapping, a check gives the same report
(`Matcher.check_eq_of_positioned`).

Only texts and integers are keys for which this holds. The truth value `true` is the same key of a
mapping as `1`, but no position of a list.

That the report is the same is an instance of what a check looks at: data with lists written as
mappings agrees on every schema with such keys (`Schema.agree_of_positioned`), and values that agree
get the same report. What is left is to compare look-ups. A list is asked for a position directly,
and a mapping goes through its keys in turn; as the positions are counted up from zero, an integer
finds in the mapping what is that far from the front (`Value.entry?_zipIdx`), and a text finds
nothing in either.

The replacement may be made at any number of places and at any depth at once, so the relation
between the two values is an inductive one. What it says of the parts is carried through look-ups as
`Option.Rel`: two containers hold related values for a key, or neither holds one.
-/

namespace TreeSchema

/-- What is found in two lists of pairs is related if the pairs have the same keys and related
values. -/
theorem Assoc.rel_find? {κ α : Type} {R : α → α → Prop} {same : κ → Bool} {m n : List (κ × α)}
    (h : List.Forall₂ (fun p q => p.1 = q.1 ∧ R p.2 q.2) m n) :
    Option.Rel R (find? same m) (find? same n) := by
  induction h with
  | nil => exact .none
  | cons hpq _ ih =>
    obtain ⟨hkey, hvalue⟩ := hpq
    rw [find?, find?, hkey]
    split
    · exact .some hvalue
    · exact ih

/-- What is at a position of two related lists is related. -/
theorem rel_getElem?_of_forall₂ {α : Type} {R : α → α → Prop} {as bs : List α}
    (h : List.Forall₂ R as bs) (i : Nat) : Option.Rel R as[i]? bs[i]? := by
  induction h generalizing i with
  | nil => exact .none
  | cons hab _ ih =>
    cases i with
    | zero => exact .some hab
    | succ i => exact ih i

/-- There is something in both of two related options, or in neither. -/
theorem eq_none_or_eq_some_of_rel {α : Type} {R : α → α → Prop} {o p : Option α}
    (h : Option.Rel R o p) :
    o = none ∧ p = none ∨ ∃ a b, o = some a ∧ p = some b ∧ R a b := by
  cases h with
  | none => exact .inl ⟨rfl, rfl⟩
  | some hab => exact .inr ⟨_, _, rfl, rfl, hab⟩

/-- The first of two that is there, or the second. -/
theorem rel_or {α : Type} {R : α → α → Prop} {o p o' p' : Option α} (h : Option.Rel R o p)
    (h' : Option.Rel R o' p') : Option.Rel R (o.or o') (p.or p') := by
  cases h with
  | none => exact h'
  | some hab => exact .some hab

/-- Lists are related one by one if one part of their elements is the same and another part is
related. -/
theorem forall₂_of_map_eq {α β γ δ ε : Type} {R : δ → ε → Prop} {f : α → γ} {g : β → γ} {f' : α → δ}
    {g' : β → ε} {as : List α} {bs : List β} (hsame : as.map f = bs.map g)
    (h : List.Forall₂ R (as.map f') (bs.map g')) :
    List.Forall₂ (fun a b => f a = g b ∧ R (f' a) (g' b)) as bs := by
  induction as generalizing bs with
  | nil =>
    cases List.map_eq_nil_iff.1 hsame.symm
    exact .nil
  | cons a as ih =>
    obtain ⟨b, bs, rfl, hhead, hrest⟩ := List.map_eq_cons_iff.1 hsame.symm
    cases h with
    | cons hrelated h => exact .cons ⟨hhead.symm, hrelated⟩ (ih hrest.symm h)

namespace Value

/-- **The mapping of the positions of items to the items.** -/
def byPosition (items : List Value) : Value :=
  .mapping (items.zipIdx.map fun (v, i) => (.int i, v))

/-- **Data with lists written as mappings**: the second value is the first one with some of its
lists and tuples, at any depth, replaced by the mapping of the positions to the items. -/
inductive Positioned : Value → Value → Prop
  | refl (v : Value) : Positioned v v
  | list {items others : List Value} : List.Forall₂ Positioned items others →
      Positioned (.list items) (.list others)
  | tuple {items others : List Value} : List.Forall₂ Positioned items others →
      Positioned (.tuple items) (.tuple others)
  | mapping {entries others : List (Value × Value)} :
      entries.map Prod.fst = others.map Prod.fst →
      List.Forall₂ Positioned (entries.map Prod.snd) (others.map Prod.snd) →
      Positioned (.mapping entries) (.mapping others)
  | listByPosition {items others : List Value} : List.Forall₂ Positioned items others →
      Positioned (.list items) (byPosition others)
  | tupleByPosition {items others : List Value} : List.Forall₂ Positioned items others →
      Positioned (.tuple items) (byPosition others)

/-- Whether a key is a text or an integer. -/
def IsTextOrInt (key : Value) : Prop := (∃ s, key = text s) ∨ ∃ n, key = int n

/-- A text has a text, and an integer has one if it is within the digit limit. -/
theorem IsTextOrInt.exists_shown_iff {key : Value} (h : key.IsTextOrInt) :
    (∃ name, key.shown = .ok name)
      ↔ ∀ n, key = int n → (decimalDigits n.natAbs).length ≤ digitLimit := by
  obtain ⟨s, rfl⟩ | ⟨n, rfl⟩ := h
  · exact iff_of_true ⟨s, rfl⟩ nofun
  · constructor
    · rintro ⟨name, hname⟩ _ ⟨⟩
      refine Nat.le_of_not_lt fun hlong => ?_
      have hwrite : decimal n = .error .tooLongToWrite := if_pos hlong
      cases hwrite.symm.trans hname
    · exact fun hshort => ⟨_, if_neg (Nat.not_lt.2 (hshort n rfl))⟩

/-- The other spelling of a text is an integer, and that of an integer a text. -/
theorem IsTextOrInt.counterpart {key other : Value} (h : key.IsTextOrInt)
    (hother : key.counterpart? = some other) : other.IsTextOrInt := by
  obtain ⟨s, rfl⟩ | ⟨n, rfl⟩ := h
  · rw [counterpart?] at hother
    split at hother <;> cases hother
    exact .inr ⟨_, rfl⟩
  · cases hother
    exact .inl ⟨_, rfl⟩

/-! ## What is found by position

The positions go on from any number in the inductions, and begin with zero in what follows from
them. -/

/-- Related items have the same positions. -/
theorem forall₂_zipIdx {R : Value → Value → Prop} {items others : List Value}
    (h : List.Forall₂ R items others) (start : Nat) :
    List.Forall₂ (fun p q => p.1 = q.1 ∧ R p.2 q.2)
      ((items.zipIdx start).map fun (v, j) => (int j, v))
      ((others.zipIdx start).map fun (v, j) => (int j, v)) := by
  induction h generalizing start with
  | nil => exact .nil
  | cons hvalue _ ih => exact .cons ⟨rfl, hvalue⟩ (ih (start + 1))

/-- An integer finds the item that is as far behind the first position. -/
theorem entry?_zipIdx (items : List Value) (start : Nat) (i : Int) :
    entry? (int i) ((items.zipIdx start).map fun (v, j) => (int j, v))
      = if start ≤ i then items[(i - start).toNat]? else none := by
  induction items generalizing start with
  | nil =>
    rw [List.getElem?_nil, ite_self]
    rfl
  | cons v items ih =>
    have hrest := ih (start + 1)
    rw [List.zipIdx_cons, List.map_cons, entry?, Assoc.find?, sameKey_int]
    by_cases hi : i = start
    · subst hi
      simp
    · rw [if_neg (by simpa using hi)]
      refine hrest.trans ?_
      by_cases hlt : (start : Int) < i
      · have hsucc : (i - start).toNat = (i - (start + 1 : Nat)).toNat + 1 := by omega
        rw [if_pos (by omega), if_pos (by omega), hsucc, List.getElem?_cons_succ]
      · rw [if_neg (by omega), if_neg (by omega)]

/-- A text finds nothing among positions. -/
theorem entry?_text_zipIdx (items : List Value) (start : Nat) (s : String) :
    entry? (text s) ((items.zipIdx start).map fun (v, j) => (int j, v)) = none := by
  induction items generalizing start with
  | nil => rfl
  | cons v items ih =>
    rw [List.zipIdx_cons, List.map_cons, entry?, Assoc.find?, sameKey_text_int]
    exact ih (start + 1)

/-- **A text or an integer finds the same in a list as in the mapping of its positions.** -/
theorem at?_byPosition {key : Value} (h : key.IsTextOrInt) (items : List Value) :
    (byPosition items).at? key = (list items).at? key := by
  obtain ⟨s, rfl⟩ | ⟨i, rfl⟩ := h
  · exact entry?_text_zipIdx items 0 s
  · refine (entry?_zipIdx items 0 i).trans ?_
    rw [Int.natCast_zero, Int.sub_zero]
    rfl

/-- A tuple is asked as a list is. -/
theorem at?_tuple (items : List Value) (key : Value) :
    (tuple items).at? key = (list items).at? key := by
  cases key <;> rfl

/-! ## Data with lists written as mappings

A list and its mapping have the same pairs, so that a collection and a pair of types find the same
in them; and they hold the same for a text and for an integer, so that a field does. -/

/-- Related items are found at the same positions. -/
theorem rel_at?_list {R : Value → Value → Prop} {items others : List Value}
    (h : List.Forall₂ R items others) (key : Value) :
    Option.Rel R ((list items).at? key) ((list others).at? key) := by
  cases key with
  | int i =>
    rw [at?, at?]
    split
    · exact rel_getElem?_of_forall₂ h _
    · exact .none
  | _ => exact .none

/-- What a field finds in two containers is related if what stands under either spelling of its key
is. -/
theorem rel_field? {R : Value → Value → Prop} {a b key : Value}
    (h : Option.Rel R (a.at? key) (b.at? key))
    (hother : ∀ other, key.counterpart? = some other → Option.Rel R (a.at? other) (b.at? other)) :
    Option.Rel R (a.field? key) (b.field? key) := by
  refine rel_or h ?_
  cases hc : key.counterpart? with
  | none => exact .none
  | some other => exact hother other hc

namespace Positioned

variable {a b : Value}

/-- All containers have one type. -/
theorem type_eq (h : a.Positioned b) : a.type = b.type := by
  cases h <;> rfl

/-- Two containers have as many pairs, under the same keys in the same order. -/
theorem pairs (h : a.Positioned b) :
    a.AlikeNonContainers b ∨ ∃ ps qs, a.pairs? = some ps ∧ b.pairs? = some qs ∧
      List.Forall₂ (fun p q => p.1 = q.1 ∧ p.2.Positioned q.2) ps qs := by
  cases h with
  | refl =>
    cases hpairs : a.pairs? with
    | none =>
      have hnot := not_isContainer_of_pairs hpairs
      exact .inl ⟨hnot, hnot, rfl⟩
    | some ps => exact .inr ⟨ps, ps, rfl, rfl, List.forall₂_same.2 fun p _ => ⟨rfl, .refl p.2⟩⟩
  | mapping hkeys hvalues => exact .inr ⟨_, _, rfl, rfl, forall₂_of_map_eq hkeys hvalues⟩
  | list hitems | tuple hitems | listByPosition hitems | tupleByPosition hitems =>
    exact .inr ⟨_, _, rfl, rfl, forall₂_zipIdx hitems 0⟩

/-- What stands under a text or an integer is related, if there is anything. -/
theorem rel_at? (h : a.Positioned b) {key : Value} (hkey : key.IsTextOrInt) :
    Option.Rel Positioned (a.at? key) (b.at? key) := by
  cases h with
  | refl =>
    cases a.at? key with
    | none => exact .none
    | some x => exact .some (.refl x)
  | list hitems => exact rel_at?_list hitems key
  | tuple hitems =>
    rw [at?_tuple, at?_tuple]
    exact rel_at?_list hitems key
  | mapping hkeys hvalues => exact Assoc.rel_find? (forall₂_of_map_eq hkeys hvalues)
  | listByPosition hitems =>
    rw [at?_byPosition hkey]
    exact rel_at?_list hitems key
  | tupleByPosition hitems =>
    rw [at?_byPosition hkey, at?_tuple]
    exact rel_at?_list hitems key

/-- What a field finds is related, if it finds anything. -/
theorem rel_field? (h : a.Positioned b) {key : Value} (hkey : key.IsTextOrInt) :
    Option.Rel Positioned (a.field? key) (b.field? key) :=
  Value.rel_field? (h.rel_at? hkey) fun _ hother => h.rel_at? (hkey.counterpart hother)

end Positioned

end Value

/-! ## Agreement

Every kind of node is looked at in turn: what it leads to in the one value is related to what it
leads to in the other. -/

/-- A key that is a text or an integer is read to the key of a field that is one. -/
theorem FieldKey.isTextOrInt_of_ofValue {k : Value} {key : FieldKey}
    (h : FieldKey.ofValue k = .ok key) (hk : k.IsTextOrInt) : key.key.IsTextOrInt := by
  rw [(FieldKey.ofValue_eq_ok h).1]
  obtain ⟨s, rfl⟩ | ⟨n, rfl⟩ := hk
  · exact .inl ⟨_, rfl⟩
  · exact .inr ⟨n, rfl⟩

/-- Data with lists written as mappings agrees on every type expression. -/
theorem TypeExpr.agree_of_positioned {a b : Value} (h : a.Positioned b) (e : TypeExpr) :
    e.Agree a b := by
  unfold Agree
  split
  · refine h.pairs.imp_right ?_
    rintro ⟨ps, qs, hps, hqs, hall⟩
    refine ⟨ps, qs, hps, hqs, map_eq_map_iff_forall₂.2 (hall.imp fun p q hpq => ?_)⟩
    rw [Value.pairTypes, Value.pairTypes, hpq.1, hpq.2.type_eq]
  · exact h.type_eq

/-- **Data with lists written as mappings agrees on a schema** whose keys are texts and integers. -/
theorem Schema.agree_of_positioned {s : Schema} (hkeys : s.AllKeys Value.IsTextOrInt) {a b : Value}
    (h : a.Positioned b) : s.Agree a b := by
  induction s generalizing a b with
  | leaf e =>
    rw [Agree]
    exact e.agree_of_positioned h
  | collection siblings item ih =>
    rw [AllKeys] at hkeys
    rw [Agree]
    refine h.pairs.imp_right ?_
    rintro ⟨ps, qs, hps, hqs, hall⟩
    exact ⟨ps, qs, hps, hqs, fun _ => hall.imp fun p q hpq => ih hkeys hpq.2⟩
  | fields fs ih =>
    rw [AllKeys] at hkeys
    rw [Agree]
    refine h.pairs.imp_right ?_
    rintro ⟨ps, qs, hps, hqs, -⟩
    refine ⟨Value.isContainer_of_pairs hps, Value.isContainer_of_pairs hqs, fun f hf => ?_⟩
    obtain ⟨hkey, hnode⟩ := hkeys f hf
    obtain ⟨hx, hy⟩ | ⟨x, y, hx, hy, hxy⟩ := eq_none_or_eq_some_of_rel (h.rel_field? hkey)
    · exact .inr ⟨hx, hy⟩
    · exact .inl ⟨x, y, hx, hy, ih f hf hnode hxy⟩

namespace Matcher

/-- **A check gives data the same report if lists in it are written as mappings** of the positions,
whatever the schema asks for, as long as its keys are texts and integers. -/
theorem check_eq_of_positioned {description : Value} {m : Matcher}
    (built : ofDescription description = .ok m) (short : description.HasShortNumerals)
    (keys : description.AllKeys Value.IsTextOrInt) {a b : Value} (h : a.Positioned b) :
    ∃ r, m.check a = .ok r ∧ m.check b = .ok r := by
  have hroot : m.root.AllKeys Value.IsTextOrInt :=
    allKeys_root built keys fun k key hread hk => FieldKey.isTextOrInt_of_ofValue hread hk
  refine ⟨_, check_eq_of_ofDescription built short a, ?_⟩
  rw [check_eq_of_ofDescription built short b,
    Schema.disagreements_eq_of_agree (Schema.agree_of_positioned hroot h)]

/-- Rows of a number and a text, by position. -/
def numberedRows : Matcher where
  description := [(.text "*", .mapping [(.int 0, .text "integer"), (.text "1", .text "string")])]
  root := .collection [] (.fields [(⟨"0", false, .int 0⟩, .leaf (.ofText "integer")),
    (⟨"1", false, .text "1"⟩, .leaf (.ofText "string"))])

/-- A list of a row and a row that is too short gets the same report as the mapping of their
positions, with one of the rows written as a mapping as well. -/
theorem check_eq_numberedRows :
    ofDescription (.mapping numberedRows.description) = .ok numberedRows ∧
      (Value.mapping numberedRows.description).HasShortNumerals ∧
      (Value.mapping numberedRows.description).AllKeys Value.IsTextOrInt ∧
      ∃ r, r.isValid = false ∧
        numberedRows.check (.list [.list [.int 5, .text "a"], .tuple [.int 6]]) = .ok r ∧
        numberedRows.check (.byPosition [.byPosition [.int 5, .text "a"], .tuple [.int 6]])
          = .ok r := by
  have built : ofDescription (.mapping numberedRows.description) = .ok numberedRows := rfl
  have short : (Value.mapping numberedRows.description).HasShortNumerals := by
    simp only [Value.HasShortNumerals, Value.AllKeys, numberedRows, List.forall_mem_cons]
    refine ⟨⟨Value.isShortKey_text (by decide), ⟨?_, trivial⟩, ⟨?_, trivial⟩, ?_⟩, ?_⟩
    · rintro _ ⟨⟩
    · rintro _ ⟨⟩ _
      decide
    · exact List.forall_mem_nil _
    · exact List.forall_mem_nil _
  have keys : (Value.mapping numberedRows.description).AllKeys Value.IsTextOrInt := by
    simp only [Value.AllKeys, numberedRows, List.forall_mem_cons]
    exact ⟨⟨.inl ⟨_, rfl⟩, ⟨.inr ⟨_, rfl⟩, trivial⟩, ⟨.inl ⟨_, rfl⟩, trivial⟩,
      List.forall_mem_nil _⟩, List.forall_mem_nil _⟩
  refine ⟨built, short, keys, ?_⟩
  have hrow : Value.Positioned (.list [.int 5, .text "a"]) (.byPosition [.int 5, .text "a"]) :=
    .listByPosition (.cons (.refl _) (.cons (.refl _) .nil))
  obtain ⟨r, ha, hb⟩ := check_eq_of_positioned built short keys
    (.listByPosition (.cons hrow (.cons (.refl (.tuple [.int 6])) .nil)))
  refine ⟨r, ?_, ha, hb⟩
  cases ha
  rfl

end Matcher

end TreeSchema
