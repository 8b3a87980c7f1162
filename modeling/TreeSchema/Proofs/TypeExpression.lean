import TreeSchema.Schema.Reading

/-!
# The grammar of type expressions

What a text without its mark asks for is told by its spelling: a primitive type by its name, and a
pair of types by two names with the arrow between them. A pair may have one line feed at its end, a
primitive type may not.

So a text is read as a type expression exactly when it is one of the grammar (`TypeExpr.Spells`), or
one line feed follows a pair of types (`TypeExpr.ofText_grammar`). The line feed belongs to no
expression of the grammar (`TypeExpr.ofText_pair_line`).

Reading is a search and the grammar is a list of forms. A text is searched for the arrow, and if it
has one, it is cut at it and both parts have to be names; the end of the text may be before a line
feed, which is where the two come apart. That every text of the grammar is found is a matter of the
names: no name of a primitive type has a character of the arrow in it, and none begins with the
mark. That nothing else is found comes from inverting the search (`TypeExpr.eq_of_pairNames?`): the
pieces that it cuts make up the text again.

The mark is taken off once, from the front. So an expression and its mark can be dealt with one
after the other, as long as what follows the mark does not begin with another one
(`TypeExpr.ofText_mark_append`).
-/

namespace TreeSchema

namespace TypeExpr

/-- **The spellings of a pair of types**: its text, perhaps with a line feed at the end. -/
def IsPairText (s : String) (key value : Primitive) : Prop :=
  s = pairText key value ∨ s = pairText key value ++ "\n"

/-- The names of a pair are joined by the arrow, and only a line feed may follow them. -/
theorem eq_of_pairNames? {cs : List Char} {a b : String} (h : pairNames? cs = some (a, b)) :
    cs = a.toList ++ (arrow ++ b.toList) ∨ cs = a.toList ++ (arrow ++ b.toList) ++ ['\n'] := by
  simp only [pairNames?] at h
  split at h
  · cases h
  · rename_i hhead
    obtain ⟨-, hprefix⟩ : _ ∧ arrow.isPrefixOf (cs.dropWhile isNameChar) = true := by
      simpa using hhead
    obtain ⟨rest, hrest⟩ := List.isPrefixOf_iff_prefix.1 hprefix
    have hcs : cs = cs.takeWhile isNameChar ++ (arrow ++ rest) := by
      rw [hrest, List.takeWhile_append_dropWhile]
    rw [← hrest, List.drop_left] at h
    split at h
    · cases h
    · rename_i htail
      have hend : rest.dropWhile isNameChar = [] ∨ rest.dropWhile isNameChar = ['\n'] := by
        simp only [Bool.or_eq_true, Bool.not_eq_true', not_or, Bool.not_eq_false] at htail
        simpa using htail.2
      cases h
      rw [String.toList_ofList, String.toList_ofList]
      have hsplit : rest = rest.takeWhile isNameChar ++ rest.dropWhile isNameChar :=
        List.takeWhile_append_dropWhile.symm
      obtain hnil | hfeed := hend
      · rw [hnil, List.append_nil] at hsplit
        rw [← hsplit]
        exact .inl hcs
      · rw [hfeed] at hsplit
        rw [List.append_assoc, List.append_assoc, ← hsplit]
        exact .inr hcs

/-- Two names are found where the arrow joins them, with a line feed after them or without. -/
theorem pairNames?_join {a b tail : List Char} (ha : a ≠ []) (hb : b ≠ [])
    (hnames : ∀ c ∈ a ++ b, isNameChar c = true) (htail : tail = [] ∨ tail = ['\n']) :
    pairNames? (a ++ (arrow ++ (b ++ tail))) = some (String.ofList a, String.ofList b) := by
  rw [List.forall_mem_append] at hnames
  have hkey : (a ++ (arrow ++ (b ++ tail))).takeWhile isNameChar = a :=
    (List.takeWhile_append_of_pos hnames.1).trans (List.append_nil a)
  have hrest : (a ++ (arrow ++ (b ++ tail))).dropWhile isNameChar = arrow ++ (b ++ tail) :=
    List.dropWhile_append_of_pos hnames.1
  have hends : tail.takeWhile isNameChar = [] ∧ tail.dropWhile isNameChar = tail := by
    obtain rfl | rfl := htail <;> exact ⟨rfl, rfl⟩
  have hvalue : (b ++ tail).takeWhile isNameChar = b := by
    rw [List.takeWhile_append_of_pos hnames.2, hends.1, List.append_nil]
  have hback : (b ++ tail).dropWhile isNameChar = tail := by
    rw [List.dropWhile_append_of_pos hnames.2, hends.2]
  have harrow : arrow.isPrefixOf (arrow ++ (b ++ tail)) = true :=
    List.isPrefixOf_iff_prefix.2 (List.prefix_append _ _)
  unfold pairNames?
  simp only [hkey, hrest, List.drop_left, hvalue, hback, harrow, List.isEmpty_eq_false_iff.2 ha,
    List.isEmpty_eq_false_iff.2 hb]
  obtain rfl | rfl := htail <;> rfl

/-- An arrow is found wherever it stands. -/
theorem hasArrow_append (cs r : List Char) : hasArrow (cs ++ (arrow ++ r)) = true := by
  induction cs with
  | nil => rfl
  | cons c cs ih => rw [List.cons_append, hasArrow, ih, Bool.or_true]

/-- Names of primitive types consist of characters of names. -/
theorem isNameChar_of_mem_name (p : Primitive) : ∀ c ∈ p.name.toList, isNameChar c = true := by
  cases p <;> exact List.all_eq_true.1 rfl

/-- No primitive type has an empty name. -/
theorem toList_name_ne_nil (p : Primitive) : p.name.toList ≠ [] := by
  cases p <;> exact List.cons_ne_nil _ _

/-- The characters of a pair of types. -/
theorem toList_pairText (key value : Primitive) :
    (pairText key value).toList = key.name.toList ++ (arrow ++ value.name.toList) := by
  rw [pairText, String.toList_append, String.toList_append, List.append_assoc]
  rfl

/-- **A text asks for a primitive type** if it is its name. -/
theorem formOf_eq_primitive_iff {s : String} {p : Primitive} :
    formOf s = .primitive p ↔ s = p.name := by
  constructor
  · intro h
    unfold formOf at h
    split at h
    · split at h
      · cases h
      · split at h <;> cases h
    · split at h
      · rename_i q hq
        cases h
        exact (Primitive.ofName?_eq_some_iff.1 hq).symm
      · cases h
  · rintro rfl
    cases p <;> decide

/-- **A text asks for a pair of types** if it is one of the spellings of the pair. -/
theorem formOf_eq_pairs_iff {s : String} {key value : Primitive} :
    formOf s = .pairs key value ↔ IsPairText s key value := by
  constructor
  · intro h
    unfold formOf at h
    split at h
    · split at h
      · cases h
      · rename_i a b hnames
        split at h
        · rename_i k v hk hv
          cases h
          have hspelling := eq_of_pairNames? hnames
          rw [← Primitive.ofName?_eq_some_iff.1 hk, ← Primitive.ofName?_eq_some_iff.1 hv,
            ← toList_pairText] at hspelling
          refine hspelling.imp String.toList_inj.1 fun hfeed => ?_
          rw [← String.toList_inj, String.toList_append]
          exact hfeed
        · cases h
    · split at h <;> cases h
  · intro hs
    -- A line feed may follow the second name. It is not part of it, but it is part of the text that
    -- is searched for the arrow.
    obtain ⟨tail, htail, hlist⟩ : ∃ tail, (tail = [] ∨ tail = ['\n']) ∧
        s.toList = key.name.toList ++ (arrow ++ (value.name.toList ++ tail)) := by
      obtain rfl | rfl := hs
      · exact ⟨[], .inl rfl, by rw [toList_pairText, List.append_nil]⟩
      · refine ⟨['\n'], .inr rfl, ?_⟩
        rw [String.toList_append, toList_pairText, List.append_assoc, List.append_assoc]
        rfl
    have hnames : pairNames? s.toList = some (key.name, value.name) := by
      rw [hlist, pairNames?_join (toList_name_ne_nil key) (toList_name_ne_nil value)
        (List.forall_mem_append.2 ⟨isNameChar_of_mem_name key, isNameChar_of_mem_name value⟩) htail,
        String.ofList_toList, String.ofList_toList]
    rw [formOf, hlist, hasArrow_append, ← hlist, hnames]
    dsimp only
    rw [Primitive.ofName?_name, Primitive.ofName?_name]
    rfl

/-! ## Whole expressions

A whole expression is what is written in a description: a mark, or none, and what is asked for. -/

/-- The mark in front of a type expression, if it lets a null pass. -/
def mark : Bool → String
  | true => "?"
  | false => ""

/-- **The grammar of type expressions**: the name of a primitive type, or two names with the arrow
between them, and before it the mark, if there is one. -/
inductive Spells : String → Bool → TypeForm → Prop
  | primitive (nullable : Bool) (p : Primitive) :
      Spells (mark nullable ++ p.name) nullable (.primitive p)
  | pairs (nullable : Bool) (key value : Primitive) :
      Spells (mark nullable ++ pairText key value) nullable (.pairs key value)

/-- Whether a text is a pair of types of the grammar with one line feed after it. -/
def IsPairLine (s : String) : Prop :=
  ∃ nullable key value, s = mark nullable ++ (pairText key value ++ "\n")

/-- The mark is what reading takes off. -/
theorem mark_append_splitMark (s : String) : mark (splitMark s).1 ++ (splitMark s).2 = s := by
  unfold splitMark
  split
  · rename_i cs hcs
    rw [← String.toList_inj, mark, String.toList_append, hcs]
    exact congrArg (List.cons '?') String.toList_ofList
  · exact String.empty_append

/-- Whether a text is read with a mark is told by its first character. -/
theorem splitMark_fst_iff {s : String} : (splitMark s).1 = true ↔ ∃ t, s = "?" ++ t := by
  constructor
  · intro h
    refine ⟨(splitMark s).2, ?_⟩
    have hs := mark_append_splitMark s
    rw [h] at hs
    exact hs.symm
  · rintro ⟨t, rfl⟩
    rw [splitMark_marked]

/-- A mark in front is taken off once, so what follows it must not begin with another one. -/
theorem ofText_mark_append (nullable : Bool) {t : String} (h : t.toList.head? ≠ some '?') :
    ofText (mark nullable ++ t) = ⟨mark nullable ++ t, nullable, formOf t⟩ := by
  cases nullable with
  | true => rw [ofText, mark, splitMark_marked]
  | false => rw [ofText, mark, String.empty_append, splitMark_of_head_ne h]

/-- No name of a primitive type begins with the mark. -/
theorem head_name_append_ne (p : Primitive) (s : String) :
    (p.name ++ s).toList.head? ≠ some '?' := by
  rw [String.toList_append]
  cases p <;> exact fun h => absurd (Option.some.inj h) (by decide)

/-- No pair of types begins with the mark. -/
theorem head_pairText_append_ne (key value : Primitive) (s : String) :
    (pairText key value ++ s).toList.head? ≠ some '?' := by
  rw [pairText, String.append_assoc, String.append_assoc]
  exact head_name_append_ne key _

/-- **A text of the grammar is read as what it spells.** -/
theorem Spells.ofText_eq {s : String} {nullable : Bool} {form : TypeForm}
    (h : Spells s nullable form) : ofText s = ⟨s, nullable, form⟩ := by
  cases h with
  | primitive _ p =>
    have hhead := head_name_append_ne p ""
    rw [String.append_empty] at hhead
    rw [ofText_mark_append nullable hhead, formOf_eq_primitive_iff.2 rfl]
  | pairs _ key value =>
    have hhead := head_pairText_append_ne key value ""
    rw [String.append_empty] at hhead
    rw [ofText_mark_append nullable hhead, formOf_eq_pairs_iff.2 (.inl rfl)]

/-- A pair of types is read past one line feed at its end. -/
theorem ofText_pair_line (nullable : Bool) (key value : Primitive) :
    ofText (mark nullable ++ (pairText key value ++ "\n"))
      = ⟨mark nullable ++ (pairText key value ++ "\n"), nullable, .pairs key value⟩ := by
  rw [ofText_mark_append nullable (head_pairText_append_ne key value "\n"),
    formOf_eq_pairs_iff.2 (.inr rfl)]

/-- **Which texts are read without a fault**: those of the grammar, and the pairs with a line feed
after them. -/
theorem forall_form_ne_unknown_iff {s : String} :
    (∀ fault, (ofText s).form ≠ .unknown fault)
      ↔ (∃ nullable form, Spells s nullable form) ∨ IsPairLine s := by
  constructor
  · intro h
    rw [← mark_append_splitMark s]
    cases hform : formOf (splitMark s).2 with
    | unknown fault => exact absurd hform (h fault)
    | primitive p =>
      rw [formOf_eq_primitive_iff.1 hform]
      exact .inl ⟨_, _, .primitive _ p⟩
    | pairs key value =>
      obtain htext | hline := formOf_eq_pairs_iff.1 hform
      · rw [htext]
        exact .inl ⟨_, _, .pairs _ key value⟩
      · rw [hline]
        exact .inr ⟨_, key, value, rfl⟩
  · rintro (⟨nullable, form, hs⟩ | ⟨nullable, key, value, rfl⟩) fault hfault
    · rw [hs.ofText_eq] at hfault
      cases hs <;> cases hfault
    · rw [ofText_pair_line] at hfault
      cases hfault

/-- **What a text is read to as a type expression.** It has no fault exactly when it is one of the
grammar or a pair of types with one line feed after it. A text of the grammar is read as what it
spells, and such a pair as the pair. Any other text has a fault, and is read with a mark if it
begins with one. -/
theorem ofText_grammar (s : String) :
    ((∀ fault, (ofText s).form ≠ .unknown fault)
        ↔ (∃ nullable form, Spells s nullable form) ∨ IsPairLine s) ∧
      (∀ nullable form, Spells s nullable form → ofText s = ⟨s, nullable, form⟩) ∧
      (∀ nullable key value, s = mark nullable ++ (pairText key value ++ "\n") →
        ofText s = ⟨s, nullable, .pairs key value⟩) ∧
      ((¬ ∃ nullable form, Spells s nullable form) → ¬ IsPairLine s →
        ∃ nullable fault, ofText s = ⟨s, nullable, .unknown fault⟩ ∧
          (nullable = true ↔ ∃ t, s = "?" ++ t)) := by
  refine ⟨forall_form_ne_unknown_iff, fun _ _ hs => hs.ofText_eq, ?_, ?_⟩
  · rintro nullable key value rfl
    exact ofText_pair_line nullable key value
  · intro hspells hline
    have hfault : ¬ ∀ fault, (ofText s).form ≠ .unknown fault := by
      rw [forall_form_ne_unknown_iff]
      exact not_or.2 ⟨hspells, hline⟩
    obtain ⟨fault, hform⟩ := Classical.not_forall.1 hfault
    refine ⟨(splitMark s).1, fault, ?_, splitMark_fst_iff⟩
    rw [← Classical.not_not.1 hform]
    rfl

/-- A line feed after a pair of types is read as if it were not there, though no text of the grammar
ends with one. -/
theorem ofText_flags_line :
    ¬ ((∀ fault, (ofText "string => boolean\n").form ≠ .unknown fault)
      ↔ ∃ nullable form, Spells "string => boolean\n" nullable form) := by
  intro h
  have hread : ofText "string => boolean\n" = ⟨_, false, .pairs .string .boolean⟩ :=
    ofText_pair_line false .string .boolean
  obtain ⟨nullable, form, hs⟩ := h.1 fun fault hfault => by
    rw [hread] at hfault
    cases hfault
  have hform : form = .pairs .string .boolean := by
    have heq := hread.symm.trans hs.ofText_eq
    injection heq with _ _ hform
    exact hform.symm
  subst hform
  generalize htext : "string => boolean\n" = s at hs
  cases hs
  revert htext
  cases nullable <;> decide

end TypeExpr

end TreeSchema
