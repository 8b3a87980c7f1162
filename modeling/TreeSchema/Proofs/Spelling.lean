import TreeSchema.Proofs.Description

/-!
# The two spellings of an integer key

An integer and its decimal text are two spellings of one key. Which of them a schema uses makes no
difference for data that has one of them at most, and neither does it which of them the data uses;
where data has both, each finds its own (`Matcher.check_eq_of_spelling`).

The two spellings lead to each other, since the digits of an integer read back to it
(`ofDigits_decimalDigits`). There is one exception: a text with a sign is no decimal text, so a
negative integer leads to its text, but the text does not lead back (`Value.counterpart?_numeral`).
What a mapping holds under a negative integer alone is therefore hidden from the text
(`Value.HidesFromText`), and a schema with the text reports the key as absent.

The statement has a part about look-ups and one about checks. Look-ups are compared for all
containers, and the exception is exact: the two spellings find something or not together unless the
container hides what it holds (`Value.isSome_field?_int_iff`). Checks follow because a field of a
schema is asked for by what it finds alone, with the name that its findings have, and both spellings
have the same name.

Other texts lead to the integer as well, those with zeros in front or with digits of other scripts.
They are spellings of it for a schema and not for data: such a text finds what stands under the
integer, but the integer finds nothing under the text. They are left out here, where spelling goes
both ways.
-/

namespace TreeSchema

/-! ## Decimal texts

The decimal text of an integer is written by its digits, and these are read one by one. -/

/-- A digit has its place behind zero for its value. -/
theorem digitValue?_of_isDigit {c : Char} (h : c.isDigit = true) :
    Text.digitValue? c = some (c.toNat - 48) := by
  obtain ⟨hlow, hhigh⟩ := Char.isDigit_iff_toNat.1 h
  have hzero : (decide (0x30 ≤ c.toNat) && decide (c.toNat ≤ 0x30 + 9)) = true := by
    rw [Bool.and_eq_true, decide_eq_true_eq, decide_eq_true_eq]
    exact ⟨hlow, hhigh⟩
  obtain ⟨zeros, hzeros⟩ : ∃ zeros, Text.digitZeros = 0x30 :: zeros := ⟨_, rfl⟩
  rw [Text.digitValue?, hzeros, List.find?_cons, hzero]
  rfl

/-- Decimals consist of digits. -/
theorem isDigit_of_mem_decimalDigits {n : Nat} {c : Char} (h : c ∈ decimalDigits n) :
    c.isDigit = true :=
  Nat.isDigit_of_mem_toDigits (by decide) (by decide) h

/-- **The digits of a number read back to it.** -/
theorem ofDigits_decimalDigits (n : Nat) :
    ofDigits 10 ((decimalDigits n).filterMap Text.digitValue?) = n := by
  have hread : ∀ cs : List Char, (∀ c ∈ cs, c.isDigit = true) → ∀ k,
      (cs.filterMap Text.digitValue?).foldl (fun n d => 10 * n + d) k
        = Nat.ofDigitChars 10 cs k := by
    intro cs hcs
    induction cs with
    | nil => exact fun k => Nat.ofDigitChars_nil.symm
    | cons c cs ih =>
      obtain ⟨hc, hcs⟩ := List.forall_mem_cons.1 hcs
      intro k
      rw [List.filterMap_cons_some (digitValue?_of_isDigit hc), List.foldl_cons, ih hcs,
        Nat.ofDigitChars_cons]
      rfl
  rw [ofDigits, hread _ (fun c hc => isDigit_of_mem_decimalDigits hc), decimalDigits,
    Nat.ofDigitChars_ten_toDigits]

/-- An integer that is not negative has no sign. -/
theorem decimalChars_of_nonneg {n : Int} (h : 0 ≤ n) :
    decimalChars n = decimalDigits n.natAbs :=
  if_neg (Int.not_lt.2 h)

/-- The decimal text of an integer begins with a digit or with a minus sign. -/
theorem exists_decimalChars_eq_cons (n : Int) :
    ∃ c cs, decimalChars n = c :: cs ∧ (c = '-' ∨ c.isDigit = true) := by
  unfold decimalChars
  split
  · exact ⟨'-', _, rfl, .inl rfl⟩
  · cases hdigits : decimalDigits n.natAbs with
    | nil => exact absurd hdigits Nat.toDigits_ne_nil
    | cons c cs =>
      exact ⟨c, cs, rfl, .inr (isDigit_of_mem_decimalDigits (hdigits ▸ List.mem_cons_self))⟩

/-- The decimal text of an integer is a decimal text in the narrow sense unless it has a sign. -/
theorem isDecimal_decimalChars (n : Int) :
    Text.isDecimal (String.ofList (decimalChars n)) = decide (0 ≤ n) := by
  unfold Text.isDecimal
  rw [String.toList_ofList]
  by_cases hn : 0 ≤ n
  · rw [decimalChars_of_nonneg hn, decide_eq_true hn, Bool.and_eq_true, List.all_eq_true]
    refine ⟨?_, fun c hc => ?_⟩
    · rw [Bool.not_eq_true', List.isEmpty_eq_false_iff]
      exact Nat.toDigits_ne_nil
    · rw [digitValue?_of_isDigit (isDigit_of_mem_decimalDigits hc)]
      rfl
  · rw [decimalChars, if_pos (Int.not_le.1 hn), decide_eq_false hn]
    rfl

namespace Value

/-- **The decimal text of an integer**, as a key. -/
def numeral (n : Int) : Value := text (String.ofList (decimalChars n))

variable {n : Int} {c : Value}

/-- **The text leads back to the integer** unless it has a sign. -/
theorem counterpart?_numeral (n : Int) :
    (numeral n).counterpart? = if 0 ≤ n then some (int n) else none := by
  rw [numeral, counterpart?, isDecimal_decimalChars]
  by_cases hn : 0 ≤ n
  · rw [if_pos (decide_eq_true hn), if_pos hn, String.toList_ofList, decimalChars_of_nonneg hn,
      ofDigits_decimalDigits, Int.natAbs_of_nonneg hn]
  · rw [if_neg (by simpa using hn), if_neg hn]

/-- The text of an integer can be spelled if the integer can. -/
theorem isLegible_numeral (h : (int n).IsLegible) : (numeral n).IsLegible := by
  intro hdecimal
  rw [isDecimal_decimalChars, decide_eq_true_eq] at hdecimal
  rw [String.toList_ofList, decimalChars_of_nonneg hdecimal]
  exact h

/-! ## What the spellings find

An integer has its text for the other spelling, and its text has the integer for it, or nothing. -/

/-- An integer finds what stands under it, or else under its text. -/
theorem field?_int (c : Value) (n : Int) :
    c.field? (int n) = (c.at? (int n)).or (c.at? (numeral n)) := rfl

/-- The text of an integer finds what stands under it, or else under the integer. -/
theorem field?_numeral_of_nonneg (hn : 0 ≤ n) (c : Value) :
    c.field? (numeral n) = (c.at? (numeral n)).or (c.at? (int n)) := by
  rw [field?, counterpart?_numeral, if_pos hn]
  rfl

/-- With a sign it finds what stands under it. -/
theorem field?_numeral_of_neg (hn : n < 0) (c : Value) :
    c.field? (numeral n) = c.at? (numeral n) := by
  rw [field?, counterpart?_numeral, if_neg (Int.not_le.2 hn)]
  exact Option.or_none

/-- **Whether a container hides what it holds from the text of an integer**: it holds something
under the integer, which is negative, and nothing under the text. -/
def HidesFromText (c : Value) (n : Int) : Prop :=
  n < 0 ∧ c.at? (int n) ≠ none ∧ c.at? (numeral n) = none

/-- **Either spelling finds the same** in a container that has one of them at most and hides
nothing. -/
theorem field?_int_eq (hone : c.at? (int n) = none ∨ c.at? (numeral n) = none)
    (hshown : ¬ c.HidesFromText n) : c.field? (int n) = c.field? (numeral n) := by
  by_cases hn : 0 ≤ n
  · rw [field?_int, field?_numeral_of_nonneg hn]
    obtain hnone | hnone := hone
    · rw [hnone, Option.none_or, Option.or_none]
    · rw [hnone, Option.none_or, Option.or_none]
  · have hneg := Int.not_le.1 hn
    have hint : c.at? (int n) = none := by
      refine hone.elim id fun hnone => ?_
      exact Classical.not_not.1 fun hsome => hshown ⟨hneg, hsome, hnone⟩
    rw [field?_int, field?_numeral_of_neg hneg, hint, Option.none_or]

/-- **Both spellings find something or neither does**, unless the container hides what it holds. -/
theorem isSome_field?_int_iff :
    ((c.field? (int n)).isSome = (c.field? (numeral n)).isSome) ↔ ¬ c.HidesFromText n := by
  unfold HidesFromText
  by_cases hn : 0 ≤ n
  · rw [field?_int, field?_numeral_of_nonneg hn, Option.isSome_or, Option.isSome_or, Bool.or_comm]
    exact iff_of_true rfl fun h => absurd h.1 (Int.not_lt.2 hn)
  · have hneg := Int.not_le.1 hn
    rw [field?_int, field?_numeral_of_neg hneg]
    cases c.at? (int n) <;> cases c.at? (numeral n) <;> simp [hneg]

/-- Where a container has both spellings, each of them finds its own. -/
theorem field?_of_both {x y : Value} (hx : c.at? (int n) = some x)
    (hy : c.at? (numeral n) = some y) :
    c.field? (int n) = some x ∧ c.field? (numeral n) = some y := by
  rw [field?, field?, hx, hy]
  exact ⟨rfl, rfl⟩

/-- Whether a key of data is an integer in one of its spellings. -/
def IsSpelling (n : Int) (key : Value) : Prop :=
  (int n).sameKey key = true ∨ (numeral n).sameKey key = true

/-- What a mapping holds under a key when one entry alone may have the key. -/
theorem at?_of_only (key k : Value) {front back : List (Value × Value)}
    (h : ∀ e ∈ front ++ back, key.sameKey e.1 = false) (x : Value) :
    (mapping (front ++ (k, x) :: back)).at? key = if key.sameKey k then some x else none := by
  rw [List.forall_mem_append] at h
  show Assoc.find? key.sameKey (front ++ (k, x) :: back) = _
  rw [Assoc.find?_append, Assoc.find?_eq_none_of_forall h.1, Option.none_or, Assoc.find?,
    Assoc.find?_eq_none_of_forall h.2]

/-- **How the data spells an integer makes no difference** to what the integer finds, and to what
its text finds unless it has a sign. -/
theorem field?_of_isSpelling {k x : Value} {front back : List (Value × Value)}
    (h : ∀ e ∈ front ++ back, ¬ IsSpelling n e.1) (hk : IsSpelling n k) :
    (mapping (front ++ (k, x) :: back)).field? (int n) = some x ∧
      (0 ≤ n → (mapping (front ++ (k, x) :: back)).field? (numeral n) = some x) := by
  have hint := at?_of_only (int n) k
    (fun e he => Bool.eq_false_iff.2 fun hsame => h e he (.inl hsame)) x
  have htext := at?_of_only (numeral n) k
    (fun e he => Bool.eq_false_iff.2 fun hsame => h e he (.inr hsame)) x
  refine ⟨?_, fun hn => ?_⟩
  · rw [field?_int, hint, htext]
    obtain hk | hk := hk
    · rw [if_pos hk, Option.some_or]
    · rw [if_pos hk]
      split <;> rfl
  · rw [field?_numeral_of_nonneg hn, hint, htext]
    obtain hk | hk := hk
    · rw [if_pos hk]
      split <;> rfl
    · rw [if_pos hk, Option.some_or]

end Value

/-! ## Schemas with one key

A schema of one field is matched by looking up its key, so it is compared by what this finds. -/

namespace Schema

/-- One field finds in a container what is found for it. -/
theorem findings_single {v : Value} (hv : v.isContainer = true) (f : FieldKey × Schema)
    (path : String) : (fields [f]).findings v path = fieldFinding v path f := by
  rw [findings, if_pos hv, fieldFindings_eq_mapM, List.mapM_cons, List.mapM_nil]
  cases fieldFinding v path f with
  | error fault => rfl
  | ok here => exact congrArg Except.ok (List.append_nil here)

/-- What is done with a field depends on what is looked up for it. -/
theorem fieldFinding_congr {key key' : FieldKey} {v v' : Value} (hname : key.name = key'.name)
    (hoptional : key.optional = key'.optional) (h : v.lookup key.key = v'.lookup key'.key)
    (s : Schema) (path : String) :
    fieldFinding v path (key, s) = fieldFinding v' path (key', s) := by
  unfold fieldFinding
  dsimp only
  rw [h, hname, hoptional]

end Schema

/-- The key of the field that a spelling of an integer describes. -/
def FieldKey.spelled (n : Int) (k : Value) : FieldKey := ⟨String.ofList (decimalChars n), false, k⟩

/-- The key of the field that an integer is read to. -/
theorem FieldKey.ofValue_int {n : Int} (short : (Value.int n).IsLegible) :
    FieldKey.ofValue (.int n) = .ok (spelled n (.int n)) := by
  have hwrite : decimal n = .ok (String.ofList (decimalChars n)) := if_neg (Nat.not_lt.2 short)
  exact bind_eq_ok_iff.2 ⟨_, hwrite, rfl⟩

/-- The key of the field that its text is read to. -/
theorem FieldKey.ofValue_numeral (n : Int) :
    FieldKey.ofValue (.numeral n) = .ok (spelled n (.numeral n)) := by
  obtain ⟨c, cs, hchars, hc⟩ := exists_decimalChars_eq_cons n
  have hhead : (String.ofList (decimalChars n)).toList.head? ≠ some '?' := by
    rw [String.toList_ofList, hchars]
    rintro ⟨⟩
    exact hc.elim (by decide) (by decide)
  rw [Value.numeral, FieldKey.ofValue, splitMark_of_head_ne hhead]
  rfl

/-- The text of an integer is not the wildcard. -/
theorem isWildcard_numeral (n : Int) : isWildcard (.numeral n) = false := by
  obtain ⟨c, cs, hchars, hc⟩ := exists_decimalChars_eq_cons n
  rw [Value.numeral, Bool.eq_false_iff]
  intro hwildcard
  have hlist := congrArg String.toList (isWildcard_text_iff.1 hwildcard)
  rw [String.toList_ofList, hchars] at hlist
  cases hlist
  exact hc.elim (by decide) (by decide)

namespace Matcher

variable {n : Int} {k k' item v v' : Value}

/-- The matcher of a description with a spelling of an integer as its only key. -/
def under (n : Int) (k item : Value) (s : Schema) : Matcher :=
  ⟨[(k, item)], .fields [(.spelled n k, s)]⟩

/-- A description with a spelling for its only key is read to the field. -/
theorem ofDescription_under (hkey : FieldKey.ofValue k = .ok (.spelled n k))
    (hwildcard : isWildcard k = false) (item : Value) :
    ofDescription (.mapping [(k, item)])
      = (under n k item <$> Schema.ofDescription item).mapError .numeral := by
  rw [ofDescription, ofEntries, Schema.ofDescription_single hkey hwildcard]
  cases Schema.ofDescription item <;> rfl

/-- Containers in which two spellings find the same get the same report. -/
theorem check_under_congr (hv : v.isContainer = true) (hv' : v'.isContainer = true)
    (h : v.lookup k = v'.lookup k') (s : Schema) :
    (under n k item s).check v = (under n k' item s).check v' := by
  show Report.ofFindings <$> (Schema.fields [(.spelled n k, s)]).findings v ""
    = Report.ofFindings <$> (Schema.fields [(.spelled n k', s)]).findings v' ""
  rw [Schema.findings_single hv, Schema.findings_single hv']
  exact congrArg _ (@Schema.fieldFinding_congr (.spelled n k) (.spelled n k') v v' rfl rfl h s "")

/-- A value in which two spellings find the same gets the same report from both, whether it is a
container or not. -/
theorem check_under_eq (h : v.lookup k = v.lookup k') (s : Schema) :
    (under n k item s).check v = (under n k' item s).check v := by
  cases hv : v.isContainer with
  | true => exact check_under_congr hv hv h s
  | false =>
    show Report.ofFindings <$> (Schema.fields [(.spelled n k, s)]).findings v ""
      = Report.ofFindings <$> (Schema.fields [(.spelled n k', s)]).findings v ""
    rw [Schema.findings, Schema.findings, hv]
    rfl

/-- A spelling that finds nothing in a container is reported as absent. -/
theorem check_under_absent (hv : v.isContainer = true) (h : v.lookup k = .ok none) (s : Schema) :
    (under n k item s).check v
      = .ok (.ofFindings [.absentKey (String.ofList (decimalChars n))]) := by
  show Report.ofFindings <$> (Schema.fields [(.spelled n k, s)]).findings v "" = _
  have hlookup : v.lookup (FieldKey.spelled n k).key = .ok none := h
  rw [Schema.findings_single hv, Schema.fieldFinding, hlookup]
  rfl

/-- **An integer and its decimal text are one key.** In every container each of the two finds
something if the other does, and the same unless the container has both, when each finds its own. So
a schema under the one and the same schema under the other give the same report on data that does
not have both, and it does not matter which of them the data has. The only exception is a container
that hides from the text what it holds under a negative integer, and this is reported as absent. -/
theorem check_eq_of_spelling (n : Int) (short : (Value.int n).IsLegible) :
    (∀ c : Value, ∃ found found', c.lookup (.int n) = .ok found ∧
      c.lookup (.numeral n) = .ok found' ∧
      (found.isSome = found'.isSome ↔ ¬ c.HidesFromText n) ∧
      (c.at? (.int n) = none ∨ c.at? (.numeral n) = none → ¬ c.HidesFromText n →
        found = found') ∧
      ∀ x y, c.at? (.int n) = some x → c.at? (.numeral n) = some y →
        found = some x ∧ found' = some y) ∧
    ∀ item, (∃ fault, ofDescription (.mapping [(.int n, item)]) = .error fault ∧
        ofDescription (.mapping [(.numeral n, item)]) = .error fault)
      ∨ ∃ m m', ofDescription (.mapping [(.int n, item)]) = .ok m ∧
          ofDescription (.mapping [(.numeral n, item)]) = .ok m' ∧
          (∀ v, v.at? (.int n) = none ∨ v.at? (.numeral n) = none → ¬ v.HidesFromText n →
            m.check v = m'.check v) ∧
          (∀ v, v.HidesFromText n →
            m'.check v = .ok (.ofFindings [.absentKey (String.ofList (decimalChars n))])) ∧
          ∀ front back k k' x, (∀ e ∈ front ++ back, ¬ Value.IsSpelling n e.1) →
            Value.IsSpelling n k → Value.IsSpelling n k' →
            m.check (.mapping (front ++ (k, x) :: back))
                = m.check (.mapping (front ++ (k', x) :: back)) ∧
              (0 ≤ n → m'.check (.mapping (front ++ (k, x) :: back))
                = m'.check (.mapping (front ++ (k', x) :: back))) := by
  -- Neither spelling is refused: the integer is short enough, and so is the text that writes it.
  have hint : ∀ c : Value, c.lookup (.int n) = .ok (c.field? (.int n)) := Value.lookup_eq short
  have htext : ∀ c : Value, c.lookup (.numeral n) = .ok (c.field? (.numeral n)) :=
    Value.lookup_eq (Value.isLegible_numeral short)
  refine ⟨fun c => ⟨_, _, hint c, htext c, Value.isSome_field?_int_iff, Value.field?_int_eq,
    fun x y => Value.field?_of_both⟩, fun item => ?_⟩
  rw [ofDescription_under (FieldKey.ofValue_int short) rfl,
    ofDescription_under (FieldKey.ofValue_numeral n) (isWildcard_numeral n)]
  cases Schema.ofDescription item with
  | error fault => exact .inl ⟨.numeral fault, rfl, rfl⟩
  | ok s =>
    refine .inr ⟨under n (.int n) item s, under n (.numeral n) item s, rfl, rfl,
      fun v hone hshown => ?_, fun v hhides => ?_, fun front back k k' x hrest hk hk' => ?_⟩
    · refine check_under_eq ?_ s
      rw [hint, htext, Value.field?_int_eq hone hshown]
    -- Only what holds the integer as a key can hide it from the text.
    · have hcontainer : v.isContainer = true := by
        cases v with
        | mapping entries => rfl
        | list items | tuple items => rfl
        | _ => exact absurd rfl hhides.2.1
      refine check_under_absent hcontainer ?_ s
      rw [htext, Value.field?_numeral_of_neg hhides.1, hhides.2.2]
    · obtain ⟨hfound, hfoundText⟩ := Value.field?_of_isSpelling hrest hk
      obtain ⟨hfound', hfoundText'⟩ := Value.field?_of_isSpelling hrest hk'
      refine ⟨check_under_congr rfl rfl ?_ s, fun hn => check_under_congr rfl rfl ?_ s⟩
      · rw [hint, hint, hfound, hfound']
      · rw [htext, htext, hfoundText hn, hfoundText' hn]

/-- A number under `200` is no text, whether the schema asks for it under `200` or under its text,
and the data may spell the key either way. -/
theorem check_eq_of_spelling_twoHundred :
    (Value.int 200).IsLegible ∧
      ∃ m m', ofDescription (.mapping [(.int 200, .text "string")]) = .ok m ∧
        ofDescription (.mapping [(.text "200", .text "string")]) = .ok m' ∧
        ∃ r, r.isValid = false ∧ m.check (.mapping [(.int 200, .int 1)]) = .ok r ∧
          m'.check (.mapping [(.int 200, .int 1)]) = .ok r ∧
          m'.check (.mapping [(.text "200", .int 1)]) = .ok r := by
  have short : (Value.int 200).IsLegible := by
    show (decimalDigits 200).length ≤ digitLimit
    decide
  refine ⟨short, ?_⟩
  obtain ⟨fault, hfault, -⟩ | ⟨m, m', hm, hm', hone, -, hspelled⟩ :=
    (check_eq_of_spelling 200 short).2 (.text "string")
  · cases hfault
  · have hint : m.check (.mapping [(.int 200, .int 1)])
        = m'.check (.mapping [(.int 200, .int 1)]) :=
      hone _ (.inr rfl) fun hhides => absurd hhides.1 (by decide)
    have htext : m'.check (.mapping [(.int 200, .int 1)])
        = m'.check (.mapping [(.text "200", .int 1)]) :=
      (hspelled [] [] (.int 200) (.text "200") (.int 1) (List.forall_mem_nil _) (.inl rfl)
        (.inr rfl)).2 (by decide)
    refine ⟨m, m', hm, hm', ?_⟩
    rw [hint, ← htext]
    cases hm'
    exact ⟨_, rfl, rfl, rfl, rfl⟩

end Matcher

/-- What a mapping holds under `-5` is found by the integer and not by its text. -/
theorem Value.lookup_minusFive :
    ¬ ∀ found found',
      (Value.mapping [(.int (-5), .int 1)]).lookup (.int (-5)) = .ok found →
      (Value.mapping [(.int (-5), .int 1)]).lookup (.text "-5") = .ok found' →
      (found.isSome = true ↔ found'.isSome = true) := by
  intro h
  have hfound := (h _ _ rfl rfl).1 rfl
  cases hfound

end TreeSchema
