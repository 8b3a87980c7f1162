import TreeSchema.Lookup

/-!
# What a container holds for a field

Looking up a field tries the spellings of its key in turn, and all of them are written out before
the first one is tried. So a look-up is refused exactly when a numeral among them is beyond the
digit limit (`Value.IsLegible`), whatever the container holds. Apart from that it is a plain
function of the container and the key (`Value.field?`): the value under the key as written, or else
under its other spelling.

Everything that is said about what data holds for a schema is said with this function, and the two
equations for a look-up (`Value.lookup_eq`, `Value.lookup_eq_error`) are the only place where
refusals are met. A key has one other spelling at most: a text of decimal digits that of the
integer, and an integer that of its decimal text. The two are not inverse to each other. A text with
leading zeros leads to an integer that leads to another text, and the text of a negative integer
leads nowhere, since a sign is no digit.

The order of the two is that of the program. The key as written comes first, and what stands there
hides what stands under the other spelling, if a container holds both.
-/

namespace TreeSchema

namespace Value

/-- **The other spelling of a key**: the integer of a decimal text, and the text of an integer. -/
def counterpart? : Value → Option Value
  | text s =>
    if Text.isDecimal s then some (int (ofDigits 10 (s.toList.filterMap Text.digitValue?)))
    else none
  | int n => some (text (String.ofList (decimalChars n)))
  | _ => none

/-- Whether the numeral that a key spells, if it spells one, is within the digit limit. -/
def IsLegible : Value → Prop
  | text s => Text.isDecimal s = true → s.toList.length ≤ digitLimit
  | int n => (decimalDigits n.natAbs).length ≤ digitLimit
  | _ => True

/-- **What a container holds for a field**, by the key as written or else by its other spelling. -/
def field? (container key : Value) : Option Value :=
  (container.at? key).or (key.counterpart?.bind container.at?)

/-- A container holds nothing for a field if there is nothing under either spelling. -/
theorem field?_eq_none_iff {container key : Value} :
    container.field? key = none
      ↔ container.at? key = none ∧
          ∀ other, key.counterpart? = some other → container.at? other = none := by
  rw [field?, Option.or_eq_none_iff, Option.bind_eq_none_iff]

/-- Containers that hold the same under either spelling of a key hold the same for the field. -/
theorem field?_congr {a b key : Value} (h : a.at? key = b.at? key)
    (hother : ∀ other, key.counterpart? = some other → a.at? other = b.at? other) :
    a.field? key = b.field? key := by
  rw [field?, field?, h]
  cases hkey : key.counterpart? with
  | none => rfl
  | some other => rw [Option.bind_some, Option.bind_some, hother other hkey]

/-- Entries that hold nothing under a key may be left out. -/
theorem at?_filter {entries : List (Value × Value)} {keep : Value × Value → Bool} {key : Value}
    (h : ∀ e ∈ entries, keep e = false → (mapping [e]).at? key = none) :
    (mapping (entries.filter keep)).at? key = (mapping entries).at? key := by
  refine Assoc.find?_filter fun e he hdrop => ?_
  have hnone : (if key.sameKey e.1 then some e.2 else none) = none := h e he hdrop
  rw [← Bool.not_eq_true]
  exact fun hsame => nomatch (if_pos hsame).symm.trans hnone

/-- A legible key is spelled as written and then the other way. -/
theorem spellings_eq {key : Value} (h : key.IsLegible) :
    key.spellings = .ok (key :: key.counterpart?.toList) := by
  cases key with
  | text s =>
    by_cases hs : Text.isDecimal s = true
    · have hread : readDecimal s.toList
          = .ok (ofDigits 10 (s.toList.filterMap Text.digitValue?)) :=
        if_neg (Nat.not_lt.2 (h hs))
      simp only [spellings, counterpart?, if_pos hs, hread]
      rfl
    · simp only [spellings, counterpart?, if_neg hs]
      rfl
  | int n =>
    have hwrite : decimal n = .ok (String.ofList (decimalChars n)) :=
      if_neg (Nat.not_lt.2 h)
    simp only [spellings, counterpart?, hwrite]
    rfl
  | _ => rfl

/-- Why a key that is not legible is refused. -/
def refusal : Value → NumeralFault
  | text s => .tooLongToRead s.toList.length
  | _ => .tooLongToWrite

/-- A key that is not legible has no spellings. -/
theorem spellings_eq_error {key : Value} (h : ¬ key.IsLegible) :
    key.spellings = .error key.refusal := by
  cases key with
  | text s =>
    obtain ⟨hs, hlong⟩ : Text.isDecimal s = true ∧ ¬ s.toList.length ≤ digitLimit :=
      Classical.not_imp.1 h
    have hread : readDecimal s.toList = .error (.tooLongToRead s.toList.length) :=
      if_pos (Nat.lt_of_not_le hlong)
    simp only [spellings, if_pos hs, hread]
    rfl
  | int n =>
    have hwrite : decimal n = .error .tooLongToWrite := if_pos (Nat.lt_of_not_le h)
    simp only [spellings, hwrite]
    rfl
  | _ => exact absurd trivial h

/-- **Looking up a field with a legible key** finds what the container holds for it. -/
theorem lookup_eq {key : Value} (h : key.IsLegible) (container : Value) :
    container.lookup key = .ok (container.field? key) := by
  unfold lookup field?
  rw [spellings_eq h]
  show Except.ok ((key :: key.counterpart?.toList).findSome? container.at?) = _
  cases key.counterpart? <;> cases ha : container.at? key <;> simp [ha]

/-- **Looking up a field with any other key** is refused, whatever the container holds. -/
theorem lookup_eq_error {key : Value} (h : ¬ key.IsLegible) (container : Value) :
    container.lookup key = .error key.refusal := by
  unfold lookup
  rw [spellings_eq_error h]
  rfl

end Value

end TreeSchema
