/-!
# Characters as units of sixteen bits

A character beyond the first plane is escaped as two units, a high and a low surrogate. `ofUnits`
joins a high surrogate with the low one right after it; a surrogate that stands alone is no
character and is replaced. `ofUnits_units` says that the units of a text join to the text again.

The replacement is where the texts of this library are narrower than those that a program may have
to do with: a text here consists of characters, and there is no text with a surrogate that stands
alone. Two texts that differ in such a place only are the same after they were read.
-/

namespace TreeSchema.Text

/-- Whether a unit is a high surrogate. -/
def isHigh (u : Nat) : Bool := 0xD800 ≤ u && u ≤ 0xDBFF

/-- Whether a unit is a low surrogate. -/
def isLow (u : Nat) : Bool := 0xDC00 ≤ u && u ≤ 0xDFFF

/-- The units of a character. -/
def units (c : Char) : List Nat :=
  if c.toNat < 0x10000 then [c.toNat]
  else [0xD800 + (c.toNat - 0x10000) / 0x400, 0xDC00 + (c.toNat - 0x10000) % 0x400]

/-- What stands for a surrogate without its partner. -/
def replacement : Char := '\uFFFD'

/-- The character of a code, or the replacement for what is no character. -/
def charOf (u : Nat) : Char := if u.isValidChar then Char.ofNat u else replacement

/-- The characters of units and of whole codes. -/
def ofUnits : List Nat → List Char
  | [] => []
  | [u] => [charOf u]
  | u :: v :: us =>
    if isHigh u && isLow v then
      charOf (0x10000 + (u - 0xD800) * 0x400 + (v - 0xDC00)) :: ofUnits us
    else charOf u :: ofUnits (v :: us)

/-- The code of a character is one that a character can have. -/
theorem toNat_isValid (c : Char) : c.toNat.isValidChar := c.valid

/-- No character is a surrogate. -/
theorem not_surrogate (c : Char) : c.toNat < 0xD800 ∨ 0xDFFF < c.toNat := by
  rcases toNat_isValid c with h | ⟨h, _⟩
  · exact .inl h
  · exact .inr h

/-- No character is beyond the last one. -/
theorem toNat_lt (c : Char) : c.toNat < 0x110000 := by
  rcases toNat_isValid c with h | ⟨_, h⟩ <;> omega

/-- Units have sixteen bits. -/
theorem lt_of_mem_units {c : Char} {u : Nat} (hu : u ∈ units c) : u < 0x10000 := by
  have hlt := toNat_lt c
  unfold units at hu
  split at hu
  · rw [List.mem_singleton.1 hu]
    assumption
  · obtain rfl | hu := List.mem_cons.1 hu
    · omega
    · rw [List.mem_singleton.1 hu]
      omega

/-- The character of the code of a character. -/
theorem charOf_toNat (c : Char) : charOf c.toNat = c := by
  rw [charOf, if_pos (toNat_isValid c), Char.ofNat_toNat]

/-- The units of one character come first in what their sequel joins to. -/
theorem ofUnits_units_append (c : Char) (us : List Nat) :
    ofUnits (units c ++ us) = c :: ofUnits us := by
  have hs := not_surrogate c
  have hl := toNat_lt c
  unfold units
  split
  · have hh : isHigh c.toNat = false := by
      simp only [isHigh, Bool.and_eq_false_iff, decide_eq_false_iff_not]
      omega
    cases us with
    | nil => simp [ofUnits, charOf_toNat]
    | cons v us => simp [ofUnits, hh, charOf_toNat]
  · rename_i h
    have hh : isHigh (0xD800 + (c.toNat - 0x10000) / 0x400) = true := by
      simp only [isHigh, Bool.and_eq_true, decide_eq_true_eq]
      omega
    have hv : isLow (0xDC00 + (c.toNat - 0x10000) % 0x400) = true := by
      simp only [isLow, Bool.and_eq_true, decide_eq_true_eq]
      omega
    have hc : 0x10000 + (0xD800 + (c.toNat - 0x10000) / 0x400 - 0xD800) * 0x400 +
        (0xDC00 + (c.toNat - 0x10000) % 0x400 - 0xDC00) = c.toNat := by
      omega
    simp only [List.cons_append, List.nil_append, ofUnits, hh, hv, Bool.and_self, if_true, hc,
      charOf_toNat]

/-- The units of a text join to the text again. -/
theorem ofUnits_units (cs : List Char) : ofUnits (cs.flatMap units) = cs := by
  induction cs with
  | nil => rfl
  | cons c cs ih => rw [List.flatMap_cons, ofUnits_units_append, ih]

end TreeSchema.Text
