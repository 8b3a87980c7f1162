/-!
# Sets of characters

A table of characters is a list of inclusive ranges of code points.
-/

namespace TreeSchema.Text

/-- A set of characters, given by the inclusive ranges of code points that make it up. -/
structure CharSet where
  ranges : List (Nat × Nat)

/-- Whether a character is in the set. -/
def CharSet.contains (s : CharSet) (c : Char) : Bool :=
  s.ranges.any fun r => r.1 ≤ c.toNat && c.toNat ≤ r.2

/-- A character is in the set when one of the ranges covers it. -/
theorem CharSet.contains_iff {s : CharSet} {c : Char} :
    s.contains c = true ↔ ∃ r ∈ s.ranges, r.1 ≤ c.toNat ∧ c.toNat ≤ r.2 := by
  simp [CharSet.contains]

end TreeSchema.Text
