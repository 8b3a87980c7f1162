import TreeSchema.Proofs.Computation

/-!
# Numerals and their digits

A decimal is read unless it is a run of digits beyond the limit (`comesTo_readDecimal`), and what it
is read to has no more digits than it (`length_decimalDigits_of_readDecimal`). A number that is
spelled with digits of a base is bounded by how many there are (`ofDigits_lt`).

The limit is on the digits in both directions. Where an integer comes from a decimal, one direction
takes care of the other: what was read within the limit is written within it. This is why a document
of JSON is never refused when its values are quoted, and why a document of YAML can be, as it may
spell an integer in another base. There the number of digits says little about the number of
decimals: a base of sixteen needs fewer digits for the same integer.

`IsLongRun` is what is said of a text. It says that a run of digits stands somewhere in it and not
that a reader came to it, so it can be looked for without reading the text.
-/

namespace TreeSchema

/-- **A run of digits in a text that is beyond the limit.** -/
structure IsLongRun (run cs : List Char) : Prop where
  part : run <:+: cs
  digits : ∀ c ∈ run, '0' ≤ c ∧ c ≤ '9'
  long : digitLimit < run.length

/-- A decimal is refused for the number of its digits only. -/
theorem comesTo_readDecimal (cs : List Char) :
    ComesTo (fun fault => digitLimit < cs.length ∧ fault = .tooLongToRead cs.length)
      (fun _ => True) (readDecimal cs) := by
  unfold readDecimal
  split
  · rename_i hlong
    exact .error ⟨hlong, rfl⟩
  · exact .ok trivial

/-- The number that digits spell in a base is less than the power of the base with as many zeros. -/
theorem ofDigits_lt {base : Nat} {ds : List Nat} (h : ∀ d ∈ ds, d < base) :
    ofDigits base ds < Nat.pow base ds.length := by
  have hfold : ∀ k, ds.foldl (fun n d => base * n + d) k < (k + 1) * Nat.pow base ds.length := by
    induction ds with
    | nil => exact fun k => Nat.lt_of_lt_of_eq (Nat.lt_succ_self k) (Nat.mul_one _).symm
    | cons d ds ih =>
      obtain ⟨hd, hds⟩ := List.forall_mem_cons.1 h
      intro k
      have hstep : base * k + d + 1 ≤ (k + 1) * base := by
        rw [Nat.succ_mul, Nat.mul_comm k]
        omega
      refine Nat.lt_of_lt_of_le (ih hds (base * k + d)) ?_
      calc (base * k + d + 1) * Nat.pow base ds.length
          ≤ ((k + 1) * base) * Nat.pow base ds.length := Nat.mul_le_mul_right _ hstep
        _ = (k + 1) * Nat.pow base (d :: ds).length := by
          rw [List.length_cons, Nat.pow_eq, Nat.pow_eq, Nat.pow_succ, Nat.mul_assoc,
            Nat.mul_comm base]
  exact Nat.lt_of_lt_of_eq (hfold 0) (Nat.one_mul _)

/-- **A decimal that is read is within the limit when it is written**: it has no more digits than
were read. -/
theorem length_decimalDigits_of_readDecimal {cs : List Char} {n : Nat}
    (h : readDecimal cs = .ok n) : (decimalDigits n).length ≤ digitLimit := by
  have hpos : 0 < digitLimit := by decide
  unfold readDecimal at h
  generalize digitLimit = limit at *
  split at h
  · cases h
  · rename_i hshort
    cases h
    have hdigits : ∀ d ∈ cs.filterMap Text.digitValue?, d < 10 := by
      intro d hd
      obtain ⟨c, -, hc⟩ := List.mem_filterMap.1 hd
      exact Text.digitValue?_lt hc
    have hlength : (cs.filterMap Text.digitValue?).length ≤ limit :=
      Nat.le_trans (List.length_filterMap_le _ _) (Nat.le_of_not_lt hshort)
    exact (Nat.length_toDigits_le_iff (by decide) hpos).2
      (Nat.lt_of_lt_of_le (ofDigits_lt hdigits) (Nat.pow_le_pow_right (by decide) hlength))

/-- The value of a hexadecimal digit. -/
theorem Text.hexValue?_lt {c : Char} {n : Nat} (h : hexValue? c = some n) : n < 16 := by
  simp only [hexValue?, Bool.and_eq_true, decide_eq_true_eq] at h
  split at h
  · rename_i hc
    have hle : c.toNat ≤ 57 := hc.2
    cases h
    omega
  · split at h
    · rename_i hc
      have hle : c.toNat ≤ 102 := hc.2
      cases h
      omega
    · split at h
      · rename_i hc
        have hle : c.toNat ≤ 70 := hc.2
        cases h
        omega
      · cases h

/-- A number of hexadecimal digits is bounded by how many there are. -/
theorem Text.hexNumber?_lt {cs : List Char} {n : Nat} (h : hexNumber? cs = some n) :
    n < Nat.pow 16 cs.length := by
  have hdigits : ∀ k, cs.foldlM (fun n c => (hexValue? c).map (16 * n + ·)) k = some n →
      ∃ ds : List Nat, ds.length = cs.length ∧ (∀ d ∈ ds, d < 16) ∧
        n = ds.foldl (fun n d => 16 * n + d) k := by
    clear h
    induction cs with
    | nil =>
      intro k h
      cases h
      exact ⟨[], rfl, List.forall_mem_nil _, rfl⟩
    | cons c cs ih =>
      intro k h
      rw [List.foldlM_cons, Option.bind_eq_bind, Option.bind_eq_some_iff] at h
      obtain ⟨m, hm, h⟩ := h
      obtain ⟨d, hd, rfl⟩ := Option.map_eq_some_iff.1 hm
      obtain ⟨ds, hlength, hds, hn⟩ := ih _ h
      exact ⟨d :: ds, congrArg (· + 1) hlength,
        List.forall_mem_cons.2 ⟨hexValue?_lt hd, hds⟩, hn⟩
  obtain ⟨ds, hlength, hds, rfl⟩ := hdigits 0 h
  rw [← hlength]
  exact ofDigits_lt hds

end TreeSchema
