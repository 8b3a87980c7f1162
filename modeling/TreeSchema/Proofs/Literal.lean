import TreeSchema.Proofs.Description
import TreeSchema.Value.Literal

/-!
# Values that can be written

A value has a literal unless an integer in it is beyond the digit limit. Where there is none
(`Value.HasShortIntegers`) literal and text are plain functions of the value (`Value.literalText`,
`Value.shownText`), and statements about texts that quote a value need not speak of refusals.

The condition is not only enough but needed (`Value.exists_literal_iff`): a literal shows every
integer in the value, however deep it lies and be it in a key, so none of them can be passed over.
This is what tells which documents break down when their offences are written.

A value is a tree with lists of children, and `Value.literal` goes through the items of a list and
the entries of a mapping with functions of their own. The two inductions follow these, with one
statement for a value, one for a list of values and one for a list of entries.
-/

namespace TreeSchema.Value

/-- **Whether every integer in a value is within the digit limit**, at any depth and in keys too. -/
def HasShortIntegers : Value → Prop
  | int n => (decimalDigits n.natAbs).length ≤ digitLimit
  | list items | tuple items | set items => ∀ v ∈ items, v.HasShortIntegers
  | mapping entries => ∀ e ∈ entries, e.1.HasShortIntegers ∧ e.2.HasShortIntegers
  | _ => True
termination_by v => sizeOf v
decreasing_by
  · have := List.sizeOf_lt_of_mem ‹v ∈ items›
    rw [list.sizeOf_spec]
    omega
  · have := List.sizeOf_lt_of_mem ‹v ∈ items›
    rw [tuple.sizeOf_spec]
    omega
  · have := List.sizeOf_lt_of_mem ‹v ∈ items›
    rw [set.sizeOf_spec]
    omega
  · have := List.sizeOf_lt_of_mem ‹e ∈ entries›
    rw [Prod.mk.sizeOf_spec] at this
    rw [mapping.sizeOf_spec]
    omega
  · exact sizeOf_lt_of_mem ‹e ∈ entries›

mutual

/-- **A value with short integers has a literal.** -/
theorem exists_literal : ∀ v : Value, v.HasShortIntegers → ∃ s, v.literal = .ok s
  | null, _ | bool _, _ | real _, _ | text _, _ | bytes _, _ | date _, _ | moment _, _ => ⟨_, rfl⟩
  | int n, h => by
    rw [HasShortIntegers] at h
    exact ⟨_, if_neg (Nat.not_lt.2 h)⟩
  | list items, h => by
    rw [HasShortIntegers] at h
    obtain ⟨ss, hss⟩ := exists_literals items h
    exact ⟨_, by rw [literal, hss]; rfl⟩
  | tuple [], _ => ⟨_, rfl⟩
  | tuple [item], h => by
    rw [HasShortIntegers, List.forall_mem_singleton] at h
    obtain ⟨s, hs⟩ := exists_literal item h
    exact ⟨_, by rw [literal, hs]; rfl⟩
  | tuple (v :: w :: items), h => by
    rw [HasShortIntegers] at h
    obtain ⟨ss, hss⟩ := exists_literals (v :: w :: items) h
    exact ⟨_, by rw [literal, hss]; rfl; simp; simp⟩
  | mapping entries, h => by
    rw [HasShortIntegers] at h
    obtain ⟨ss, hss⟩ := exists_entryLiterals entries h
    exact ⟨_, by rw [literal, hss]; rfl⟩
  | set [], _ => ⟨_, rfl⟩
  | set (v :: items), h => by
    rw [HasShortIntegers] at h
    obtain ⟨ss, hss⟩ := exists_literals (v :: items) h
    exact ⟨_, by rw [literal, hss]; rfl; simp⟩

/-- The values of a list, one after the other. -/
theorem exists_literals : ∀ vs : List Value, (∀ v ∈ vs, v.HasShortIntegers) →
    ∃ ss, literals vs = .ok ss
  | [], _ => ⟨_, rfl⟩
  | v :: vs, h => by
    obtain ⟨hv, hvs⟩ := List.forall_mem_cons.1 h
    obtain ⟨s, hs⟩ := exists_literal v hv
    obtain ⟨ss, hss⟩ := exists_literals vs hvs
    exact ⟨_, by rw [literals, hs, hss]; rfl⟩

/-- The entries of a mapping, the key of each before its value. -/
theorem exists_entryLiterals : ∀ es : List (Value × Value),
    (∀ e ∈ es, e.1.HasShortIntegers ∧ e.2.HasShortIntegers) → ∃ ss, entryLiterals es = .ok ss
  | [], _ => ⟨_, rfl⟩
  | (k, v) :: es, h => by
    obtain ⟨⟨hk, hv⟩, hes⟩ := List.forall_mem_cons.1 h
    obtain ⟨s, hs⟩ := exists_literal k hk
    obtain ⟨t, ht⟩ := exists_literal v hv
    obtain ⟨ss, hss⟩ := exists_entryLiterals es hes
    exact ⟨_, by rw [entryLiterals, hs, ht, hss]; rfl⟩

end

mutual

/-- A literal shows every integer in the value, so a value that has one has short integers. -/
theorem hasShortIntegers_of_literal : ∀ (v : Value) {s : String}, v.literal = .ok s →
    v.HasShortIntegers
  | null, _, _ | bool _, _, _ | real _, _, _ | text _, _, _ | bytes _, _, _ | date _, _, _
  | moment _, _, _ => by simp [HasShortIntegers]
  | int n, _, h => by
    rw [HasShortIntegers]
    refine Nat.le_of_not_lt fun hlong => ?_
    exact nomatch (if_pos hlong).symm.trans h
  | list items, _, h => by
    rw [literal] at h
    obtain ⟨ss, hss, -⟩ := bind_eq_ok_iff.1 h
    rw [HasShortIntegers]
    exact hasShortIntegers_of_literals items hss
  | tuple [], _, _ => by
    rw [HasShortIntegers]
    exact List.forall_mem_nil _
  | tuple [item], _, h => by
    rw [literal] at h
    obtain ⟨s, hs, -⟩ := bind_eq_ok_iff.1 h
    rw [HasShortIntegers, List.forall_mem_singleton]
    exact hasShortIntegers_of_literal item hs
  | tuple (v :: w :: items), _, h => by
    rw [literal] at h
    · obtain ⟨ss, hss, -⟩ := bind_eq_ok_iff.1 h
      rw [HasShortIntegers]
      exact hasShortIntegers_of_literals (v :: w :: items) hss
    all_goals simp
  | mapping entries, _, h => by
    rw [literal] at h
    obtain ⟨ss, hss, -⟩ := bind_eq_ok_iff.1 h
    rw [HasShortIntegers]
    exact hasShortIntegers_of_entryLiterals entries hss
  | set [], _, _ => by
    rw [HasShortIntegers]
    exact List.forall_mem_nil _
  | set (v :: items), _, h => by
    rw [literal] at h
    · obtain ⟨ss, hss, -⟩ := bind_eq_ok_iff.1 h
      rw [HasShortIntegers]
      exact hasShortIntegers_of_literals (v :: items) hss
    · simp

/-- The values of a list, one after the other. -/
theorem hasShortIntegers_of_literals : ∀ (vs : List Value) {ss : List String},
    literals vs = .ok ss → ∀ v ∈ vs, v.HasShortIntegers
  | [], _, _ => List.forall_mem_nil _
  | v :: vs, _, h => by
    rw [literals] at h
    obtain ⟨s, hs, h⟩ := bind_eq_ok_iff.1 h
    obtain ⟨ss, hss, -⟩ := bind_eq_ok_iff.1 h
    exact List.forall_mem_cons.2
      ⟨hasShortIntegers_of_literal v hs, hasShortIntegers_of_literals vs hss⟩

/-- The entries of a mapping. -/
theorem hasShortIntegers_of_entryLiterals : ∀ (es : List (Value × Value)) {ss : List String},
    entryLiterals es = .ok ss → ∀ e ∈ es, e.1.HasShortIntegers ∧ e.2.HasShortIntegers
  | [], _, _ => List.forall_mem_nil _
  | (k, v) :: es, _, h => by
    rw [entryLiterals] at h
    obtain ⟨s, hs, h⟩ := bind_eq_ok_iff.1 h
    obtain ⟨t, ht, h⟩ := bind_eq_ok_iff.1 h
    obtain ⟨ss, hss, -⟩ := bind_eq_ok_iff.1 h
    exact List.forall_mem_cons.2
      ⟨⟨hasShortIntegers_of_literal k hs, hasShortIntegers_of_literal v ht⟩,
        hasShortIntegers_of_entryLiterals es hss⟩

end

/-- **Which values have a literal.** -/
theorem exists_literal_iff {v : Value} : (∃ s, v.literal = .ok s) ↔ v.HasShortIntegers :=
  ⟨fun ⟨_, h⟩ => hasShortIntegers_of_literal v h, exists_literal v⟩

/-- The literal of a value with short integers. -/
def literalText (v : Value) : String := v.literal.toOption.getD ""

/-- The text of a value with short integers. -/
def shownText (v : Value) : String := v.shown.toOption.getD ""

/-- The literal is the text that is asked for by name. -/
theorem literal_eq {v : Value} (h : v.HasShortIntegers) : v.literal = .ok v.literalText := by
  obtain ⟨s, hs⟩ := exists_literal v h
  rw [literalText, hs]
  rfl

/-- A text is shown as it is, and so is a date; any other value is shown by its literal. -/
theorem shown_eq {v : Value} (h : v.HasShortIntegers) : v.shown = .ok v.shownText := by
  have hother : v.shown = v.literal → v.shown = .ok v.shownText := by
    intro heq
    rw [shownText, heq, literal_eq h]
    rfl
  cases v with
  | text s | date d | moment m => rfl
  | _ => exact hother rfl

end TreeSchema.Value
