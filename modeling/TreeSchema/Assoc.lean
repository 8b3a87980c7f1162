/-!
# Ordered associations

A list of pairs in which a key keeps the place where it first came. Both ways of adding a pair are
one operation, `alter`: an assignment takes the new value, a first entry keeps the old one. Keys are
compared by a test that the caller gives, since not every kind of key has an equality.
-/

namespace TreeSchema.Assoc

variable {κ α : Type}

/-- Changes the value at the first key that passes the test, or adds `key` at the end when none
does. -/
def alter (same : κ → Bool) (key : κ) (f : Option α → α) : List (κ × α) → List (κ × α)
  | [] => [(key, f none)]
  | (k, a) :: m => if same k then (k, f (some a)) :: m else (k, a) :: alter same key f m

/-- The value at the first key that passes the test. -/
def find? (same : κ → Bool) : List (κ × α) → Option α
  | [] => none
  | (k, a) :: m => if same k then some a else find? same m

/-- Altering a key leaves every value that another test finds, if the two tests never agree. -/
theorem find?_alter_of_disjoint {same other : κ → Bool} {key : κ} {f : Option α → α}
    (h : ∀ k, same k = true → other k = false) (hk : other key = false) (m : List (κ × α)) :
    find? other (alter same key f m) = find? other m := by
  induction m with
  | nil => simp [alter, find?, hk]
  | cons p m ih =>
    obtain ⟨k, a⟩ := p
    by_cases hs : same k = true
    · simp [alter, find?, hs, h k hs]
    · simp [alter, find?, hs, ih]

/-- The altered key holds what the change makes of its old value. -/
theorem find?_alter_self {same : κ → Bool} {key : κ} {f : Option α → α} (hk : same key = true)
    (m : List (κ × α)) : find? same (alter same key f m) = some (f (find? same m)) := by
  induction m with
  | nil => simp [alter, find?, hk]
  | cons p m ih =>
    obtain ⟨k, a⟩ := p
    by_cases hs : same k = true
    · simp [alter, find?, hs]
    · simp [alter, find?, hs, ih]

/-- Of two lists in a row the first one is searched first. -/
theorem find?_append (same : κ → Bool) (m n : List (κ × α)) :
    find? same (m ++ n) = (find? same m).or (find? same n) := by
  induction m with
  | nil => rfl
  | cons p m ih =>
    rw [List.cons_append, find?, find?, ih]
    split <;> rfl

/-- Entries that are left out leave what is found, if none of their keys passes the test. -/
theorem find?_filter {same : κ → Bool} {keep : κ × α → Bool} {m : List (κ × α)}
    (h : ∀ e ∈ m, keep e = false → same e.1 = false) :
    find? same (m.filter keep) = find? same m := by
  induction m with
  | nil => rfl
  | cons e m ih =>
    have htail := ih fun e he => h e (.tail _ he)
    cases hkeep : keep e with
    | true =>
      rw [List.filter_cons_of_pos hkeep, find?, find?, htail]
    | false =>
      rw [List.filter_cons_of_neg (by simp [hkeep]), htail, find?, h e (.head _) hkeep]
      rfl

/-- Where no key passes the test, nothing is found. -/
theorem find?_eq_none_of_forall {same : κ → Bool} {m : List (κ × α)}
    (h : ∀ e ∈ m, same e.1 = false) : find? same m = none := by
  induction m with
  | nil => rfl
  | cons e m ih =>
    rw [find?, h e (.head _)]
    exact ih fun e he => h e (.tail _ he)

/-- A key that is not there yet is added at the end. -/
theorem alter_eq_append {same : κ → Bool} {m : List (κ × α)} (h : ∀ e ∈ m, same e.1 = false)
    (key : κ) (f : Option α → α) : alter same key f m = m ++ [(key, f none)] := by
  induction m with
  | nil => rfl
  | cons e m ih =>
    rw [alter, h e (.head _), ih fun e he => h e (.tail _ he)]
    rfl

/-- What is found stands in the list, under a key that passes the test. -/
theorem mem_of_find? {same : κ → Bool} {m : List (κ × α)} {a : α} (h : find? same m = some a) :
    ∃ k, same k = true ∧ (k, a) ∈ m := by
  induction m with
  | nil => cases h
  | cons p m ih =>
    obtain ⟨k, b⟩ := p
    by_cases hs : same k = true
    · rw [find?, if_pos hs] at h
      cases h
      exact ⟨k, hs, .head _⟩
    · rw [find?, if_neg hs] at h
      obtain ⟨j, hj, hmem⟩ := ih h
      exact ⟨j, hj, .tail _ hmem⟩

/-- Where one key at most passes the test, what is found is what stands under it. -/
theorem find?_eq_some_iff_mem {same : κ → Bool} {m : List (κ × α)}
    (h : m.Pairwise fun p q => ¬ (same p.1 = true ∧ same q.1 = true)) {a : α} :
    find? same m = some a ↔ ∃ k, same k = true ∧ (k, a) ∈ m := by
  refine ⟨mem_of_find?, ?_⟩
  rintro ⟨k, hk, hmem⟩
  induction m with
  | nil => exact absurd hmem List.not_mem_nil
  | cons p m ih =>
    obtain ⟨hhead, htail⟩ := List.pairwise_cons.1 h
    obtain rfl | hmem' := List.mem_cons.1 hmem
    · exact if_pos hk
    · exact (if_neg fun hp => hhead _ hmem' ⟨hp, hk⟩).trans (ih htail hmem')

/-- The same is found in a list whose pairs stand in another order, if one key at most passes the
test. -/
theorem find?_perm {same : κ → Bool} {m n : List (κ × α)} (hmn : m.Perm n)
    (h : m.Pairwise fun p q => ¬ (same p.1 = true ∧ same q.1 = true)) :
    find? same m = find? same n := by
  have hn : n.Pairwise fun p q => ¬ (same p.1 = true ∧ same q.1 = true) :=
    (hmn.pairwise_iff fun hpq hqp => hpq hqp.symm).1 h
  refine Option.ext fun a => ?_
  rw [find?_eq_some_iff_mem h, find?_eq_some_iff_mem hn]
  simp only [hmn.mem_iff]

end TreeSchema.Assoc
