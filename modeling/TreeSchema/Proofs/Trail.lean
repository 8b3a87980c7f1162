/-!
# Trails

A trail is the sequence of positions at which a walk goes down from the root of a tree. A walk that
takes the positions of a node from left to right comes to trails in lexicographic order
(`Trail.Before`), and what it meets is listed in this order (`Trail.Ordered`) when the lists of the
branches are (`Trail.ordered_branches`). Of a list in order, `Trail.find?_eq_some_iff` says which
entry comes first, and `Trail.pairwise_eraseDups` in which order the keys of the entries first come.

Nothing here is about schemas. A walk of any tree has the two parts: what it lists for a node is put
together from what it lists for the children, each under the position of the child
(`Trail.branches`), and what is read off the list afterwards depends on the order alone.

An entry may be there twice, and with the same trail: a type expression has a finding for every
wrong pair of a container, and they are one finding. So the order is not strict. Two entries are in
order if the one trail comes before the other, or if they are the same entry, and then it does not
matter which of them is taken for the first.
-/

namespace TreeSchema

/-- The positions of the steps from a root down. -/
abbrev Trail := List Nat

namespace Trail

variable {α κ : Type}

/-- **The order of a walk**: a trail comes before another one if it does at the first position where
they differ, or if it ends there. -/
def Before (t u : Trail) : Prop := List.Lex (· < ·) t u

/-- A position that two trails begin with does not count. -/
theorem before_cons_iff {i : Nat} {t u : Trail} : Before (i :: t) (i :: u) ↔ Before t u := by
  constructor
  · intro h
    cases h with
    | cons h => exact h
    | rel h => exact absurd h (Nat.lt_irrefl i)
  · exact fun h => .cons h

/-- At the first position the lesser one comes before the greater. -/
theorem before_of_lt {i j : Nat} (h : i < j) (t u : Trail) : Before (i :: t) (j :: u) :=
  .rel h

/-- No trail comes before itself. -/
theorem not_before_self (t : Trail) : ¬ Before t t := by
  induction t with
  | nil => exact fun h => nomatch h
  | cons i t ih => exact fun h => ih (before_cons_iff.1 h)

/-- The order is transitive. -/
theorem Before.trans {t u w : Trail} (h : Before t u) (h' : Before u w) : Before t w := by
  induction h generalizing w with
  | nil => cases h' <;> exact .nil
  | rel hij =>
    cases h' with
    | rel hjk => exact .rel (Nat.lt_trans hij hjk)
    | cons _ => exact .rel hij
  | cons _ ih =>
    cases h' with
    | rel hjk => exact .rel hjk
    | cons h' => exact .cons (ih h')

/-- Entries listed in the order of their trails, where an entry may be repeated. -/
def Ordered (l : List (Trail × α)) : Prop :=
  l.Pairwise fun a b => Before a.1 b.1 ∨ a = b

/-- Entries that are left out do not disturb the order. -/
theorem Ordered.filter {l : List (Trail × α)} (h : Ordered l) (p : Trail × α → Bool) :
    Ordered (l.filter p) :=
  List.Pairwise.filter p h

/-! ## Branches

The branches of a node are numbered from zero. In an induction on the list of branches the numbers
go on, so the statements are made from any number on and then taken from zero. -/

/-- The entries of branches from position `i` on, each under the position of its branch. -/
def branchesFrom (i : Nat) : List (List (Trail × α)) → List (Trail × α)
  | [] => []
  | l :: ls => l.map (fun a => (i :: a.1, a.2)) ++ branchesFrom (i + 1) ls

/-- The entries of branches, one branch after the other. -/
def branches (ls : List (List (Trail × α))) : List (Trail × α) := branchesFrom 0 ls

/-- An entry of a branch stands under the position of the branch. -/
theorem mem_branchesFrom {i : Nat} {ls : List (List (Trail × α))} {t : Trail} {x : α} :
    (t, x) ∈ branchesFrom i ls
      ↔ ∃ j u l, t = (i + j) :: u ∧ ls[j]? = some l ∧ (u, x) ∈ l := by
  induction ls generalizing i with
  | nil => simp [branchesFrom]
  | cons l ls ih =>
    rw [branchesFrom, List.mem_append, List.mem_map, ih]
    constructor
    · rintro (⟨⟨u, y⟩, hu, heq⟩ | ⟨j, u, l', rfl, hl, hu⟩)
      · cases heq
        exact ⟨0, u, l, rfl, rfl, hu⟩
      · exact ⟨j + 1, u, l', by rw [Nat.add_assoc, Nat.add_comm 1 j], hl, hu⟩
    · rintro ⟨j, u, l', rfl, hl, hu⟩
      cases j with
      | zero =>
        cases hl
        exact .inl ⟨(u, x), hu, rfl⟩
      | succ j =>
        exact .inr ⟨j, u, l', by rw [Nat.add_assoc, Nat.add_comm 1 j], hl, hu⟩

/-- An entry of a branch stands under the position of the branch. -/
theorem mem_branches {ls : List (List (Trail × α))} {t : Trail} {x : α} :
    (t, x) ∈ branches ls ↔ ∃ i u l, t = i :: u ∧ ls[i]? = some l ∧ (u, x) ∈ l := by
  rw [branches, mem_branchesFrom]
  simp only [Nat.zero_add]

/-- Without their trails the entries are those of each branch in turn. -/
theorem map_snd_branchesFrom (i : Nat) (ls : List (List (Trail × α))) :
    (branchesFrom i ls).map Prod.snd = (ls.map (List.map Prod.snd)).flatten := by
  induction ls generalizing i with
  | nil => rfl
  | cons l ls ih =>
    rw [branchesFrom, List.map_append, List.map_map, ih]
    rfl

/-- Without their trails the entries of branches are those of each branch in turn. -/
theorem map_snd_branches (ls : List (List (Trail × α))) :
    (branches ls).map Prod.snd = (ls.map (List.map Prod.snd)).flatten :=
  map_snd_branchesFrom 0 ls

/-- Branches in order, one after the other, are in order. -/
theorem ordered_branchesFrom {i : Nat} {ls : List (List (Trail × α))}
    (h : ∀ l ∈ ls, Ordered l) : Ordered (branchesFrom i ls) := by
  induction ls generalizing i with
  | nil => exact .nil
  | cons l ls ih =>
    refine List.pairwise_append.2 ⟨?_, ih fun l' hl' => h l' (.tail _ hl'), ?_⟩
    · refine List.pairwise_map.2 ((h l (.head _)).imp fun hab => ?_)
      obtain hab | rfl := hab
      · exact .inl (before_cons_iff.2 hab)
      · exact .inr rfl
    · rintro a ha ⟨t, x⟩ hb
      obtain ⟨c, -, rfl⟩ := List.mem_map.1 ha
      obtain ⟨j, u, l', rfl, -, -⟩ := mem_branchesFrom.1 hb
      exact .inl (before_of_lt (by omega) _ _)

/-- **A walk from left to right goes in order** if it does in each branch. -/
theorem ordered_branches {ls : List (List (Trail × α))} (h : ∀ l ∈ ls, Ordered l) :
    Ordered (branches ls) :=
  ordered_branchesFrom h

/-! ## What comes first -/

/-- **The first entry that passes a test** is the one with the earliest trail. -/
theorem find?_eq_some_iff {l : List (Trail × α)} (h : Ordered l) {p : α → Bool} {x : α} :
    (l.map Prod.snd).find? p = some x
      ↔ ∃ t, (t, x) ∈ l ∧ p x = true ∧ ∀ b ∈ l, p b.2 = true → t = b.1 ∨ Before t b.1 := by
  induction l with
  | nil => simp
  | cons a l ih =>
    obtain ⟨hhead, htail⟩ := List.pairwise_cons.1 h
    rw [List.map_cons, List.find?_cons]
    by_cases hp : p a.2 = true
    · rw [hp]
      constructor
      · rintro ⟨⟩
        refine ⟨a.1, .head _, hp, fun b hb _ => ?_⟩
        obtain rfl | hb := List.mem_cons.1 hb
        · exact .inl rfl
        · exact (hhead b hb).symm.imp (congrArg Prod.fst) id
      · rintro ⟨t, hx, -, hfirst⟩
        obtain rfl | hx' := List.mem_cons.1 hx
        · rfl
        · have hta := hfirst a (.head _) hp
          -- The head passes as well, so an entry behind it comes first only as a repetition of it.
          obtain hat | rfl := hhead _ hx'
          · obtain rfl | hta := hta
            · exact absurd hat (not_before_self _)
            · exact absurd (hat.trans hta) (not_before_self _)
          · rfl
    · rw [eq_false_of_ne_true hp]
      refine (ih htail).trans ⟨?_, ?_⟩
      · rintro ⟨t, hx, hpx, hfirst⟩
        refine ⟨t, .tail _ hx, hpx, fun b hb hpb => ?_⟩
        obtain rfl | hb := List.mem_cons.1 hb
        · exact absurd hpb hp
        · exact hfirst b hb hpb
      · rintro ⟨t, hx, hpx, hfirst⟩
        obtain rfl | hx := List.mem_cons.1 hx
        · exact absurd hpx hp
        · exact ⟨t, hx, hpx, fun b hb => hfirst b (.tail _ hb)⟩

/-- **Keys first come in the order of the trails**: if one key first comes before another one does,
the earliest entry of the one is before every entry of the other. -/
theorem pairwise_eraseDups [DecidableEq κ] {l : List (Trail × α)} (h : Ordered l) (k : α → κ) :
    (l.map fun a => k a.2).eraseDups.Pairwise fun x y =>
      ∃ a ∈ l, k a.2 = x ∧ ∀ b ∈ l, k b.2 = y → Before a.1 b.1 := by
  -- The entries with the first key are dropped before the next key is looked for, so the recursion
  -- is on a shorter list that is no tail of `l`.
  match l with
  | [] => exact .nil
  | a :: l =>
    obtain ⟨hhead, htail⟩ := List.pairwise_cons.1 h
    have hrest : (l.map fun b => k b.2).filter (fun y => !y == k a.2)
        = (l.filter fun b => !k b.2 == k a.2).map fun b => k b.2 := by
      rw [List.filter_map]
      rfl
    rw [List.map_cons, List.eraseDups_cons, hrest]
    have hother : ∀ y ∈ ((l.filter fun b => !k b.2 == k a.2).map fun b => k b.2).eraseDups,
        k a.2 ≠ y := by
      intro y hy hay
      obtain ⟨b, hb, rfl⟩ := List.mem_map.1 (List.mem_eraseDups.1 hy)
      simp [hay] at hb
    refine List.pairwise_cons.2 ⟨fun y hy => ⟨a, .head _, rfl, fun b hb hby => ?_⟩, ?_⟩
    · obtain rfl | hb := List.mem_cons.1 hb
      · exact absurd hby (hother y hy)
      · refine (hhead b hb).resolve_right fun hab => ?_
        exact hother y hy (hab ▸ hby)
    · have hlen : (l.filter fun b => !k b.2 == k a.2).length < (a :: l).length :=
        Nat.lt_succ_of_le (List.length_filter_le _ _)
      refine (pairwise_eraseDups (htail.filter _) k).imp_of_mem fun {x y} _ hy hxy => ?_
      obtain ⟨c, hc, hcx, hfirst⟩ := hxy
      refine ⟨c, .tail _ ((List.mem_filter.1 hc).1), hcx, fun b hb hby => ?_⟩
      obtain rfl | hb := List.mem_cons.1 hb
      · exact absurd hby (hother y hy)
      · refine hfirst b (List.mem_filter.2 ⟨hb, ?_⟩) hby
        simpa [hby] using (hother y hy).symm
termination_by l.length
decreasing_by exact hlen

end Trail

end TreeSchema
