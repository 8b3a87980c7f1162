import TreeSchema.Json.Basic
import TreeSchema.Proofs.Description

/-!
# Mappings with distinct keys

The keys of a mapping differ. This is not asked of a list of entries, but a mapping that is built by
assignments has distinct keys (`Value.hasDistinctKeys_ofAssignments`), since an assignment to a key
that is there already keeps its place. Documents are built in this way: an object of JSON may repeat
a name, and the data tree of it has distinct keys all the same (`Json.hasDistinctKeys_toValue`).

That two keys differ means that neither is the same key as the other, which is not that they are
different values: the integer one, the truth value and the real number are one key. So the condition
is on `sameKey`, and it is asked of the keys in pairs. What an assignment does to the keys is said
for any such test and any relation on keys (`Assoc.pairwise_alter`), with the one thing that ties
them: a key that does not pass the test is related to the key that is assigned to.

Whatever a field finds in a value with distinct keys has distinct keys again
(`Value.HasDistinctKeys.of_field?`), and it is what stands under its key (`Value.at?_eq_some_iff`),
wherever that is. This is the reason for the notion: with it a mapping is known from the set of its
entries, so that their order plays no part in what is found (`Value.at?_perm`).
-/

namespace TreeSchema

/-- Altering a key keeps the keys, or adds the key at the end where none passes the test. -/
theorem Assoc.map_fst_alter_cases {κ α : Type} (same : κ → Bool) (key : κ) (f : Option α → α)
    (m : List (κ × α)) :
    (alter same key f m).map Prod.fst = m.map Prod.fst
      ∨ (∀ e ∈ m, same e.1 = false) ∧
          (alter same key f m).map Prod.fst = m.map Prod.fst ++ [key] := by
  by_cases h : ∀ e ∈ m, same e.1 = false
  · refine .inr ⟨h, ?_⟩
    rw [alter_eq_append h, List.map_append, List.map_singleton]
  · refine .inl ?_
    induction m with
    | nil => exact absurd (List.forall_mem_nil _) h
    | cons e m ih =>
      obtain ⟨k, a⟩ := e
      rw [alter]
      split
      · rfl
      · rename_i hk
        rw [List.forall_mem_cons, not_and] at h
        rw [List.map_cons, List.map_cons, ih (h (Bool.eq_false_iff.2 hk))]

/-- Keys that are related pairwise stay so, if a key that does not pass the test is related to the
one that is altered. -/
theorem Assoc.pairwise_alter {κ α : Type} {R : κ → κ → Prop} {same : κ → Bool} {key : κ}
    {f : Option α → α} {m : List (κ × α)} (h : (m.map Prod.fst).Pairwise R)
    (hR : ∀ k, same k = false → R k key) : ((alter same key f m).map Prod.fst).Pairwise R := by
  obtain hkeys | ⟨hnew, hkeys⟩ := map_fst_alter_cases same key f m
  · rwa [hkeys]
  · rw [hkeys]
    refine List.pairwise_append.2 ⟨h, List.pairwise_singleton _ _, fun k hk l hl => ?_⟩
    obtain ⟨e, he, rfl⟩ := List.mem_map.1 hk
    rw [List.mem_singleton.1 hl]
    exact hR e.1 (hnew e he)

/-- The keys to which values were assigned, one after the other, are related pairwise. -/
theorem Assoc.pairwise_foldl_alter {κ α : Type} {R : κ → κ → Prop} {same : κ → κ → Bool}
    (hR : ∀ key k, same key k = false → R k key) (pairs : List (κ × α)) :
    ((pairs.foldl (fun m p => alter (same p.1) p.1 (fun _ => p.2) m) []).map Prod.fst).Pairwise
      R := by
  have hfold : ∀ m : List (κ × α), (m.map Prod.fst).Pairwise R →
      ((pairs.foldl (fun m p => alter (same p.1) p.1 (fun _ => p.2) m) m).map
        Prod.fst).Pairwise R := by
    induction pairs with
    | nil => exact fun m hm => hm
    | cons p pairs ih => exact fun m hm => ih _ (pairwise_alter hm (hR p.1))
  exact hfold [] .nil

/-- After an assignment an entry is as it was, or has the assigned value. -/
theorem Assoc.mem_alter {κ α : Type} {same : κ → Bool} {key : κ} {a : α} {m : List (κ × α)}
    {e : κ × α} (h : e ∈ alter same key (fun _ => a) m) : e ∈ m ∨ e.2 = a := by
  induction m with
  | nil =>
    rw [alter, List.mem_singleton] at h
    exact .inr (by rw [h])
  | cons p m ih =>
    obtain ⟨k, b⟩ := p
    rw [alter] at h
    split at h
    · obtain rfl | h := List.mem_cons.1 h
      · exact .inr rfl
      · exact .inl (.tail _ h)
    · obtain rfl | h := List.mem_cons.1 h
      · exact .inl (.head _)
      · exact (ih h).imp (.tail _) id

namespace Value

/-- **Whether the keys of every mapping in a value differ**, at any depth among items and values. -/
def HasDistinctKeys : Value → Prop
  | list items | tuple items => ∀ v ∈ items, v.HasDistinctKeys
  | mapping entries => (entries.map Prod.fst).Pairwise (fun k l => k.sameKey l = false) ∧
      ∀ e ∈ entries, e.2.HasDistinctKeys
  | _ => True
termination_by v => sizeOf v
decreasing_by
  · exact sizeOf_lt_of_mem_list ‹v ∈ items›
  · exact sizeOf_lt_of_mem_tuple ‹v ∈ items›
  · exact sizeOf_lt_of_mem ‹e ∈ entries›

/-- An assignment keeps the keys of a mapping distinct: a new one is none of those there already. -/
theorem hasDistinctKeys_assign {entries : List (Value × Value)}
    (h : (mapping entries).HasDistinctKeys) (key : Value) {value : Value}
    (hvalue : value.HasDistinctKeys) : (mapping (assign entries key value)).HasDistinctKeys := by
  rw [HasDistinctKeys] at h ⊢
  unfold assign
  refine ⟨?_, fun f hf => ?_⟩
  · exact Assoc.pairwise_alter h.1 fun k hk => (sameKey_comm k key).trans hk
  · obtain hf | hf := Assoc.mem_alter hf
    · exact h.2 f hf
    · rw [hf]
      exact hvalue

/-- **The mapping that assignments build has distinct keys**, if all the values have. -/
theorem hasDistinctKeys_ofAssignments {entries : List (Value × Value)}
    (h : ∀ e ∈ entries, e.2.HasDistinctKeys) : (ofAssignments entries).HasDistinctKeys := by
  have hfold : ∀ m : List (Value × Value), (mapping m).HasDistinctKeys →
      (mapping (entries.foldl (fun m e => assign m e.1 e.2) m)).HasDistinctKeys := by
    induction entries with
    | nil => exact fun m hm => hm
    | cons e entries ih =>
      obtain ⟨he, hrest⟩ := List.forall_mem_cons.1 h
      exact fun m hm => ih hrest _ (hasDistinctKeys_assign hm e.1 he)
  refine hfold [] ?_
  rw [HasDistinctKeys]
  exact ⟨.nil, List.forall_mem_nil _⟩

/-- One key at most of a mapping is the same as a given one, if its keys differ. -/
theorem pairwise_not_same {entries : List (Value × Value)}
    (h : (entries.map Prod.fst).Pairwise fun k l => k.sameKey l = false) (key : Value) :
    entries.Pairwise fun e f => ¬ (key.sameKey e.1 = true ∧ key.sameKey f.1 = true) := by
  refine (List.pairwise_map.1 h).imp fun hdiffer hboth => ?_
  rw [sameKey_comm key] at hboth
  exact absurd (sameKey_trans hboth.1 hboth.2) (ne_true_of_eq_false hdiffer)

/-- **What a mapping with distinct keys holds under a key** is what stands under it. -/
theorem at?_eq_some_iff {entries : List (Value × Value)}
    (h : (entries.map Prod.fst).Pairwise fun k l => k.sameKey l = false) {key x : Value} :
    (mapping entries).at? key = some x ↔ ∃ k, key.sameKey k = true ∧ (k, x) ∈ entries :=
  Assoc.find?_eq_some_iff_mem (pairwise_not_same h key)

/-- The order of the entries does not matter to what it holds. -/
theorem at?_perm {entries others : List (Value × Value)} (hperm : entries.Perm others)
    (h : (entries.map Prod.fst).Pairwise fun k l => k.sameKey l = false) (key : Value) :
    (mapping entries).at? key = (mapping others).at? key :=
  Assoc.find?_perm hperm (pairwise_not_same h key)

/-- What a container holds under a key stands in one of its pairs. -/
theorem exists_mem_pairs_of_at? {c key x : Value} (h : c.at? key = some x) :
    ∃ ps q, c.pairs? = some ps ∧ q ∈ ps ∧ q.2 = x := by
  cases c with
  | mapping entries =>
    obtain ⟨k, -, hmem⟩ := Assoc.mem_of_find? h
    exact ⟨entries, (k, x), rfl, hmem, rfl⟩
  | list items | tuple items =>
    cases key with
    | int i =>
      rw [at?] at h
      obtain ⟨-, hi⟩ := Option.ite_none_right_eq_some.1 h
      refine ⟨_, (.int i.toNat, x), rfl, List.mem_map.2 ⟨(x, i.toNat), ?_, rfl⟩, rfl⟩
      exact List.mk_mem_zipIdx_iff_getElem?.2 hi
    | _ => cases h
  | _ => cases h

/-- What a container holds for a field stands in one of its pairs. -/
theorem exists_mem_pairs_of_field? {c key x : Value} (h : c.field? key = some x) :
    ∃ ps q, c.pairs? = some ps ∧ q ∈ ps ∧ q.2 = x := by
  obtain h | ⟨-, h⟩ := Option.or_eq_some_iff.1 h
  · exact exists_mem_pairs_of_at? h
  · obtain ⟨other, -, h⟩ := Option.bind_eq_some_iff.1 h
    exact exists_mem_pairs_of_at? h

namespace HasDistinctKeys

variable {c : Value}

/-- What the pairs of a container hold has distinct keys, as the container has. -/
theorem of_pairs (h : c.HasDistinctKeys) {ps : List (Value × Value)} (hps : c.pairs? = some ps) :
    ∀ q ∈ ps, q.2.HasDistinctKeys := by
  cases c with
  | mapping entries =>
    cases hps
    rw [HasDistinctKeys] at h
    exact h.2
  | list items | tuple items =>
    cases hps
    rw [HasDistinctKeys] at h
    intro q hq
    obtain ⟨⟨v, j⟩, hv, rfl⟩ := List.mem_map.1 hq
    exact h v (List.fst_mem_of_mem_zipIdx hv)
  | _ => cases hps

/-- What a field finds has distinct keys. -/
theorem of_field? (h : c.HasDistinctKeys) {key x : Value} (hx : c.field? key = some x) :
    x.HasDistinctKeys := by
  obtain ⟨ps, q, hps, hq, rfl⟩ := exists_mem_pairs_of_field? hx
  exact h.of_pairs hps q hq

end HasDistinctKeys

end Value

namespace Json

mutual

/-- **The data tree of a document of JSON has distinct keys**, be there repeated names in it
or not. -/
theorem hasDistinctKeys_toValue : ∀ j : Json, j.toValue.HasDistinctKeys
  | null | bool _ | int _ | real _ | text _ => by simp [toValue, Value.HasDistinctKeys]
  | array items => by
    rw [toValue, Value.HasDistinctKeys]
    exact hasDistinctKeys_toValues items
  | object members => by
    rw [toValue]
    exact Value.hasDistinctKeys_ofAssignments (hasDistinctKeys_toEntries members)

/-- The items of an array. -/
theorem hasDistinctKeys_toValues : ∀ js : List Json, ∀ v ∈ toValues js, v.HasDistinctKeys
  | [] => List.forall_mem_nil _
  | j :: js => List.forall_mem_cons.2 ⟨hasDistinctKeys_toValue j, hasDistinctKeys_toValues js⟩

/-- The members of an object. They are entries before they are assigned, so only the values are
asked for. -/
theorem hasDistinctKeys_toEntries : ∀ ms : List (String × Json), ∀ e ∈ toEntries ms,
    e.2.HasDistinctKeys
  | [] => List.forall_mem_nil _
  | (_, j) :: ms =>
    List.forall_mem_cons.2 ⟨hasDistinctKeys_toValue j, hasDistinctKeys_toEntries ms⟩

end

end Json

end TreeSchema
