import Mathlib.Data.List.Nodup
import TreeSchema.Matching
import TreeSchema.Proofs.FirstCome

/-!
# Merging and relocating reports

A report can be put together from others in two ways. Two reports are merged (`Report.merge`): what
the first one tells of keeps its place and its messages, and what only the second one tells of
follows in its order. A report is relocated under a key (`Report.relocate`): its paths are taken to
begin there. Both are statements about the rows alone. The report of a list of findings follows
them: merging the reports of two lists gives the report of the lists one after the other
(`Report.merge_ofFindings`), and relocating a report gives the report of the relocated findings
(`Report.relocate_ofFindings`).

So reports are as good as lists of findings for putting checks together. A caller that has the
reports on two containers has all that is needed for the report on the two in one, the messages and
the order included, though the findings themselves are gone.

Reports are associations of associations, and one definition merges both levels (`Assoc.merge`).
That it commutes with adding a finding rests on keys being there once: associations without repeated
keys are equal if they have the same keys in the same order and give each of them the same value
(`Assoc.ext`). With that a statement on rows comes apart into one on the order of keys and one on
look-ups, and each of the two is a short calculation.

Relocating does not add a point to the path of the root: the empty path becomes the key itself. No
two paths become one by this, since the key followed by a point is never the key
(`ne_relocatePath`). If they did, two rows would have one path, and the report of the relocated
findings would be another one.
-/

namespace TreeSchema

namespace Assoc

variable {κ α : Type} [BEq κ]

/-- **The merge of two associations.** The keys of the first one keep their places, with the value
combined with the one that the second gives them, and the other keys of the second follow. -/
def merge (combine : α → α → α) (m n : List (κ × α)) : List (κ × α) :=
  (m.map fun e => (e.1, (find? (e.1 == ·) n).elim e.2 (combine e.2))) ++
    n.filter fun e => !(m.map Prod.fst).contains e.1

/-- Nothing to merge with. -/
theorem merge_nil (combine : α → α → α) (m : List (κ × α)) : merge combine m [] = m := by
  rw [merge, List.filter_nil, List.append_nil]
  exact List.map_id m

/-- Nothing to begin with. -/
theorem nil_merge (combine : α → α → α) (n : List (κ × α)) : merge combine [] n = n :=
  List.filter_eq_self.2 fun _ _ => rfl

/-- The keys of a merge: those of the first association, and the new ones of the second. -/
theorem map_fst_merge (combine : α → α → α) (m n : List (κ × α)) :
    (merge combine m n).map Prod.fst
      = m.map Prod.fst ++ (n.map Prod.fst).filter fun k => !(m.map Prod.fst).contains k := by
  rw [merge, List.map_append, List.map_map, List.filter_map]
  rfl

variable [LawfulBEq κ]

/-- Nothing is found under a key that is not there. -/
theorem find?_eq_none_iff {m : List (κ × α)} {k : κ} :
    find? (k == ·) m = none ↔ k ∉ m.map Prod.fst := by
  induction m with
  | nil => exact iff_of_true rfl List.not_mem_nil
  | cons p m ih =>
    rw [find?, List.map_cons, List.mem_cons, not_or, ← ih]
    by_cases hk : k = p.1
    · rw [if_pos (beq_iff_eq.2 hk)]
      exact iff_of_false (Option.some_ne_none _) fun h => h.1 hk
    · rw [if_neg (mt beq_iff_eq.1 hk)]
      exact (and_iff_right hk).symm

/-- What is found where every value is changed. -/
theorem find?_map {β : Type} (g : κ → α → β) (m : List (κ × α)) (k : κ) :
    find? (k == ·) (m.map fun e => (e.1, g e.1 e.2)) = (find? (k == ·) m).map (g k) := by
  induction m with
  | nil => rfl
  | cons p m ih =>
    rw [List.map_cons, find?, find?, ih]
    by_cases hk : k = p.1
    · rw [if_pos (beq_iff_eq.2 hk), if_pos (beq_iff_eq.2 hk), hk]
      rfl
    · rw [if_neg (mt beq_iff_eq.1 hk), if_neg (mt beq_iff_eq.1 hk)]

/-- Associations without repeated keys are equal if they have the same keys and values. -/
theorem ext {m n : List (κ × α)} (hm : (m.map Prod.fst).Nodup)
    (hkeys : m.map Prod.fst = n.map Prod.fst)
    (h : ∀ k, find? (k == ·) m = find? (k == ·) n) : m = n := by
  induction m generalizing n with
  | nil => exact (List.map_eq_nil_iff.1 hkeys.symm).symm
  | cons p m ih =>
    obtain ⟨k, a⟩ := p
    obtain ⟨⟨k', b⟩, n, rfl, rfl, hrest⟩ := List.map_eq_cons_iff.1 hkeys.symm
    obtain ⟨hk, hrestm⟩ := List.nodup_cons.1 hm
    have hhead := h k'
    rw [find?, find?, if_pos BEq.rfl, if_pos BEq.rfl] at hhead
    cases hhead
    refine congrArg _ (ih hrestm hrest.symm fun j => ?_)
    by_cases hj : j = k'
    · rw [hj, find?_eq_none_iff.2 hk, find?_eq_none_iff.2 (hrest.symm ▸ hk)]
    · have htail := h j
      rwa [find?, find?, if_neg (mt beq_iff_eq.1 hj), if_neg (mt beq_iff_eq.1 hj)] at htail

/-- What a merge holds under a key: the combined value, or the only one. -/
theorem find?_merge (combine : α → α → α) (m n : List (κ × α)) (k : κ) :
    find? (k == ·) (merge combine m n) = match find? (k == ·) m with
      | some a => some ((find? (k == ·) n).elim a (combine a))
      | none => find? (k == ·) n := by
  rw [merge, find?_append,
    find?_map (fun k a => (find? (k == ·) n).elim a (combine a)) m k]
  cases hk : find? (k == ·) m with
  | some a => rfl
  | none =>
    refine find?_filter fun e _ hdrop => ?_
    rw [find?_eq_none_iff] at hk
    refine beq_false_of_ne ?_
    rintro rfl
    simp [hk] at hdrop

/-- No key is repeated after altering one. -/
theorem nodup_alter {n : List (κ × α)} (hn : (n.map Prod.fst).Nodup) (key : κ)
    (f : Option α → α) : ((alter (key == ·) key f n).map Prod.fst).Nodup := by
  rw [map_fst_alter]
  split
  · exact hn
  · rename_i hkey
    rw [← List.concat_eq_append]
    exact hn.concat (mt List.contains_iff_mem.2 hkey)

/-- No key is repeated in a merge. -/
theorem nodup_merge {combine : α → α → α} {m n : List (κ × α)} (hm : (m.map Prod.fst).Nodup)
    (hn : (n.map Prod.fst).Nodup) : ((merge combine m n).map Prod.fst).Nodup := by
  rw [map_fst_merge]
  refine List.nodup_append.2 ⟨hm, hn.filter _, fun j hj k hk hjk => ?_⟩
  subst hjk
  simp [hj] at hk

/-- An altered key of the second association comes where an altered key of the merge comes. -/
theorem map_fst_merge_alter (combine : α → α → α) (key : κ) (f : Option α → α)
    (m n : List (κ × α)) :
    (merge combine m (alter (key == ·) key f n)).map Prod.fst
      = (alter (key == ·) key f (merge combine m n)).map Prod.fst := by
  rw [map_fst_merge, map_fst_alter, map_fst_alter, map_fst_merge]
  by_cases hm : key ∈ m.map Prod.fst <;> by_cases hn : key ∈ n.map Prod.fst <;>
    simp only [List.contains_iff_mem] <;> simp [hm, hn]

/-- **Merging commutes with altering a key of the second association**, if it does so on the values
of this key. -/
theorem merge_alter {combine : α → α → α} {key : κ} {f : Option α → α} {m n : List (κ × α)}
    (hm : (m.map Prod.fst).Nodup) (hn : (n.map Prod.fst).Nodup)
    (h : ∀ a, find? (key == ·) m = some a → combine a (f (find? (key == ·) n))
      = f (some ((find? (key == ·) n).elim a (combine a)))) :
    merge combine m (alter (key == ·) key f n) = alter (key == ·) key f (merge combine m n) := by
  refine ext (nodup_merge hm (nodup_alter hn key f)) (map_fst_merge_alter combine key f m n)
    fun k => ?_
  rw [find?_merge, find?_alter, find?_alter, find?_merge]
  by_cases hk : (k == key) = true
  · rw [if_pos hk, if_pos hk, eq_of_beq hk]
    cases hfound : find? (key == ·) m with
    | none => rfl
    | some a => exact congrArg some (h a hfound)
  · rw [if_neg hk, if_neg hk]

end Assoc

namespace Report

/-- The merge of the kinds at a path, where the messages of the first report count. -/
def mergeKinds (kinds others : List (ErrorKind × String)) : List (ErrorKind × String) :=
  Assoc.merge (fun message _ => message) kinds others

/-- **The merge of two reports.** Paths and kinds of the first one keep their places and messages,
and new ones follow in the order in which the second one has them. -/
def merge (r s : Report) : Report :=
  ⟨Assoc.merge mergeKinds r.rows s.rows⟩

/-- **The merge of reports, one after the other.** -/
def mergeAll (rs : List Report) : Report := rs.foldl merge empty

/-- Nothing to merge with. -/
theorem merge_empty (r : Report) : r.merge empty = r :=
  congrArg mk (Assoc.merge_nil _ r.rows)

/-- A merge is valid if both reports are. -/
theorem isValid_merge (r s : Report) :
    (r.merge s).isValid = true ↔ r.isValid = true ∧ s.isValid = true := by
  obtain ⟨rows⟩ := r
  cases rows with
  | nil =>
    rw [merge, Assoc.nil_merge]
    exact (and_iff_right rfl).symm
  | cons row rows => exact iff_of_false nofun nofun

/-- The message of the second report counts only where the first one has none. -/
theorem mergeKinds_alter {kinds others : List (ErrorKind × String)}
    (hkinds : (kinds.map Prod.fst).Nodup) (hothers : (others.map Prod.fst).Nodup)
    (kind : ErrorKind) (message : String) :
    mergeKinds kinds (Assoc.alter (kind == ·) kind (fun m => m.getD message) others)
      = Assoc.alter (kind == ·) kind (fun m => m.getD message) (mergeKinds kinds others) := by
  refine Assoc.merge_alter hkinds hothers fun first _ => ?_
  cases Assoc.find? (kind == ·) others <;> rfl

/-- **A finding that is added to the second report** is added to the merge. -/
theorem merge_add (fs gs : List Finding) (f : Finding) :
    (ofFindings fs).merge ((ofFindings gs).add f)
      = ((ofFindings fs).merge (ofFindings gs)).add f := by
  refine congrArg mk (Assoc.merge_alter (nodup_paths fs) (nodup_paths gs) fun kinds hkinds => ?_)
  have hfirst : (ofFindings fs).kindsAt f.path = kinds := by
    rw [kindsAt, hkinds]
    rfl
  have hnodup := nodup_kinds fs f.path
  rw [hfirst] at hnodup
  refine (mergeKinds_alter hnodup (nodup_kinds gs f.path) f.kind f.message).trans ?_
  -- The second report may tell of nothing at the path yet.
  rw [kindsAt]
  cases Assoc.find? (f.path == ·) (ofFindings gs).rows with
  | none => exact congrArg _ (Assoc.merge_nil _ kinds)
  | some others => rfl

/-- **The reports of two lists of findings merge** to the report of one list after the other. -/
theorem merge_ofFindings (fs gs : List Finding) :
    (ofFindings fs).merge (ofFindings gs) = ofFindings (fs ++ gs) := by
  induction gs using List.reverseRecOn with
  | nil => rw [List.append_nil]; exact merge_empty _
  | append_singleton gs f ih =>
    rw [ofFindings_concat, merge_add, ih, ← ofFindings_concat, List.append_assoc]

/-- **The reports of lists of findings merge** to the report of all of them. -/
theorem mergeAll_map_ofFindings {α : Type} (l : List α) (findings : α → List Finding) :
    mergeAll (l.map fun a => ofFindings (findings a)) = ofFindings (l.flatMap findings) := by
  induction l using List.reverseRecOn with
  | nil => rfl
  | append_singleton l a ih =>
    rw [List.flatMap_append, List.flatMap_singleton, ← merge_ofFindings, ← ih, mergeAll, mergeAll,
      List.map_append, List.foldl_append]
    rfl

end Report

/-! ## Relocation

Below a key every path begins with it. What is relocated is a path of its own, so the rows of a
report stay apart and keep their order. -/

/-- **A path taken to begin under a key.** The empty path, which is that of the root, becomes the
key. -/
def relocatePath (key path : String) : String :=
  if path.isEmpty then key else key ++ "." ++ path

/-- Below the root a path is put behind the key and a point. -/
theorem relocatePath_of_ne {path : String} (h : path ≠ "") (key : String) :
    relocatePath key path = key ++ "." ++ path :=
  if_neg (mt String.isEmpty_iff.1 h)

/-- The key itself begins no other path than that of the root. -/
theorem ne_relocatePath {path : String} (h : path ≠ "") (key : String) :
    key ≠ relocatePath key path := by
  rw [relocatePath_of_ne h]
  intro heq
  have hlength := congrArg String.length heq
  have hdot : ".".length = 1 := rfl
  rw [String.length_append, String.length_append] at hlength
  omega

/-- Different paths stay different. -/
theorem relocatePath_inj {key p q : String} (h : relocatePath key p = relocatePath key q) :
    p = q := by
  by_cases hp : p = ""
  · by_cases hq : q = ""
    · rw [hp, hq]
    · rw [hp] at h
      exact absurd h (ne_relocatePath hq key)
  · by_cases hq : q = ""
    · rw [hq] at h
      exact absurd h.symm (ne_relocatePath hp key)
    · rw [relocatePath_of_ne hp, relocatePath_of_ne hq] at h
      exact (String.append_right_inj _).1 h

/-- A finding under a key. -/
def Finding.relocate (key : String) (f : Finding) : Finding :=
  { f with path := relocatePath key f.path }

/-- **A report under a key.** -/
def Report.relocate (key : String) (r : Report) : Report :=
  ⟨r.rows.map fun row => (relocatePath key row.1, row.2)⟩

/-- Altering commutes with a change of the keys that keeps them apart. -/
theorem Assoc.alter_map {κ α : Type} [BEq κ] [LawfulBEq κ] {g : κ → κ}
    (hg : ∀ j k, g j = g k → j = k) (key : κ) (f : Option α → α) (m : List (κ × α)) :
    alter (g key == ·) (g key) f (m.map fun e => (g e.1, e.2))
      = (alter (key == ·) key f m).map fun e => (g e.1, e.2) := by
  induction m with
  | nil => rfl
  | cons p m ih =>
    rw [List.map_cons, alter, alter, ih]
    by_cases hk : key = p.1
    · rw [if_pos (beq_iff_eq.2 (congrArg g hk)), if_pos (beq_iff_eq.2 hk), List.map_cons]
    · rw [if_neg (mt (beq_iff_eq.1 · |> hg _ _) hk), if_neg (mt beq_iff_eq.1 hk), List.map_cons]

/-- **Relocating the report of findings** gives the report of the relocated findings: no two paths
become one. -/
theorem Report.relocate_ofFindings (key : String) (fs : List Finding) :
    (ofFindings fs).relocate key = ofFindings (fs.map (.relocate key)) := by
  induction fs using List.reverseRecOn with
  | nil => rfl
  | append_singleton fs f ih =>
    rw [List.map_append, List.map_singleton, ofFindings_concat, ofFindings_concat, ← ih]
    exact congrArg mk (Assoc.alter_map (fun _ _ => relocatePath_inj) f.path _ _).symm

end TreeSchema
