import Mathlib.Data.List.Induction
import TreeSchema.Report

/-!
# What a report keeps of its findings

Of two findings of one kind at one path a report keeps the first one, and it keeps paths and kinds
in the order in which they first came. So a report is told by three functions of the list of
findings: its paths are those of the findings, its kinds at a path are those of the findings there,
both without repetitions, and its message is that of the first finding of the kind at the path.

A report is built from the front, one finding after the other, and each of the three functions is an
induction on the list from its end: what one more finding changes is said once for each of them
(`Report.paths_add`, `Report.kindsAt_add`, `Report.message?_add`), and the list without repetitions
changes in the same way when an element is added at its end (`eraseDups_concat`).

With these three the report need not be opened again. Whatever is stated of a report elsewhere –
which paths it has, what it tells there, in which order – is stated of a list of findings.
-/

namespace TreeSchema

namespace Assoc

variable {κ α : Type} [BEq κ]

/-- Altering a key keeps the keys, and adds the key at the end if it is new. -/
theorem map_fst_alter (key : κ) (f : Option α → α) (m : List (κ × α)) :
    (alter (key == ·) key f m).map Prod.fst
      = if (m.map Prod.fst).contains key then m.map Prod.fst else m.map Prod.fst ++ [key] := by
  induction m with
  | nil => rfl
  | cons p m ih =>
    obtain ⟨k, a⟩ := p
    rw [alter, List.map_cons, List.contains_cons]
    by_cases hk : (key == k) = true
    · rw [if_pos hk, hk]
      rfl
    · rw [if_neg hk, List.map_cons, ih, Bool.eq_false_iff.2 hk, Bool.false_or]
      split <;> rfl

variable [LawfulBEq κ]

/-- The altered key holds what the change makes of it, and every other key what it held. -/
theorem find?_alter (key k : κ) (f : Option α → α) (m : List (κ × α)) :
    find? (k == ·) (alter (key == ·) key f m)
      = if k == key then some (f (find? (k == ·) m)) else find? (k == ·) m := by
  by_cases hk : (k == key) = true
  · rw [if_pos hk, eq_of_beq hk]
    exact find?_alter_self BEq.rfl m
  · rw [if_neg hk]
    refine find?_alter_of_disjoint (fun j hj => ?_) (Bool.eq_false_iff.2 hk) m
    rw [← eq_of_beq hj]
    exact Bool.eq_false_iff.2 hk

/-- Where keys differ, what is found under a key is what stands there. -/
theorem find?_eq_some_iff {m : List (κ × α)} (h : (m.map Prod.fst).Nodup) {k : κ} {a : α} :
    find? (k == ·) m = some a ↔ (k, a) ∈ m := by
  induction m with
  | nil => simp [find?]
  | cons p m ih =>
    obtain ⟨j, b⟩ := p
    obtain ⟨hj, hm⟩ := List.nodup_cons.1 h
    rw [find?, List.mem_cons]
    by_cases hk : (k == j) = true
    · rw [if_pos hk, eq_of_beq hk]
      constructor
      · rintro ⟨⟩
        exact .inl rfl
      · rintro (heq | hmem)
        · cases heq
          rfl
        · exact absurd (List.mem_map_of_mem hmem) hj
    · rw [if_neg hk, ih hm]
      refine ⟨.inr, fun hmem => hmem.resolve_left fun heq => ?_⟩
      cases heq
      exact hk BEq.rfl

end Assoc

/-- A list without repetitions takes a further element at its end if it is new. -/
theorem eraseDups_concat {α : Type} [BEq α] [LawfulBEq α] (l : List α) (a : α) :
    (l ++ [a]).eraseDups = if l.contains a then l.eraseDups else l.eraseDups ++ [a] := by
  rw [List.eraseDups_append]
  cases h : l.contains a <;> simp_all [List.removeAll, List.eraseDups_cons]

/-- No element is there twice when the repetitions are left out. -/
theorem nodup_eraseDups {α : Type} [BEq α] [LawfulBEq α] (l : List α) : l.eraseDups.Nodup := by
  induction l using List.reverseRecOn with
  | nil => exact .nil
  | append_singleton l a ih =>
    rw [eraseDups_concat]
    split
    · exact ih
    · rename_i ha
      rw [List.contains_iff_mem, ← List.mem_eraseDups] at ha
      refine List.nodup_append.2 ⟨ih, List.pairwise_singleton _ a, fun b hb c hc => ?_⟩
      cases List.mem_singleton.1 hc
      exact ne_of_mem_of_not_mem hb ha

namespace Report

/-- **Whether a report tells** of a kind of disagreement at a path, and with which message. -/
def Tells (r : Report) (path : String) (kind : ErrorKind) (message : String) : Prop :=
  ∃ kinds, (path, kinds) ∈ r.rows ∧ (kind, message) ∈ kinds

/-- The kinds at a path with their messages. -/
def kindsAt (r : Report) (path : String) : List (ErrorKind × String) :=
  (Assoc.find? (path == ·) r.rows).getD []

/-- The message of a kind at a path. -/
def message? (r : Report) (path : String) (kind : ErrorKind) : Option String :=
  Assoc.find? (kind == ·) (r.kindsAt path)

/-! ## One more finding

A finding at a new path adds a row at the end; one at a path that is there already adds its kind to
the row of the path, unless this is there too, and then it changes nothing. -/

/-- The path of the finding comes last, if it is new. -/
theorem paths_add (r : Report) (f : Finding) :
    (r.add f).paths = if r.paths.contains f.path then r.paths else r.paths ++ [f.path] :=
  Assoc.map_fst_alter f.path _ r.rows

/-- The kinds at the path of the finding are altered, and no others. -/
theorem kindsAt_add (r : Report) (f : Finding) (path : String) :
    (r.add f).kindsAt path = if path == f.path
      then Assoc.alter (f.kind == ·) f.kind (fun m => m.getD f.message) (r.kindsAt path)
      else r.kindsAt path := by
  unfold kindsAt add
  rw [Assoc.find?_alter]
  split <;> rfl

/-- The message is kept where there is one. -/
theorem message?_add (r : Report) (f : Finding) (path : String) (kind : ErrorKind) :
    (r.add f).message? path kind = if path == f.path && kind == f.kind
      then some ((r.message? path kind).getD f.message) else r.message? path kind := by
  unfold message?
  rw [kindsAt_add]
  cases path == f.path with
  | false => rfl
  | true =>
    rw [if_pos rfl, Assoc.find?_alter, Bool.true_and]

/-! ## All findings

The list is taken apart at its end, where the report was built last. -/

/-- The last finding is added to the report of those before it. -/
theorem ofFindings_concat (fs : List Finding) (f : Finding) :
    ofFindings (fs ++ [f]) = (ofFindings fs).add f :=
  List.foldl_append

/-- **The paths of a report** are those of the findings, in the order in which they first come. -/
theorem paths_ofFindings (fs : List Finding) :
    (ofFindings fs).paths = (fs.map Finding.path).eraseDups := by
  -- Findings are added one after the other, so the last one is taken off here and below.
  induction fs using List.reverseRecOn with
  | nil => rfl
  | append_singleton fs f ih =>
    rw [ofFindings_concat, paths_add, ih, List.map_append, List.map_cons, List.map_nil,
      eraseDups_concat]
    simp only [List.contains_iff_mem, List.mem_eraseDups]

/-- **The kinds of a report at a path** are those of the findings there, in the order in which they
first come. -/
theorem kinds_ofFindings (fs : List Finding) (path : String) :
    ((ofFindings fs).kindsAt path).map Prod.fst
      = ((fs.filter (path == ·.path)).map Finding.kind).eraseDups := by
  induction fs using List.reverseRecOn with
  | nil => rfl
  | append_singleton fs f ih =>
    rw [ofFindings_concat, kindsAt_add, List.filter_append]
    by_cases hp : (path == f.path) = true
    · have hlast : [f].filter (path == ·.path) = [f] := List.filter_cons_of_pos hp
      rw [if_pos hp, Assoc.map_fst_alter, ih, hlast, List.map_append, List.map_cons, List.map_nil,
        eraseDups_concat]
      simp only [List.contains_iff_mem, List.mem_eraseDups]
    · have hlast : [f].filter (path == ·.path) = [] := List.filter_cons_of_neg hp
      rw [if_neg hp, ih, hlast, List.append_nil]

/-- **The message of a report** for a kind at a path is that of the first finding of this kind
there. -/
theorem message?_ofFindings (fs : List Finding) (path : String) (kind : ErrorKind) :
    (ofFindings fs).message? path kind
      = (fs.find? fun f => path == f.path && kind == f.kind).map Finding.message := by
  induction fs using List.reverseRecOn with
  | nil => rfl
  | append_singleton fs f ih =>
    rw [ofFindings_concat, message?_add, ih, List.find?_append, List.find?_singleton]
    cases fs.find? fun f => path == f.path && kind == f.kind <;> split <;> rfl

/-! ## What stands in the rows

A report is a list of rows, each with a list of kinds, and it is asked by path and by kind. As no
path has two rows and no kind is in a row twice, what is found there is what stands there. -/

/-- No path has two rows. -/
theorem nodup_paths (fs : List Finding) : (ofFindings fs).paths.Nodup := by
  rw [paths_ofFindings]
  exact nodup_eraseDups _

/-- No kind is in a row twice. -/
theorem nodup_kinds (fs : List Finding) (path : String) :
    (((ofFindings fs).kindsAt path).map Prod.fst).Nodup := by
  rw [kinds_ofFindings]
  exact nodup_eraseDups _

/-- A report of findings tells of a kind at a path if it has a message for it. -/
theorem tells_ofFindings_iff {fs : List Finding} {path : String} {kind : ErrorKind}
    {message : String} :
    (ofFindings fs).Tells path kind message
      ↔ (ofFindings fs).message? path kind = some message := by
  rw [message?, Assoc.find?_eq_some_iff (nodup_kinds fs path), kindsAt]
  constructor
  · rintro ⟨kinds, hrow, hkind⟩
    rw [(Assoc.find?_eq_some_iff (nodup_paths fs)).2 hrow]
    exact hkind
  · intro h
    cases hrow : Assoc.find? (path == ·) (ofFindings fs).rows with
    | none =>
      rw [hrow] at h
      exact absurd h List.not_mem_nil
    | some kinds =>
      rw [hrow] at h
      exact ⟨kinds, (Assoc.find?_eq_some_iff (nodup_paths fs)).1 hrow, h⟩

/-- **A report of findings tells of their kinds at their paths**, and of nothing else. -/
theorem exists_tells_ofFindings_iff {fs : List Finding} {path : String} {kind : ErrorKind} :
    (∃ message, (ofFindings fs).Tells path kind message)
      ↔ ∃ f ∈ fs, f.path = path ∧ f.kind = kind := by
  simp only [tells_ofFindings_iff, message?_ofFindings]
  rw [← Option.isSome_iff_exists, Option.isSome_map, List.find?_isSome]
  simp only [Bool.and_eq_true, beq_iff_eq, @eq_comm _ path, @eq_comm _ kind]

/-- The kinds in a row of a report of findings are those at its path. -/
theorem kindsAt_of_mem {fs : List Finding} {row : String × List (ErrorKind × String)}
    (h : row ∈ (ofFindings fs).rows) : (ofFindings fs).kindsAt row.1 = row.2 := by
  rw [kindsAt, (Assoc.find?_eq_some_iff (nodup_paths fs)).2 h]
  rfl

/-- A report of findings is valid if there are none. -/
theorem isValid_ofFindings_iff {fs : List Finding} : (ofFindings fs).isValid = true ↔ fs = [] := by
  cases fs using List.reverseRecOn with
  | nil => exact iff_of_true rfl rfl
  | append_singleton fs f =>
    rw [ofFindings_concat, isValid_add]
    simp

end Report

end TreeSchema
