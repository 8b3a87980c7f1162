import TreeSchema.Proofs.Description
import TreeSchema.Proofs.FirstCome

/-!
# Exact reports

A report misses nothing and invents nothing: it tells of a kind of disagreement at a path exactly
when a visit that is reached fails in this way (`Matcher.check_tells_iff`). Of several visits that
fail in one way the first one in the order of the walk gives the message, and the paths, and the
kinds at a path, stand in the order in which their first visits come.

The walk lists its findings with the trails that they were found at, in order, and the report is
read off that list. So the whole argument is about one list in the order of its trails
(`Visit.tells_iff_first`, `Visit.pairwise_paths`, `Visit.pairwise_kinds`).

That a path or a kind stands before another one is said with trails too (`Visit.FindsBefore`): there
is a finding of the first sort whose trail comes before that of every finding of the second. Such a
finding is the first one of its sort, so this is the order of first occurrences, said without
looking at any list.

A report says nothing about which of two visits with one path a message is about. It need not: the
message is that of the first of them, and this is the only thing that is lost.
-/

namespace TreeSchema

namespace Visit

/-- Whether a visit finds something of one sort before everything of another sort. -/
def FindsBefore (a : Visit) (P Q : Finding → Prop) : Prop :=
  ∃ t f, a.Finds t f ∧ P f ∧ ∀ u g, a.Finds u g → Q g → t.Before u

/-- **The report on a visit**: that of the disagreements of its node with its value. -/
def report (a : Visit) : Report := .ofFindings (a.node.disagreements a.value a.path)

/-- The findings of a visit with their trails. -/
def trailed (a : Visit) : List (Trail × Finding) := a.node.trailed a.value a.path

variable {a : Visit}

/-- What is listed with a trail is what is found there. -/
theorem mem_trailed_iff {t : Trail} {f : Finding} : (t, f) ∈ a.trailed ↔ a.Finds t f :=
  Schema.mem_trailed_iff

/-- The list is in the order of the trails. -/
theorem ordered_trailed (a : Visit) : Trail.Ordered a.trailed :=
  Schema.ordered_trailed _ _ _

/-- The report is read off the list. -/
theorem report_eq (a : Visit) : a.report = .ofFindings (a.trailed.map Prod.snd) := by
  rw [trailed, Schema.map_snd_trailed]
  rfl

/-- **The message of a report** is that of the first finding of its kind at its path. -/
theorem tells_iff_first {path : String} {kind : ErrorKind} {message : String} :
    a.report.Tells path kind message
      ↔ ∃ t, a.Finds t ⟨path, kind, message⟩ ∧
          ∀ u g, a.Finds u g → g.path = path → g.kind = kind → t = u ∨ t.Before u := by
  rw [report_eq, Report.tells_ofFindings_iff, Report.message?_ofFindings, Option.map_eq_some_iff]
  simp only [Trail.find?_eq_some_iff a.ordered_trailed, Bool.and_eq_true, beq_iff_eq]
  constructor
  · rintro ⟨f, ⟨t, hf, ⟨rfl, rfl⟩, hfirst⟩, rfl⟩
    refine ⟨t, mem_trailed_iff.1 hf, fun u g hg hpath hkind => ?_⟩
    exact hfirst (u, g) (mem_trailed_iff.2 hg) ⟨hpath.symm, hkind.symm⟩
  · rintro ⟨t, hf, hfirst⟩
    refine ⟨_, ⟨t, mem_trailed_iff.2 hf, ⟨rfl, rfl⟩, fun b hb hsame => ?_⟩, rfl⟩
    exact hfirst b.1 b.2 (mem_trailed_iff.1 hb) hsame.1.symm hsame.2.symm

/-- **A report tells of what is found**, and of nothing else. -/
theorem tells_iff {path : String} {kind : ErrorKind} :
    (∃ message, a.report.Tells path kind message)
      ↔ ∃ t f, a.Finds t f ∧ f.path = path ∧ f.kind = kind := by
  rw [report_eq, Report.exists_tells_ofFindings_iff]
  constructor
  · rintro ⟨f, hf, hsame⟩
    obtain ⟨⟨t, g⟩, hg, rfl⟩ := List.mem_map.1 hf
    exact ⟨t, g, mem_trailed_iff.1 hg, hsame⟩
  · rintro ⟨t, f, hf, hsame⟩
    exact ⟨f, List.mem_map_of_mem (mem_trailed_iff.2 hf), hsame⟩

/-- The paths of a report are those at which something is found. -/
theorem mem_paths_iff {path : String} :
    path ∈ a.report.paths ↔ ∃ t f, a.Finds t f ∧ f.path = path := by
  rw [report_eq, Report.paths_ofFindings, List.mem_eraseDups, List.map_map, List.mem_map]
  constructor
  · rintro ⟨⟨t, f⟩, hf, rfl⟩
    exact ⟨t, f, mem_trailed_iff.1 hf, rfl⟩
  · rintro ⟨t, f, hf, rfl⟩
    exact ⟨(t, f), mem_trailed_iff.2 hf, rfl⟩

/-- **The paths of a report** stand in the order in which they are first found. -/
theorem pairwise_paths (a : Visit) :
    a.report.paths.Pairwise fun p q => a.FindsBefore (·.path = p) (·.path = q) := by
  rw [report_eq, Report.paths_ofFindings, List.map_map]
  refine (Trail.pairwise_eraseDups a.ordered_trailed Finding.path).imp fun h => ?_
  obtain ⟨b, hb, hpath, hfirst⟩ := h
  refine ⟨b.1, b.2, mem_trailed_iff.1 hb, hpath, fun u g hg => ?_⟩
  exact hfirst (u, g) (mem_trailed_iff.2 hg)

/-- **The kinds at a path of a report** stand in the order in which they are first found. -/
theorem pairwise_kinds {row : String × List (ErrorKind × String)} (h : row ∈ a.report.rows) :
    (row.2.map Prod.fst).Pairwise fun k l =>
      a.FindsBefore (fun f => f.path = row.1 ∧ f.kind = k) fun f =>
        f.path = row.1 ∧ f.kind = l := by
  rw [report_eq] at h
  rw [← Report.kindsAt_of_mem h, Report.kinds_ofFindings, List.filter_map, List.map_map]
  refine (Trail.pairwise_eraseDups (a.ordered_trailed.filter _) Finding.kind).imp fun h => ?_
  obtain ⟨b, hb, hkind, hfirst⟩ := h
  obtain ⟨hmem, hpath⟩ := List.mem_filter.1 hb
  refine ⟨b.1, b.2, mem_trailed_iff.1 hmem, ⟨(eq_of_beq hpath).symm, hkind⟩, fun u g hg hsame => ?_⟩
  refine hfirst (u, g) (List.mem_filter.2 ⟨mem_trailed_iff.2 hg, ?_⟩) hsame.2
  exact beq_iff_eq.2 hsame.1.symm

end Visit

namespace Matcher

/-- A check of a description that is not empty gives the report on the visit of its schema. -/
theorem check_eq_report {entries : List (Value × Value)} {m : Matcher}
    (built : ofDescription (.mapping entries) = .ok m) (nonempty : entries ≠ [])
    (short : (Value.mapping entries).HasShortNumerals) (v : Value) :
    m.check v = .ok (Visit.report ⟨m.root, v, ""⟩) := by
  obtain ⟨hentries, -⟩ := ofDescription_mapping built
  rw [check_eq built short, isEmpty, hentries, if_neg (mt List.isEmpty_iff.1 nonempty)]
  rfl

/-- **The report of a check is exact.** A kind of disagreement is told at a path exactly when
a visit that is reached from the schema and the data fails in this way. Its message is that of
the first such failure, and paths, and the kinds at a path, stand in the order of their first
failures. -/
theorem check_tells_iff {entries : List (Value × Value)} {m : Matcher}
    (built : ofDescription (.mapping entries) = .ok m) (nonempty : entries ≠ [])
    (short : (Value.mapping entries).HasShortNumerals) (v : Value) :
    ∃ r, m.check v = .ok r ∧
      (∀ path kind, (∃ message, r.Tells path kind message)
        ↔ ∃ t b w f, Visit.Reaches ⟨m.root, v, ""⟩ t b ∧ b.Fails w f ∧ f.path = path ∧
            f.kind = kind) ∧
      (∀ path kind message, r.Tells path kind message
        ↔ ∃ t, Visit.Finds ⟨m.root, v, ""⟩ t ⟨path, kind, message⟩ ∧
            ∀ u g, Visit.Finds ⟨m.root, v, ""⟩ u g → g.path = path → g.kind = kind →
              t = u ∨ t.Before u) ∧
      r.paths.Pairwise (fun p q =>
        Visit.FindsBefore ⟨m.root, v, ""⟩ (·.path = p) (·.path = q)) ∧
      ∀ row ∈ r.rows, (row.2.map Prod.fst).Pairwise fun k l =>
        Visit.FindsBefore ⟨m.root, v, ""⟩ (fun f => f.path = row.1 ∧ f.kind = k) fun f =>
          f.path = row.1 ∧ f.kind = l := by
  refine ⟨_, check_eq_report built nonempty short v, fun path kind => ?_, fun path kind message =>
    Visit.tells_iff_first, Visit.pairwise_paths _, fun row hrow => Visit.pairwise_kinds hrow⟩
  rw [Visit.tells_iff]
  constructor
  · rintro ⟨_, f, ⟨t, w, b, hb, hf, -⟩, hpath, hkind⟩
    exact ⟨t, b, w, f, hb, hf, hpath, hkind⟩
  · rintro ⟨t, b, w, f, hb, hf, hpath, hkind⟩
    exact ⟨t ++ w, f, ⟨t, w, b, hb, hf, rfl⟩, hpath, hkind⟩

/-- A name and tags. -/
def namedTags : Matcher where
  description := [(.text "name", .text "string"),
    (.text "tags", .mapping [(.text "*", .text "string")])]
  root := .fields [(⟨"name", false, .text "name"⟩, .leaf (.ofText "string")),
    (⟨"tags", false, .text "tags"⟩, .collection [] (.leaf (.ofText "string")))]

/-- Without a name and with two tags that are no texts, the first of the tags gives the message. -/
theorem check_tells_namedTags :
    ofDescription (.mapping namedTags.description) = .ok namedTags ∧
      namedTags.description ≠ [] ∧
      (Value.mapping namedTags.description).HasShortNumerals ∧
      ∃ t, Visit.Finds ⟨namedTags.root, .mapping [(.text "tags", .list [.int 1, .bool true])], ""⟩ t
        ⟨"tags.*", .typeMismatch, "The value must be of type 'string', got 'integer'."⟩ := by
  have built : ofDescription (.mapping namedTags.description) = .ok namedTags := rfl
  have nonempty : namedTags.description ≠ [] := List.cons_ne_nil _ _
  have short : (Value.mapping namedTags.description).HasShortNumerals := by
    simp only [Value.HasShortNumerals, Value.AllKeys, namedTags, List.forall_mem_cons]
    refine ⟨⟨fun s hs _ => ?_, trivial⟩, ⟨fun s hs _ => ?_, ⟨fun s hs _ => ?_, trivial⟩, ?_⟩, ?_⟩
    · cases hs
      decide
    · cases hs
      decide
    · cases hs
      decide
    · exact List.forall_mem_nil _
    · exact List.forall_mem_nil _
  refine ⟨built, nonempty, short, ?_⟩
  obtain ⟨r, hr, -, hfirst, -⟩ := check_tells_iff built nonempty short
    (.mapping [(.text "tags", .list [.int 1, .bool true])])
  have hrow : ("tags.*", [(ErrorKind.typeMismatch,
      "The value must be of type 'string', got 'integer'.")]) ∈ r.rows := by
    cases hr
    exact .tail _ (.head _)
  obtain ⟨t, ht, -⟩ := (hfirst _ _ _).1 ⟨_, hrow, .head _⟩
  exact ⟨t, ht⟩

end Matcher

end TreeSchema
