import Mathlib.Data.Finset.Card
import TreeSchema.Proofs.Exactness
import TreeSchema.Proofs.Place

/-!
# Reports and the places of a schema

The paths of a report are those of places of the schema, however much data there is: every element
of a collection is met at the same place. What can be said about a place is told by the schema, too
(`Finding.StandsAt`). A match turns around at a collection with siblings, so that the place of its
item is the only one below it that is spoken of, and only as the item of such a collection. And at a
type expression data is of another type only if the expression parses, so that no place has an
unknown type and a mismatch.

The findings stand there in every schema. If names are plain, a path is that of one place, and the
same can be said of paths (`Matcher.check_placed`).

The argument keeps three things apart. A visit is at a place (`Visit.StandsAt`), with the node of
the place and its path but with a value of its own. A finding is at a place (`Finding.StandsAt`),
where the place says what kind of finding it can be. And a report has a path, from which the place
is found again if it can be. The first is kept by every step of a match and the second follows case
by case from how a visit fails; only the third needs plain names.

A trail of the match is not the trail of the place. The match goes down to the fifth element of a
collection where the place is that of the item, at position zero. So it is said that there is some
trail to the place, and not which one.
-/

namespace TreeSchema

namespace Schema

/-- Whether a collection with siblings stands at a trail. -/
def IsCrowdedAt (s : Schema) (t : Trail) : Prop :=
  ∃ segments siblings item, s.place? t = some (segments, .collection siblings item) ∧
    siblings ≠ []

/-- Whether a type expression that does not parse stands at a trail. -/
def IsUnknownAt (s : Schema) (t : Trail) : Prop :=
  ∃ segments e fault, s.place? t = some (segments, .leaf e) ∧ e.form = .unknown fault

/-- **Whether a trail is open**: no collection with siblings stands on the way. -/
def IsOpen (s : Schema) (t : Trail) : Prop := ∀ u i, u ++ [i] <+: t → ¬ s.IsCrowdedAt u

variable {s : Schema} {t u : Trail}

/-- Nothing stands on the way to the root. -/
theorem isOpen_nil (s : Schema) : s.IsOpen [] :=
  fun u i h => absurd (List.prefix_nil.1 h) (List.concat_ne_nil i u)

/-- A way that is open goes on behind a place that is not crowded. -/
theorem IsOpen.concat (h : s.IsOpen t) (ht : ¬ s.IsCrowdedAt t) (i : Nat) :
    s.IsOpen (t ++ [i]) := by
  intro u j hbelow
  obtain heq | hbelow := List.prefix_concat_iff.1 hbelow
  · obtain ⟨rfl, -⟩ := List.append_inj' heq rfl
    exact ht
  · exact h u j hbelow

end Schema

/-! ## Visits

The places of visits are told by their nodes: a node and its path are all that a place needs. -/

namespace Visit

/-- **Whether a visit is at the place of a trail**: it is one of the node there, at its path. -/
def StandsAt (a : Visit) (s : Schema) (t : Trail) : Prop :=
  ∃ segments, s.place? t = some (segments, a.node) ∧ pathOf segments = a.path

variable {s : Schema} {a b : Visit} {t : Trail} {i : Nat}

/-- A visit is at the path of the place. -/
theorem StandsAt.path_eq (h : a.StandsAt s t) : s.path? t = some a.path := by
  obtain ⟨segments, hplace, hpath⟩ := h
  exact Schema.path?_eq_some_iff.2 ⟨segments, _, hplace, hpath⟩

/-- There is one node at a place. -/
theorem StandsAt.node_eq (h : a.StandsAt s t) {segments : List String} {n : Schema}
    (hplace : s.place? t = some (segments, n)) : a.node = n := by
  obtain ⟨_, hplace', -⟩ := h
  cases hplace.symm.trans hplace'
  rfl

/-- Whether a place is crowded is told by the node that is visited there. -/
theorem StandsAt.isCrowdedAt_iff (h : a.StandsAt s t) :
    s.IsCrowdedAt t ↔ ∃ siblings item, a.node = .collection siblings item ∧ siblings ≠ [] := by
  constructor
  · rintro ⟨_, siblings, item, hplace, hne⟩
    exact ⟨siblings, item, h.node_eq hplace, hne⟩
  · rintro ⟨siblings, item, hnode, hne⟩
    obtain ⟨segments, hplace, -⟩ := h
    exact ⟨segments, siblings, item, hnode ▸ hplace, hne⟩

/-- Whether the type at a place is unknown is told by the node that is visited there. -/
theorem StandsAt.isUnknownAt_iff (h : a.StandsAt s t) :
    s.IsUnknownAt t ↔ ∃ e fault, a.node = .leaf e ∧ e.form = .unknown fault := by
  constructor
  · rintro ⟨_, e, fault, hplace, hform⟩
    exact ⟨e, fault, h.node_eq hplace, hform⟩
  · rintro ⟨e, fault, hnode, hform⟩
    obtain ⟨segments, hplace, -⟩ := h
    exact ⟨segments, e, fault, hnode ▸ hplace, hform⟩

/-- The place of a child is one step below, whatever value the child is visited with. -/
theorem StandsAt.child (h : a.StandsAt s t) {segment : String} {c : Schema}
    (hc : a.node.children[i]? = some (segment, c)) (v : Value) :
    StandsAt ⟨c, v, joinPath a.path segment⟩ s (t ++ [i]) := by
  obtain ⟨segments, hplace, hsegments⟩ := h
  refine ⟨segments ++ [segment], Schema.place?_concat hplace hc, ?_⟩
  rw [pathOf_concat, hsegments]

/-- **A step leads to a place below**, and it is not one from a collection with siblings. -/
theorem Step.standsAt (h : a.Step i b) (ha : a.StandsAt s t) :
    ¬ s.IsCrowdedAt t ∧ ∃ j, b.StandsAt s (t ++ [j]) := by
  rw [ha.isCrowdedAt_iff]
  cases h with
  | field _ hi _ =>
    exact ⟨fun ⟨_, _, hnode, _⟩ => (nomatch hnode), i, ha.child (Schema.children_fields hi) _⟩
  | element _ _ =>
    refine ⟨fun ⟨_, _, hnode, hne⟩ => ?_, 0, ha.child rfl _⟩
    cases hnode
    exact hne rfl

/-- **The visits of a match are at open places of the schema.** -/
theorem Reaches.standsAt {v : Value} (h : Reaches ⟨s, v, ""⟩ t b) :
    ∃ u, b.StandsAt s u ∧ s.IsOpen u := by
  -- The trail of a visit counts elements, that of its place does not: both grow by a step at once.
  induction h with
  | start => exact ⟨[], ⟨[], rfl, rfl⟩, s.isOpen_nil⟩
  | step _ hs ih =>
    obtain ⟨u, ha, hopen⟩ := ih
    obtain ⟨hcrowded, j, hb⟩ := hs.standsAt ha
    exact ⟨u ++ [j], hb, hopen.concat hcrowded j⟩

end Visit

/-! ## Findings

There are two cases. A finding that says that a collection is misplaced is at the item of it, which
no match goes to. Every other one is at a place that a match comes to, or at a field that it finds
absent, and what the node at this place is decides between an unknown type and a mismatch. -/

/-- **Where a finding stands**: at the item of a collection with siblings, if this is what it says,
and otherwise at an open place, where it tells an unknown type from a mismatch. -/
inductive Finding.StandsAt (s : Schema) (f : Finding) : Trail → Prop
  /-- The item of a collection with siblings. -/
  | crowded {u : Trail} : s.path? (u ++ [0]) = some f.path → s.IsCrowdedAt u → s.IsOpen u →
      f.kind = .collectionDefinition → StandsAt s f (u ++ [0])
  /-- An open place. -/
  | inside {t : Trail} : s.path? t = some f.path → s.IsOpen t → f.kind ≠ .collectionDefinition →
      (f.kind = .typeUnknown → s.IsUnknownAt t) → (f.kind = .typeMismatch → ¬ s.IsUnknownAt t) →
      StandsAt s f t

/-- What a type expression finds is an unknown type if it does not parse, and else a mismatch. -/
theorem TypeExpr.Fails.kind_cases {e : TypeExpr} {v : Value} {path : String} {f : Finding}
    (h : e.Fails v path f) :
    f.path = path ∧ (f.kind = .typeUnknown ∧ (∃ fault, e.form = .unknown fault)
      ∨ f.kind = .typeMismatch ∧ ∀ fault, e.form ≠ .unknown fault) := by
  cases h with
  | unknown _ hform => exact ⟨rfl, .inl ⟨rfl, _, hform⟩⟩
  | notPrimitive _ hform _ | notPairs _ hform _ | wrongPair _ hform _ _ _ =>
    exact ⟨rfl, .inr ⟨rfl, fun fault hunknown => nomatch hform.symm.trans hunknown⟩⟩

namespace Finding.StandsAt

variable {s : Schema} {f : Finding} {t u : Trail}

/-- A finding has the path of its place. -/
theorem path_eq (h : f.StandsAt s t) : s.path? t = some f.path := by
  cases h <;> assumption

/-- An unknown type, at an open place. -/
theorem unknown (hpath : s.path? t = some f.path) (hopen : s.IsOpen t)
    (hkind : f.kind = .typeUnknown) (hunknown : s.IsUnknownAt t) : f.StandsAt s t :=
  .inside hpath hopen (fun h => nomatch hkind.symm.trans h) (fun _ => hunknown)
    fun h => nomatch hkind.symm.trans h

/-- A mismatch, at an open place. -/
theorem mismatch (hpath : s.path? t = some f.path) (hopen : s.IsOpen t)
    (hkind : f.kind = .typeMismatch) (hknown : ¬ s.IsUnknownAt t) : f.StandsAt s t :=
  .inside hpath hopen (fun h => nomatch hkind.symm.trans h)
    (fun h => nomatch hkind.symm.trans h) fun _ => hknown

/-- An absent field, at an open place. -/
theorem absent (hpath : s.path? t = some f.path) (hopen : s.IsOpen t)
    (hkind : f.kind = .keyNotFound) : f.StandsAt s t :=
  .inside hpath hopen (fun h => nomatch hkind.symm.trans h)
    (fun h => nomatch hkind.symm.trans h) fun h => nomatch hkind.symm.trans h

/-- **How a visit fails by itself** stands at its place, or one step below. -/
theorem of_fails {b : Visit} {w : Trail} (hb : b.StandsAt s u) (hopen : s.IsOpen u)
    (h : b.Fails w f) : ∃ t, f.StandsAt s t := by
  cases h with
  | leaf h =>
    obtain ⟨rfl, ⟨hkind, fault, hform⟩ | ⟨hkind, hform⟩⟩ := h.kind_cases
    · exact ⟨u, unknown hb.path_eq hopen hkind (hb.isUnknownAt_iff.2 ⟨_, fault, rfl, hform⟩)⟩
    · refine ⟨u, mismatch hb.path_eq hopen hkind fun hunknown => ?_⟩
      obtain ⟨_, fault, hnode, hunknown⟩ := hb.isUnknownAt_iff.1 hunknown
      cases hnode
      exact hform fault hunknown
  | fieldsNotContainer _ | collectionNotContainer _ =>
    refine ⟨u, mismatch hb.path_eq hopen rfl fun hunknown => ?_⟩
    obtain ⟨_, _, hnode, -⟩ := hb.isUnknownAt_iff.1 hunknown
    cases hnode
  | absent _ hi _ _ =>
    have hcrowded : ¬ s.IsCrowdedAt u := by
      rw [hb.isCrowdedAt_iff]
      exact fun ⟨_, _, hnode, _⟩ => nomatch hnode
    exact ⟨_, absent (hb.child (Schema.children_fields hi) .null).path_eq
      (hopen.concat hcrowded _) rfl⟩
  | crowded _ hne =>
    have hcrowded : s.IsCrowdedAt u := hb.isCrowdedAt_iff.2 ⟨_, _, rfl, hne⟩
    exact ⟨_, .crowded (hb.child rfl .null).path_eq hcrowded hopen rfl⟩

/-- **What a match finds** stands somewhere in the schema. -/
theorem of_finds {v : Value} (h : Visit.Finds ⟨s, v, ""⟩ t f) : ∃ u, f.StandsAt s u := by
  obtain ⟨_, _, b, hreach, hfails, -⟩ := h
  obtain ⟨u, hb, hopen⟩ := hreach.standsAt
  exact of_fails hb hopen hfails

/-- A collection with siblings is found at its item. -/
theorem isCrowdedAt_of_kind (h : f.StandsAt s t) (hkind : f.kind = .collectionDefinition) :
    ∃ u, t = u ++ [0] ∧ s.IsCrowdedAt u := by
  cases h with
  | crowded _ hcrowded _ _ => exact ⟨_, rfl, hcrowded⟩
  | inside _ _ hne _ _ => exact absurd hkind hne

/-- **Below a collection with siblings** nothing is found but this, at its item. -/
theorem eq_of_isCrowdedAt (h : f.StandsAt s t) (hcrowded : s.IsCrowdedAt u)
    (hbelow : u ++ [0] <+: t) : t = u ++ [0] ∧ f.kind = .collectionDefinition := by
  cases h with
  | crowded _ _ hopen hkind =>
    obtain heq | hbelow := List.prefix_concat_iff.1 hbelow
    · exact ⟨heq.symm, hkind⟩
    · exact absurd hcrowded (hopen _ _ hbelow)
  | inside _ hopen _ _ _ => exact absurd hcrowded (hopen _ _ hbelow)

/-- No place has both an unknown type and a mismatch. -/
theorem not_unknown_and_mismatch {g : Finding} (hf : f.StandsAt s t) (hg : g.StandsAt s t)
    (hunknown : f.kind = .typeUnknown) (hmismatch : g.kind = .typeMismatch) : False := by
  cases hf with
  | crowded _ _ _ hkind => exact nomatch hkind.symm.trans hunknown
  | inside _ _ _ htype _ =>
    cases hg with
    | crowded _ _ _ hkind => exact nomatch hkind.symm.trans hmismatch
    | inside _ _ _ _ hknown => exact hknown hmismatch (htype hunknown)

/-- With plain names what has one path stands at one place. -/
theorem trail_eq {g : Finding} (hf : f.StandsAt s t) (hg : g.StandsAt s u)
    (plain : s.HasPlainNames) (hpath : f.path = g.path) : t = u :=
  plain.eq_of_path_eq (hpath ▸ hf.path_eq) hg.path_eq

end Finding.StandsAt

/-! ## Reports

A path of a report may be the path of several findings. With plain names they are all at one place,
and what is said of the place holds for each of them. -/

/-- **Whether a report speaks of the places of a schema**, and at each of them of what is
compatible. -/
structure Report.IsPlacedIn (r : Report) (s : Schema) : Prop where
  /-- Every path is that of a place. -/
  place : ∀ path ∈ r.paths, ∃ t, s.path? t = some path
  /-- There are at most as many paths as places. -/
  length_le : r.paths.length ≤ s.trails.card
  /-- A path with an unknown type has no mismatch. -/
  not_mismatch : ∀ path, (∃ message, r.Tells path .typeUnknown message) →
    ¬ ∃ message, r.Tells path .typeMismatch message
  /-- A path with a misplaced collection has no other kind. -/
  alone : ∀ path, (∃ message, r.Tells path .collectionDefinition message) →
    ∀ kind, (∃ message, r.Tells path kind message) → kind = .collectionDefinition
  /-- A path with a misplaced collection is not gone on with. -/
  last : ∀ path, (∃ message, r.Tells path .collectionDefinition message) →
    ∀ rest, path ++ "." ++ rest ∉ r.paths

/-- The empty report has no paths. -/
theorem Report.isPlacedIn_empty (s : Schema) : Report.empty.IsPlacedIn s where
  place _ h := absurd h List.not_mem_nil
  length_le := Nat.zero_le _
  not_mismatch := fun _ ⟨_, _, h, _⟩ => absurd h List.not_mem_nil
  alone := fun _ ⟨_, _, h, _⟩ => absurd h List.not_mem_nil
  last := fun _ ⟨_, _, h, _⟩ => absurd h List.not_mem_nil

namespace Visit

variable {s : Schema} {v : Value} {path : String}

/-- What is at a path of a report stands somewhere in the schema. -/
theorem exists_standsAt_of_mem (h : path ∈ (report ⟨s, v, ""⟩).paths) :
    ∃ (t : Trail) (f : Finding), f.path = path ∧ f.StandsAt s t := by
  obtain ⟨_, f, hf, rfl⟩ := mem_paths_iff.1 h
  obtain ⟨u, hu⟩ := Finding.StandsAt.of_finds hf
  exact ⟨u, f, rfl, hu⟩

/-- A kind that a report tells of stands somewhere in the schema. -/
theorem exists_standsAt_of_tells {kind : ErrorKind}
    (h : ∃ message, (report ⟨s, v, ""⟩).Tells path kind message) :
    ∃ (t : Trail) (f : Finding), f.path = path ∧ f.kind = kind ∧ f.StandsAt s t := by
  obtain ⟨_, f, hf, hpath, hkind⟩ := tells_iff.1 h
  obtain ⟨u, hu⟩ := Finding.StandsAt.of_finds hf
  exact ⟨u, f, hpath, hkind, hu⟩

/-- A path of a report is the path of a place. -/
theorem exists_path_of_mem (h : path ∈ (report ⟨s, v, ""⟩).paths) :
    ∃ t, s.path? t = some path := by
  obtain ⟨t, f, rfl, hf⟩ := exists_standsAt_of_mem h
  exact ⟨t, hf.path_eq⟩

/-- **A report has at most as many paths as the schema has places.** -/
theorem length_paths_le (s : Schema) (v : Value) :
    (report ⟨s, v, ""⟩).paths.length ≤ s.trails.card := by
  have hnodup : (report ⟨s, v, ""⟩).paths.Nodup := Report.nodup_paths _
  rw [← List.toFinset_card_of_nodup hnodup]
  refine Finset.card_le_card_of_surjOn (fun t => (s.path? t).getD "") fun path hpath => ?_
  obtain ⟨t, ht⟩ := exists_path_of_mem (List.mem_toFinset.1 hpath)
  exact ⟨t, Schema.mem_trails.2 ⟨path, ht⟩, congrArg (Option.getD · "") ht⟩

/-- **The report of a match speaks of places**, if the names of the fields are plain. -/
theorem isPlacedIn_report (plain : s.HasPlainNames) (v : Value) :
    (report ⟨s, v, ""⟩).IsPlacedIn s where
  place _ := exists_path_of_mem
  length_le := length_paths_le s v
  not_mismatch path hunknown hmismatch := by
    obtain ⟨t, f, hpath, hfkind, hf⟩ := exists_standsAt_of_tells hunknown
    obtain ⟨u, g, rfl, hgkind, hg⟩ := exists_standsAt_of_tells hmismatch
    cases hf.trail_eq hg plain hpath
    exact hf.not_unknown_and_mismatch hg hfkind hgkind
  alone path hcrowded kind htells := by
    obtain ⟨t, f, hpath, hfkind, hf⟩ := exists_standsAt_of_tells hcrowded
    obtain ⟨u, g, rfl, hgkind, hg⟩ := exists_standsAt_of_tells htells
    cases hf.trail_eq hg plain hpath
    obtain ⟨w, rfl, hw⟩ := hf.isCrowdedAt_of_kind hfkind
    rw [← hgkind]
    exact (hg.eq_of_isCrowdedAt hw (List.prefix_refl _)).2
  last path hcrowded rest hmem := by
    obtain ⟨t, f, rfl, hfkind, hf⟩ := exists_standsAt_of_tells hcrowded
    obtain ⟨u, g, hpath, hg⟩ := exists_standsAt_of_mem hmem
    obtain ⟨w, rfl, hw⟩ := hf.isCrowdedAt_of_kind hfkind
    have hbelow : w ++ [0] <+: u :=
      plain.prefix_of_path_eq_append (List.concat_ne_nil _ _) hf.path_eq (hpath ▸ hg.path_eq)
    -- So the longer path is that of the same item, and a path is not longer than itself.
    obtain ⟨rfl, -⟩ := hg.eq_of_isCrowdedAt hw hbelow
    have hsame : f.path = g.path := Option.some.inj (hf.path_eq.symm.trans hg.path_eq)
    have hlength := congrArg String.length (hsame.trans hpath)
    simp only [String.length_append] at hlength
    have hpoint : ".".length = 1 := rfl
    omega

end Visit

namespace Matcher

/-- A check gives the report of the match, or the empty one, whatever the matcher is made of. -/
theorem check_eq_empty_or_report {description : Value} {m : Matcher}
    (built : ofDescription description = .ok m) (short : description.HasShortNumerals) (v : Value) :
    m.check v = .ok .empty ∨ m.check v = .ok (Visit.report ⟨m.root, v, ""⟩) := by
  rw [check_eq_of_ofDescription built short]
  cases m.isEmpty with
  | true => exact .inl rfl
  | false => exact .inr rfl

/-- **Paths are places.** If the names of fields are not empty, hold no point and differ at each
level, then different places of a schema have different paths, and every report is one of places:
it has no other paths, so not more than there are places, however much data there is. No path has
both an unknown type and a mismatch, and one with a misplaced collection has nothing else and is
not gone on with. -/
theorem check_placed {description : Value} {m : Matcher}
    (built : ofDescription description = .ok m) (short : description.HasShortNumerals)
    (plain : m.root.HasPlainNames) :
    (∀ t u path, m.root.path? t = some path → m.root.path? u = some path → t = u) ∧
      ∀ v, ∃ r, m.check v = .ok r ∧ r.IsPlacedIn m.root := by
  refine ⟨fun t u path => plain.eq_of_path_eq, fun v => ?_⟩
  obtain hempty | hreport := check_eq_empty_or_report built short v
  · exact ⟨_, hempty, Report.isPlacedIn_empty _⟩
  · exact ⟨_, hreport, Visit.isPlacedIn_report plain v⟩

/-- A date, whose type is misspelt, and rows, where the wildcard has a name beside it. -/
def datedRows : Matcher where
  description := [(.text "date", .text "dat"),
    (.text "rows", .mapping [(.text "*", .text "integer"), (.text "name", .text "string")])]
  root := .fields [(⟨"date", false, .text "date"⟩, .leaf (.ofText "dat")),
    (⟨"rows", false, .text "rows"⟩, .collection ["name"] (.leaf (.ofText "integer")))]

/-- The report on a date and two rows that are no integers has two of the four places. -/
theorem check_datedRows :
    ofDescription (.mapping datedRows.description) = .ok datedRows ∧
      (Value.mapping datedRows.description).HasShortNumerals ∧
      datedRows.root.HasPlainNames ∧
      ∃ r, datedRows.check (.mapping [(.text "date", .text "2024-05-17"),
        (.text "rows", .list [.null, .text "two"])]) = .ok r ∧
        r.paths = ["date", "rows.*"] ∧ datedRows.root.trails.card = 4 ∧
        r.IsPlacedIn datedRows.root := by
  have built : ofDescription (.mapping datedRows.description) = .ok datedRows := rfl
  have short : (Value.mapping datedRows.description).HasShortNumerals := by
    simp only [Value.HasShortNumerals, Value.AllKeys, datedRows, List.forall_mem_cons]
    exact ⟨⟨Value.isShortKey_text (by decide), trivial⟩, ⟨Value.isShortKey_text (by decide),
      ⟨Value.isShortKey_text (by decide), trivial⟩, ⟨Value.isShortKey_text (by decide), trivial⟩,
      List.forall_mem_nil _⟩, List.forall_mem_nil _⟩
  have plain : datedRows.root.HasPlainNames := by
    simp only [datedRows, Schema.HasPlainNames, List.forall_mem_cons]
    exact ⟨by decide, ⟨by decide, trivial⟩, ⟨by decide, trivial⟩, List.forall_mem_nil _⟩
  refine ⟨built, short, plain, ?_⟩
  obtain ⟨r, hr, hplaced⟩ := (check_placed built short plain).2
    (.mapping [(.text "date", .text "2024-05-17"), (.text "rows", .list [.null, .text "two"])])
  refine ⟨r, hr, ?_, rfl, hplaced⟩
  cases hr
  rfl

end Matcher

end TreeSchema
