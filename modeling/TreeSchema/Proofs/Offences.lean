import Mathlib.Data.List.Nodup
import TreeSchema.Proofs.Literal
import TreeSchema.Proofs.Shape
import TreeSchema.Proofs.Trail

/-!
# The offences of a document

A document that is not taken is told by a line for each of its offences, and this module says which
lines these are. A document leads to other mappings through the values of mappings (`Value.Leads`),
and each entry of such a mapping may offend by its key and by its value (`Document.EntryOffends`).
The recursion that lists the lines is compared with a list of the offences under the places of their
entries (`Document.offences`), in the order in which they are told: in each mapping the keys come
first, then each value with what lies below it. A key that offends does not keep the walk from what
stands under the key, and no place comes twice with the same part, so that each offence is told of
exactly once (`Matcher.ofDocument_tells`).

A line alone does not tell an offence. Two keys of which neither is seen in a path, null and the
empty text, lead to lines of the same path, and the lines of two offences may be equal. What is
listed once is therefore the place, the part and the line, of which the places differ; the lines are
those of the list, so that a line comes as often as there are offences with it.

Lines are made of texts that quote keys and values, and quoting is refused for integers that are too
long. Under the condition that there are none (`Value.HasShortIntegers`) paths and lines are plain
functions of the keys on the way (`Document.pathUnder`, `Document.keyLines`, `Document.valueLines`),
which is how they are stated. The condition is needed, as a document with such an integer may be
refused for it and not told of at all.

The list keeps the order of the walk, which is that of a validator going through the schema of
documents: it looks at all the names in a mapping before it looks at what stands under any of them.
-/

namespace TreeSchema

namespace Trail

variable {α : Type}

/-- Entries of different branches differ by their positions. -/
theorem nodup_branchesFrom {i : Nat} {ls : List (List (Trail × α))} (h : ∀ l ∈ ls, l.Nodup) :
    (branchesFrom i ls).Nodup := by
  induction ls generalizing i with
  | nil => exact .nil
  | cons l ls ih =>
    refine List.nodup_append.2 ⟨?_, ih fun l' hl' => h l' (.tail _ hl'), ?_⟩
    · refine List.Nodup.map (fun a b hab => ?_) (h l (.head _))
      obtain ⟨hplace, hentry⟩ := Prod.mk.inj hab
      exact Prod.ext (List.cons.inj hplace).2 hentry
    · rintro a ha ⟨t, x⟩ hb rfl
      obtain ⟨c, -, hc⟩ := List.mem_map.1 ha
      obtain ⟨j, u, l', rfl, -, -⟩ := mem_branchesFrom.1 hb
      have hij : i = i + 1 + j := (List.cons.inj (congrArg Prod.fst hc)).1
      omega

/-- The entries of branches are all different if those of each branch are. -/
theorem nodup_branches {ls : List (List (Trail × α))} (h : ∀ l ∈ ls, l.Nodup) :
    (branches ls).Nodup :=
  nodup_branchesFrom h

end Trail

/-- **What a value leads to** through the values of mappings: by the positions of entries, under the
keys of these entries, to a value. -/
inductive Value.Leads : Value → Trail → List Value → Value → Prop
  | start {v : Value} : Leads v [] [] v
  | entry {entries : List (Value × Value)} {i : Nat} {key v w : Value} {t : Trail}
      {keys : List Value} : entries[i]? = some (key, v) → Leads v t keys w →
      Leads (.mapping entries) (i :: t) (key :: keys) w

namespace Document

/-! ## What offends

What a path shows of the way to an entry is the texts of the keys, joined by points. A null key
shows nothing, and where nothing is shown the path is that of the root. -/

/-- The segments of the path under keys: the texts of the keys, without those that are null. -/
def segmentsOf (keys : List Value) : List String :=
  (keys.filter fun key => key.type ≠ .null).map Value.shownText

/-- **The path under keys** as a text. -/
def pathUnder (keys : List Value) : String :=
  if ".".intercalate (segmentsOf keys) = "" then "(root)" else ".".intercalate (segmentsOf keys)

/-- The two parts of an entry. -/
inductive Part where
  | key
  | value

/-- **How an entry offends** in the mapping under keys: the part of it that does, and the line that
tells of it. -/
inductive EntryOffends (keys : List Value) : Value × Value → Part → String → Prop
  /-- The key is no text. -/
  | keyNotText {key v : Value} : (∀ s, key ≠ .text s) →
      EntryOffends keys (key, v) .key
        (pathUnder keys ++ ": " ++ key.literalText ++ " is not of type 'string'")
  /-- The key is the empty text. -/
  | emptyKey {v : Value} :
      EntryOffends keys (.text "", v) .key (pathUnder keys ++ ": " ++ "'' should be non-empty")
  /-- The value is neither a text nor a mapping. -/
  | wrongValue {key v : Value} : (∀ s, v ≠ .text s) → (∀ entries, v ≠ .mapping entries) →
      EntryOffends keys (key, v) .value
        (pathUnder (keys ++ [key]) ++ ": " ++ v.literalText ++
          " is not of type 'string', 'object'")

/-- **The offences of a value under keys**: an entry of a mapping that the value leads to, told by
its place, offends by one of its parts. -/
def Offends (keys : List Value) (v : Value) : Trail × Part × String → Prop :=
  fun (place, part, line) => ∃ t below entries i e,
    v.Leads t below (.mapping entries) ∧ entries[i]? = some e ∧ place = t ++ [i] ∧
      EntryOffends (keys ++ below) e part line

/-! ## The offences of an entry

A key offends in one way at most, and so does a value. -/

/-- The line for a key in the mapping under keys, if the key offends. -/
def keyLines (keys : List Value) : Value → List String
  | .text s => if s = "" then [pathUnder keys ++ ": " ++ "'' should be non-empty"] else []
  | key => [pathUnder keys ++ ": " ++ key.literalText ++ " is not of type 'string'"]

/-- The line for a value under keys, if the value itself offends. -/
def valueLines (keys : List Value) : Value → List String
  | .text _ | .mapping _ => []
  | v => [pathUnder keys ++ ": " ++ v.literalText ++ " is not of type 'string', 'object'"]

/-- The line for a key is told if the key offends. -/
theorem mem_keyLines_iff {keys : List Value} {key v : Value} {line : String} :
    line ∈ keyLines keys key ↔ EntryOffends keys (key, v) .key line := by
  constructor
  · intro h
    cases key with
    | text s =>
      rw [keyLines] at h
      split at h
      · rename_i hs
        rw [hs, List.mem_singleton.1 h]
        exact .emptyKey
      · exact absurd h List.not_mem_nil
    | _ =>
      rw [List.mem_singleton.1 h]
      exact .keyNotText fun _ h => by cases h
  · intro h
    cases h with
    | emptyKey => exact .head _
    | keyNotText hkey =>
      cases key with
      | text s => exact absurd rfl (hkey s)
      | _ => exact .head _

/-- The line for a value is told if the value offends. -/
theorem mem_valueLines_iff {keys : List Value} {key v : Value} {line : String} :
    line ∈ valueLines (keys ++ [key]) v ↔ EntryOffends keys (key, v) .value line := by
  constructor
  · intro h
    cases v with
    | text s | mapping entries => exact absurd h List.not_mem_nil
    | _ =>
      rw [List.mem_singleton.1 h]
      exact .wrongValue (fun _ h => by cases h) fun _ h => by cases h
  · intro h
    cases h with
    | wrongValue htext hmapping =>
      cases v with
      | text s => exact absurd rfl (htext s)
      | mapping entries => exact absurd rfl (hmapping entries)
      | _ => exact .head _

/-- There is one line for a key at most. -/
theorem nodup_keyLines (keys : List Value) (key : Value) : (keyLines keys key).Nodup := by
  unfold keyLines
  split
  · split <;> simp
  · simp

/-- There is one line for a value at most. -/
theorem nodup_valueLines (keys : List Value) (v : Value) : (valueLines keys v).Nodup := by
  unfold valueLines
  split <;> simp

/-! ## The offences of a document under their places

The list is made as the walk goes: for the keys of a mapping a branch for each entry, and then for
its values a branch for each entry once more, with all that lies below it. -/

/-- The offences of the keys of the mapping under keys, each with the place of its entry. -/
def keyOffencesAt (keys : List Value) (entries : List (Value × Value)) :
    List (Trail × Part × String) :=
  Trail.branches (entries.map fun e => (keyLines keys e.1).map ([], .key, ·))

mutual

/-- **The offences of a value under keys**, each with the place of its entry, in the order in which
they are told. -/
def offences (keys : List Value) : Value → List (Trail × Part × String)
  | .mapping entries => keyOffencesAt keys entries ++ Trail.branches (valueOffences keys entries)
  | _ => []

/-- The offences of each value of the mapping under keys, and of what lies below it. -/
def valueOffences (keys : List Value) :
    List (Value × Value) → List (List (Trail × Part × String))
  | [] => []
  | (key, v) :: es =>
    ((valueLines (keys ++ [key]) v).map ([], .value, ·) ++ offences (keys ++ [key]) v)
      :: valueOffences keys es

end

/-- The branches of the values are made one by one. -/
theorem valueOffences_eq_map (keys : List Value) (entries : List (Value × Value)) :
    valueOffences keys entries = entries.map fun e =>
      (valueLines (keys ++ [e.1]) e.2).map ([], .value, ·) ++ offences (keys ++ [e.1]) e.2 := by
  induction entries with
  | nil => rfl
  | cons e entries ih => rw [valueOffences, ih, List.map_cons]

/-- What is listed for the keys of a mapping. -/
theorem mem_keyOffencesAt_iff {keys : List Value} {entries : List (Value × Value)} {place : Trail}
    {part : Part} {line : String} :
    (place, part, line) ∈ keyOffencesAt keys entries ↔ ∃ i e, entries[i]? = some e ∧
      place = [i] ∧ part = .key ∧ EntryOffends keys e .key line := by
  rw [keyOffencesAt, Trail.mem_branches]
  constructor
  · rintro ⟨i, u, l, rfl, hl, hu⟩
    rw [List.getElem?_map, Option.map_eq_some_iff] at hl
    obtain ⟨e, he, rfl⟩ := hl
    obtain ⟨line, hline, heq⟩ := List.mem_map.1 hu
    cases heq
    exact ⟨i, e, he, rfl, rfl, mem_keyLines_iff.1 hline⟩
  · rintro ⟨i, e, he, rfl, rfl, hoffends⟩
    exact ⟨i, [], _, rfl, by rw [List.getElem?_map, he]; rfl,
      List.mem_map.2 ⟨line, mem_keyLines_iff.2 hoffends, rfl⟩⟩

/-- What is listed for the values of a mapping, and below them. -/
theorem mem_valueOffences_iff {keys : List Value} {entries : List (Value × Value)} {place : Trail}
    {part : Part} {line : String} :
    (place, part, line) ∈ Trail.branches (valueOffences keys entries) ↔
      ∃ i e u, place = i :: u ∧ entries[i]? = some e ∧
        (u = [] ∧ part = .value ∧ EntryOffends keys e .value line ∨
          (u, part, line) ∈ offences (keys ++ [e.1]) e.2) := by
  rw [valueOffences_eq_map, Trail.mem_branches]
  constructor
  · rintro ⟨i, u, l, rfl, hl, hu⟩
    rw [List.getElem?_map, Option.map_eq_some_iff] at hl
    obtain ⟨e, he, rfl⟩ := hl
    refine ⟨i, e, u, rfl, he, ?_⟩
    obtain hu | hu := List.mem_append.1 hu
    · obtain ⟨line, hline, heq⟩ := List.mem_map.1 hu
      cases heq
      exact .inl ⟨rfl, rfl, mem_valueLines_iff.1 hline⟩
    · exact .inr hu
  · rintro ⟨i, e, u, rfl, he, hu⟩
    refine ⟨i, u, _, rfl, by rw [List.getElem?_map, he]; rfl, List.mem_append.2 ?_⟩
    obtain ⟨rfl, rfl, hoffends⟩ | hu := hu
    · exact .inl (List.mem_map.2 ⟨line, mem_valueLines_iff.2 hoffends, rfl⟩)
    · exact .inr hu

/-- A mapping offends by one of its own entries or further below. -/
theorem offends_mapping_iff {keys : List Value} {entries : List (Value × Value)} {place : Trail}
    {part : Part} {line : String} :
    Offends keys (.mapping entries) (place, part, line)
      ↔ ∃ i e u, place = i :: u ∧ entries[i]? = some e ∧
          (u = [] ∧ EntryOffends keys e part line
            ∨ Offends (keys ++ [e.1]) e.2 (u, part, line)) := by
  constructor
  · rintro ⟨t, below, es, i, e, hleads, he, rfl, hoffends⟩
    cases hleads with
    | start =>
      rw [List.append_nil] at hoffends
      exact ⟨i, e, [], rfl, he, .inl ⟨rfl, hoffends⟩⟩
    | entry hentry hrest =>
      refine ⟨_, _, _, rfl, hentry, .inr ⟨_, _, es, i, e, hrest, he, rfl, ?_⟩⟩
      rw [List.append_assoc]
      exact hoffends
  · rintro ⟨i, ⟨key, v⟩, u, rfl, hentry, ⟨rfl, hoffends⟩ | hoffends⟩
    · refine ⟨[], [], entries, i, _, .start, hentry, rfl, ?_⟩
      rw [List.append_nil]
      exact hoffends
    · obtain ⟨t, below, es, j, e, hleads, he, rfl, hoffends⟩ := hoffends
      refine ⟨i :: t, key :: below, es, j, e, .entry hentry hleads, he, rfl, ?_⟩
      rw [List.append_assoc] at hoffends
      exact hoffends

/-- What is no mapping leads to no mapping, and so it has no offences. -/
theorem not_offends_leaf {keys : List Value} {v : Value} (hv : ∀ entries, v ≠ .mapping entries)
    (o : Trail × Part × String) : ¬ Offends keys v o := by
  rintro ⟨t, below, entries, i, e, hleads, -, -, -⟩
  cases hleads with
  | start => exact hv entries rfl
  | entry _ _ => exact hv _ rfl

/-- **The list holds every offence.** -/
theorem mem_offences_iff {keys : List Value} {v : Value} {o : Trail × Part × String} :
    o ∈ offences keys v ↔ Offends keys v o := by
  obtain ⟨place, part, line⟩ := o
  induction v using Value.descriptionInduction generalizing keys place with
  | leaf v hv =>
    refine iff_of_false ?_ (not_offends_leaf hv _)
    rw [offences]
    · exact List.not_mem_nil
    · exact hv
  | mapping entries ih =>
    rw [offences, List.mem_append, mem_keyOffencesAt_iff, mem_valueOffences_iff,
      offends_mapping_iff]
    constructor
    · rintro (⟨i, e, he, rfl, rfl, hkey⟩ | ⟨i, e, u, rfl, he, ⟨rfl, rfl, hvalue⟩ | hbelow⟩)
      · exact ⟨i, e, [], rfl, he, .inl ⟨rfl, hkey⟩⟩
      · exact ⟨i, e, [], rfl, he, .inl ⟨rfl, hvalue⟩⟩
      · exact ⟨i, e, u, rfl, he, .inr ((ih e (List.mem_of_getElem? he) u).1 hbelow)⟩
    · rintro ⟨i, e, u, rfl, he, ⟨rfl, hoffends⟩ | hbelow⟩
      · cases part with
        | key => exact .inl ⟨i, e, he, rfl, rfl, hoffends⟩
        | value => exact .inr ⟨i, e, [], rfl, he, .inl ⟨rfl, rfl, hoffends⟩⟩
      · exact .inr ⟨i, e, u, rfl, he, .inr ((ih e (List.mem_of_getElem? he) u).2 hbelow)⟩

/-- **The list holds no offence twice.** -/
theorem nodup_offences (keys : List Value) (v : Value) : (offences keys v).Nodup := by
  induction v using Value.descriptionInduction generalizing keys with
  | leaf v hv =>
    rw [offences]
    · exact .nil
    · exact hv
  | mapping entries ih =>
    have hplace : ∀ {u : Trail} {o : Part × String} {keys : List Value} {v : Value},
        (u, o) ∈ offences keys v → u ≠ [] := fun h => by
      obtain ⟨t, _, _, i, _, -, -, rfl, -⟩ := mem_offences_iff.1 h
      exact List.append_ne_nil_of_right_ne_nil t (List.cons_ne_nil i [])
    rw [offences]
    refine List.nodup_append.2 ⟨Trail.nodup_branches fun l hl => ?_,
      Trail.nodup_branches fun l hl => ?_, ?_⟩
    · obtain ⟨e, -, rfl⟩ := List.mem_map.1 hl
      exact List.Nodup.map (fun _ _ h => (Prod.mk.inj (Prod.mk.inj h).2).2)
        (nodup_keyLines keys e.1)
    · rw [valueOffences_eq_map] at hl
      obtain ⟨e, he, rfl⟩ := List.mem_map.1 hl
      refine List.nodup_append.2 ⟨List.Nodup.map
        (fun _ _ h => (Prod.mk.inj (Prod.mk.inj h).2).2) (nodup_valueLines _ e.2), ih e he _, ?_⟩
      -- Below the entry there are entries of its value, so their places are not the entry's own.
      rintro a ha ⟨u, o⟩ hb rfl
      obtain ⟨_, -, heq⟩ := List.mem_map.1 ha
      cases heq
      exact hplace hb rfl
    -- A key is told of at the place of its entry, where only the value is told of besides.
    · rintro ⟨place, part, line⟩ ha b hb rfl
      obtain ⟨i, e, -, rfl, rfl, -⟩ := mem_keyOffencesAt_iff.1 ha
      obtain ⟨j, e', u, hu, -, ⟨-, hpart, -⟩ | hbelow⟩ := mem_valueOffences_iff.1 hb
      · cases hpart
      · obtain ⟨-, rfl⟩ := List.cons.inj hu
        exact hplace hbelow rfl

/-! ## The lines that are listed

The walk has segments in hand where the list has keys. A path of segments is that of the keys if all
of them can be written. -/

/-- The path of segments is the one under the keys. -/
theorem pathText_segmentsOf (keys : List Value) : pathText (segmentsOf keys) = pathUnder keys := by
  unfold pathText pathUnder
  simp only [String.isEmpty_iff]

/-- The line for an offence at the path under keys. -/
theorem line_segmentsOf (keys : List Value) (o : Offence) :
    line (segmentsOf keys) o = pathUnder keys ++ ": " ++ o.message := by
  rw [line, pathText_segmentsOf]

/-- The line for a key that is no text. -/
theorem line_keyNotText (keys : List Value) (literal : String) :
    line (segmentsOf keys) (.keyNotText literal)
      = pathUnder keys ++ ": " ++ literal ++ " is not of type 'string'" :=
  (line_segmentsOf keys _).trans String.append_assoc.symm

/-- The line for a value that is neither a text nor a mapping. -/
theorem line_wrongValue (keys : List Value) (literal : String) :
    line (segmentsOf keys) (.wrongValue literal)
      = pathUnder keys ++ ": " ++ literal ++ " is not of type 'string', 'object'" :=
  (line_segmentsOf keys _).trans String.append_assoc.symm

/-- The path below a path grows by the text of the key, unless the key is null. -/
theorem below_segmentsOf {key : Value} (short : key.HasShortIntegers) (keys : List Value) :
    below (segmentsOf keys) key = .ok (segmentsOf (keys ++ [key])) := by
  rw [segmentsOf, segmentsOf, List.filter_append, List.map_append]
  have hshown := Value.shown_eq short
  cases key with
  | null => rw [below]; simp [Value.type]
  | _ =>
    rw [below, hshown]
    · simp [Value.type, bind, Except.bind, pure, Except.pure]
    · exact fun h => by cases h

/-- A key is told of by its line. -/
theorem keyOffences_eq {key : Value} (short : key.HasShortIntegers) (keys : List Value) :
    ∃ os, keyOffences key = .ok os ∧ os.map (line (segmentsOf keys)) = keyLines keys key := by
  have hliteral := Value.literal_eq short
  cases key with
  | text s =>
    refine ⟨_, rfl, ?_⟩
    rw [keyLines]
    by_cases hs : s = ""
    · rw [if_pos hs, if_pos (String.isEmpty_iff.2 hs), List.map_singleton, line_segmentsOf]
      rfl
    · rw [if_neg hs, if_neg fun h => hs (String.isEmpty_iff.1 h)]
      rfl
  | _ =>
    rw [keyOffences, hliteral]
    · refine ⟨_, rfl, ?_⟩
      rw [List.map_singleton, line_keyNotText, keyLines]
      exact fun _ h => by cases h
    · exact fun _ h => by cases h

/-- A value that is no mapping is told of by its own line. -/
theorem violationsAt_leaf {v : Value} (hv : ∀ entries, v ≠ .mapping entries)
    (short : v.HasShortIntegers) (depth : Nat) (keys : List Value) :
    violationsAt (Value.view .unbounded) depth (segmentsOf keys) v = .ok (valueLines keys v) := by
  obtain ⟨s, rfl, hview⟩ | ⟨htext, hview⟩ := Value.view_of_leaf hv
  · exact violationsAt_of_text (hview _) _ _
  · rw [violationsAt_of_other (hview _), Value.quote, if_pos (by trivial), Value.literal_eq short]
    show Except.ok [line (segmentsOf keys) (.wrongValue _)] = _
    rw [line_wrongValue, valueLines]
    · exact htext
    · exact hv

/-- The lines of branches are those of each branch in turn. -/
theorem map_line_branches (ls : List (List (Trail × Part × String))) :
    (Trail.branches ls).map (fun o => o.2.2) = (ls.map (List.map fun o => o.2.2)).flatten := by
  have hlines := congrArg (List.map Prod.snd) (Trail.map_snd_branches ls)
  rw [List.map_map, List.map_flatten, List.map_map] at hlines
  simpa [Function.comp_def] using hlines

/-- The keys of a mapping are told of one by one. -/
theorem keyViolations_eq {entries : List (Value × Value)}
    (short : ∀ e ∈ entries, e.1.HasShortIntegers) (keys : List Value) :
    keyViolations (segmentsOf keys) entries
      = .ok ((keyOffencesAt keys entries).map fun o => o.2.2) := by
  obtain ⟨told, htold⟩ := exists_forall₂ fun e he => keyOffences_eq (short e he) keys
  have hlines : told.map (List.map (line (segmentsOf keys)))
      = entries.map fun e => keyLines keys e.1 := by
    rw [← List.forall₂_eq_eq_eq, List.forall₂_map_left_iff, List.forall₂_map_right_iff]
    exact htold.flip.imp fun _ _ h => h.2
  rw [keyViolations, mapM_eq_ok_iff.2 (htold.imp fun _ _ h => h.1), keyOffencesAt,
    map_line_branches, List.map_map]
  show Except.ok (told.flatten.map _) = _
  rw [List.map_flatten, hlines]
  simp [Function.comp_def]

/-- The values of a mapping are told of one by one, and what stands below each with it. -/
theorem valueViolations_eq {inside : List String → Value → Except ShapeFault (List String)}
    {entries : List (Value × Value)} (short : ∀ e ∈ entries, e.1.HasShortIntegers)
    {keys : List Value}
    (hinside : ∀ e ∈ entries, inside (segmentsOf (keys ++ [e.1])) e.2
      = .ok (valueLines (keys ++ [e.1]) e.2
          ++ (offences (keys ++ [e.1]) e.2).map fun o => o.2.2)) :
    valueViolations inside (segmentsOf keys) entries
      = .ok ((Trail.branches (valueOffences keys entries)).map fun o => o.2.2) := by
  have heach : entries.mapM (fun e => do
      inside (← (below (segmentsOf keys) e.1).mapError ShapeFault.numeral) e.2)
      = .ok (entries.map fun e => valueLines (keys ++ [e.1]) e.2
          ++ (offences (keys ++ [e.1]) e.2).map fun o => o.2.2) := by
    rw [mapM_eq_ok_iff, List.forall₂_map_right_iff, List.forall₂_same]
    intro e he
    rw [below_segmentsOf (short e he)]
    exact hinside e he
  rw [valueViolations, heach, map_line_branches, valueOffences_eq_map, List.map_map]
  show Except.ok (List.flatten _) = _
  simp [Function.comp_def]

/-- **The lines that are listed** are those of the value itself and of the offences below it. -/
theorem violationsAt_eq {v : Value} (short : v.HasShortIntegers) {depth : Nat}
    (hdepth : v.levels ≤ depth) (keys : List Value) :
    violationsAt (Value.view .unbounded) depth (segmentsOf keys) v
      = .ok (valueLines keys v ++ (offences keys v).map fun o => o.2.2) := by
  induction v using Value.descriptionInduction generalizing depth keys with
  | leaf v hv =>
    rw [violationsAt_leaf hv short, offences]
    · rw [List.map_nil, List.append_nil]
    · exact hv
  | mapping entries ih =>
    rw [Value.HasShortIntegers] at short
    have hkeys : ∀ e ∈ entries, e.1.HasShortIntegers := fun e he => (short e he).1
    obtain ⟨depth, rfl⟩ : ∃ n, depth = n + 1 :=
      Nat.exists_eq_succ_of_ne_zero fun h => by rw [h, Value.levels] at hdepth; omega
    rw [violationsAt_succ rfl, keyViolations_eq hkeys, valueViolations_eq hkeys fun e he => ?_]
    · rw [offences, List.map_append]
      rfl
    · have hlt := Value.levels_lt_of_mem he
      exact ih e he (short e he).2 (by omega) _

/-- The lines of a value are those of its offences. -/
theorem violations_eq {v : Value} (short : v.HasShortIntegers) :
    v.violations .unbounded
      = .ok (valueLines [] v ++ (offences [] v).map fun o => o.2.2) :=
  violationsAt_eq short (Nat.le_refl _) []

/-- **A mapping has the shape of a document** if it has no offences. -/
theorem isDocument_iff_offences_eq_nil {entries : List (Value × Value)}
    (short : (Value.mapping entries).HasShortIntegers) :
    (Value.mapping entries).IsDocument ↔ offences [] (.mapping entries) = [] := by
  rw [← eq_nil_of_violationsAt_iff (violations_eq short), valueLines, List.nil_append,
    List.map_eq_nil_iff]

/-- Where there are offences, there is a mapping with a key or a value that offends. -/
theorem exists_offends_iff {v : Value} :
    (∃ o, Offends [] v o)
      ↔ ∃ t keys entries key value, v.Leads t keys (.mapping entries) ∧ (key, value) ∈ entries ∧
          ((∀ s, key ≠ .text s) ∨ key = .text ""
            ∨ (∀ s, value ≠ .text s) ∧ ∀ es, value ≠ .mapping es) := by
  constructor
  · rintro ⟨⟨place, part, line⟩, t, keys, entries, i, ⟨key, value⟩, hleads, he, -, hoffends⟩
    refine ⟨t, keys, entries, key, value, hleads, List.mem_of_getElem? he, ?_⟩
    cases hoffends with
    | keyNotText hkey => exact .inl hkey
    | emptyKey => exact .inr (.inl rfl)
    | wrongValue htext hmapping => exact .inr (.inr ⟨htext, hmapping⟩)
  · rintro ⟨t, keys, entries, key, value, hleads, he, hoffends⟩
    obtain ⟨i, hi⟩ := List.getElem?_of_mem he
    obtain hkey | rfl | ⟨htext, hmapping⟩ := hoffends
    · exact ⟨(_, _, _), t, keys, entries, i, _, hleads, hi, rfl, .keyNotText hkey⟩
    · exact ⟨(_, _, _), t, keys, entries, i, _, hleads, hi, rfl, .emptyKey⟩
    · exact ⟨(_, _, _), t, keys, entries, i, _, hleads, hi, rfl, .wrongValue htext hmapping⟩

end Document

namespace Matcher

open Document

/-- **What is made of a mapping**: a matcher if there are no offences, or else the lines of all of
them. -/
theorem ofDocument_mapping {entries : List (Value × Value)}
    (short : (Value.mapping entries).HasShortIntegers) :
    (offences [] (.mapping entries) = [] ∧ ∃ m, ofDocument (.mapping entries) = .ok m)
      ∨ offences [] (.mapping entries) ≠ [] ∧ ofDocument (.mapping entries)
          = .error (.definition
              (.offences ((offences [] (.mapping entries)).map fun o => o.2.2))) := by
  by_cases hnil : offences [] (.mapping entries) = []
  · exact .inl ⟨hnil, exists_ofDocument_eq_ok ((isDocument_iff_offences_eq_nil short).2 hnil)⟩
  · refine .inr ⟨hnil, ?_⟩
    have hlines : Decoded.violations .unbounded (.tree (.mapping entries))
        = .ok ((offences [] (.mapping entries)).map fun o => o.2.2) := violations_eq short
    rw [ofDocument, ofDecoded]
    simp only [Decoded.upTo, hlines]
    cases hall : offences [] (.mapping entries) with
    | nil => exact absurd hall hnil
    | cons o os => rfl

/-- **A document is taken or told what offends in it.** What is no mapping is told so. A mapping is
refused exactly when it leads to a mapping with a key that is no text, an empty key, or a value that
is neither a text nor a mapping; it is then told one line for each key and each value of this kind,
with its path, and the message is these lines. Otherwise the matcher is that of the mapping as a
description. -/
theorem ofDocument_tells {document : Value} (short : document.HasShortIntegers) :
    ((∀ entries, document ≠ .mapping entries) → ∃ fault,
      ofDocument document = .error (.definition fault) ∧
        fault.violations = ["(root): not a mapping"]) ∧
    ∀ entries, document = .mapping entries →
      ((∃ fault, ofDocument document = .error (.definition fault))
        ↔ ∃ t keys es key value, document.Leads t keys (.mapping es) ∧ (key, value) ∈ es ∧
            ((∀ s, key ≠ .text s) ∨ key = .text ""
              ∨ (∀ s, value ≠ .text s) ∧ ∀ inner, value ≠ .mapping inner)) ∧
      (∀ fault, ofDocument document = .error fault →
        ∃ told, ∃ offending : List (Trail × Part × String),
          fault = .definition told ∧ offending.Nodup ∧
          (∀ o, o ∈ offending ↔ Offends [] document o) ∧
          told.violations = offending.map (fun o => o.2.2) ∧
          told.message = "Invalid schema document: " ++ "; ".intercalate told.violations) ∧
      ∀ m, ofDocument document = .ok m →
        m.description = entries ∧ ofDescription document = .ok m := by
  refine ⟨fun hother => ?_, ?_⟩
  · cases document with
    | mapping entries => exact absurd rfl (hother entries)
    | _ => exact ⟨_, rfl, rfl⟩
  · rintro entries rfl
    refine ⟨?_, fun fault hfault => ?_, fun m hm => ?_⟩
    -- The lines are computed, and what is computed lists the offences, so there is none exactly if
    -- the list is empty.
    · rw [← exists_offends_iff]
      simp only [← mem_offences_iff]
      obtain ⟨hnil, m, hm⟩ | ⟨hne, herror⟩ := ofDocument_mapping short
      · refine iff_of_false ?_ ?_
        · rintro ⟨_, h⟩
          cases hm.symm.trans h
        · rintro ⟨o, ho⟩
          rw [hnil] at ho
          exact absurd ho List.not_mem_nil
      · exact iff_of_true ⟨_, herror⟩ (List.exists_mem_of_ne_nil _ hne)
    · obtain ⟨-, m, hm⟩ | ⟨-, herror⟩ := ofDocument_mapping short
      · cases hm.symm.trans hfault
      · cases herror.symm.trans hfault
        exact ⟨_, _, rfl, nodup_offences [] _, fun o => mem_offences_iff, rfl, rfl⟩
    · obtain ⟨_, -, -, hdescription⟩ := ofDocument_eq_ok_iff.1 hm
      exact ⟨(ofDescription_mapping hdescription).1, hdescription⟩

/-- A number as a key, a null key and a list below it, and an empty key: each is told of once. -/
theorem ofDocument_tells_fourOffences :
    let document : Value := .mapping [(.int 3, .mapping [(.null, .list [.bool true])]),
      (.text "", .text "string")]
    document.HasShortIntegers ∧ ∃ told, ∃ offending : List (Trail × Part × String),
      ofDocument document = .error (.definition told) ∧ offending.Nodup ∧
        (∀ o, o ∈ offending ↔ Offends [] document o) ∧
        told.violations = ["(root): 3 is not of type 'string'", "(root): '' should be non-empty",
          "3: None is not of type 'string'", "3: [True] is not of type 'string', 'object'"] := by
  intro document
  have short : document.HasShortIntegers := by
    simp [document, Value.HasShortIntegers]
    decide
  have hfault : ofDocument document = .error (.definition (.offences
      ["(root): 3 is not of type 'string'", "(root): '' should be non-empty",
        "3: None is not of type 'string'", "3: [True] is not of type 'string', 'object'"])) := rfl
  obtain ⟨-, htold, -⟩ := (ofDocument_tells short).2 _ rfl
  obtain ⟨told, offending, heq, hnodup, hall, -, -⟩ := htold _ hfault
  cases heq
  exact ⟨short, _, offending, hfault, hnodup, hall, rfl⟩

end Matcher

end TreeSchema
