import TreeSchema.Loading
import TreeSchema.Proofs.Computation

/-!
# The shape of documents

A schema document is made of texts, and of mappings whose keys are texts of at least one character
(`Value.IsDocument`). A document that has this shape is one where nothing offends, so a matcher is
made of it and of no other (`Matcher.ofDocument_eq_ok_iff`). In particular all its keys are texts.

Whether the walk that looks at the shape comes to its end is another question. It asks for room for
every mapping, and it quotes everything that offends. What it comes through (`Document.Passes`) and
what it halts at first (`Document.Halts`) follows its order: the keys of a mapping, then the values
one after the other. A walk that comes through tells the same whatever room it has
(`Value.violations_unbounded`), so room decides whether a document is told of, and never what is
told (`Matcher.ofDecoded_tree`).

A document is a data tree, or it goes in circles, and the walk does not know which. It sees one
value at a time: a text, a mapping with its keys and what stands under them, or something else with
its literal (`Document.View`). The two relations are stated for any such view, and so is how the
walk ends (`Document.exists_violationsAt_iff`, `Document.violationsAt_eq_error_iff`). What a
document without circles adds is a number of levels. The walk comes through it if it has room for as
many, and if its integers are short (`Value.passes_of_fits`); where it halts, one of the two is not
so (`Value.halts_cases`).

The relations are exact, and the conditions on the levels are not. A text at the end of a long chain
of mappings needs no room of its own, a value that offends needs room for its own levels on top of
those above it, and an integer that is too long may stand in front of what there is no room for.
Which fault is told depends on what comes first, so the statement of it follows the walk.
-/

namespace TreeSchema

namespace Value

/-- **What a schema document is made of**: texts, and mappings from texts of at least one character
to such values again. -/
def IsDocument : Value → Prop
  | text _ => True
  | mapping entries => ∀ e ∈ entries, (∃ s, e.1 = text s ∧ s ≠ "") ∧ e.2.IsDocument
  | _ => False
termination_by v => sizeOf v
decreasing_by exact sizeOf_lt_of_mem ‹e ∈ entries›

/-- All leaves of a document are texts. -/
theorem IsDocument.hasTextLeaves {v : Value} (h : v.IsDocument) : v.HasTextLeaves := by
  induction v using descriptionInduction with
  | leaf v hv =>
    cases v with
    | text s =>
      rw [HasTextLeaves]
      trivial
    | mapping entries => exact absurd rfl (hv entries)
    | _ =>
      rw [IsDocument] at h
      · exact h.elim
      all_goals simp
  | mapping entries ih =>
    rw [IsDocument] at h
    rw [HasTextLeaves]
    exact fun e he => ih e he (h e he).2

/-- All keys of a document are texts. -/
theorem IsDocument.allKeys {v : Value} (h : v.IsDocument) :
    v.AllKeys fun key => ∃ s, key = text s := by
  induction v using descriptionInduction with
  | leaf v hv =>
    rw [AllKeys]
    · trivial
    · exact hv
  | mapping entries ih =>
    rw [IsDocument] at h
    rw [AllKeys]
    intro e he
    obtain ⟨⟨s, hs, -⟩, hvalue⟩ := h e he
    exact ⟨⟨s, hs⟩, ih e he hvalue⟩

/-- All integers in a document are short, as there are none. -/
theorem IsDocument.hasShortIntegers {v : Value} (h : v.IsDocument) : v.HasShortIntegers := by
  induction v using descriptionInduction with
  | leaf v hv =>
    cases v with
    | text s => simp [HasShortIntegers]
    | mapping entries => exact absurd rfl (hv entries)
    | _ =>
      rw [IsDocument] at h
      · exact h.elim
      all_goals simp
  | mapping entries ih =>
    rw [IsDocument] at h
    rw [HasShortIntegers]
    intro e he
    obtain ⟨⟨s, hs, -⟩, hvalue⟩ := h e he
    refine ⟨?_, ih e he hvalue⟩
    rw [hs]
    simp [HasShortIntegers]

end Value

namespace Document

variable {σ : Type} {view : σ → View σ} {depth : Nat} {x : σ} {fault : ShapeFault}
  {entries : List (Value × σ)}

/-! ## Looking at one value

What is told of a value by what is seen of it. -/

/-- A text does not offend. -/
theorem violationsAt_of_text (h : view x = .text) (depth : Nat) (segments : List String) :
    violationsAt view depth segments x = .ok [] := by
  unfold violationsAt
  rw [h]

/-- What is neither a text nor a mapping is quoted. -/
theorem violationsAt_of_other {literal : Except ShapeFault String} (h : view x = .other literal)
    (depth : Nat) (segments : List String) : violationsAt view depth segments x
      = literal.map fun s => [line segments (.wrongValue s)] := by
  unfold violationsAt
  rw [h]
  cases literal <;> rfl

/-- There is no room to go into a mapping. -/
theorem violationsAt_zero (h : view x = .mapping entries) (segments : List String) :
    violationsAt view 0 segments x = .error .tooDeep := by
  unfold violationsAt
  rw [h]

/-- In a mapping the keys are told of first, then the values. -/
theorem violationsAt_succ (h : view x = .mapping entries) (depth : Nat) (segments : List String) :
    violationsAt view (depth + 1) segments x = (do
      let keys ← (keyViolations segments entries).mapError .numeral
      return keys ++ (← valueViolations (violationsAt view depth) segments entries)) := by
  conv_lhs => unfold violationsAt
  rw [h]

/-! ## Keys

Whether keys can be told of does not depend on room: a key that was read from a text is a scalar. -/

/-- A key is refused only because it is too long to be written. -/
theorem comesTo_keyOffences (key : Value) :
    ComesTo (· = .tooLongToWrite) (fun _ => True) (keyOffences key) := by
  cases key with
  | text s => exact .ok trivial
  | _ => exact (Value.comesTo_literal _).bind fun _ _ => .ok trivial

/-- A key is told of if it can be written. -/
theorem exists_keyOffences_iff {key : Value} :
    (∃ os, keyOffences key = .ok os) ↔ key.HasShortIntegers := by
  rw [← Value.exists_literal_iff]
  cases key with
  | text s => exact iff_of_true ⟨_, rfl⟩ ⟨_, rfl⟩
  | _ =>
    rw [keyOffences]
    · constructor
      · rintro ⟨os, h⟩
        obtain ⟨s, hs, -⟩ := bind_eq_ok_iff.1 h
        exact ⟨s, hs⟩
      · rintro ⟨s, hs⟩
        rw [hs]
        exact ⟨_, rfl⟩
    · exact fun _ h => by cases h

/-- The keys of a mapping are told of if they can be written. -/
theorem exists_keyViolations_iff (entries : List (Value × σ)) (segments : List String) :
    (∃ lines, keyViolations segments entries = .ok lines) ↔
      ∀ e ∈ entries, e.1.HasShortIntegers := by
  simp only [← exists_keyOffences_iff]
  rw [← exists_mapM_eq_ok_iff, keyViolations]
  constructor
  · rintro ⟨lines, h⟩
    obtain ⟨os, hos, -⟩ := bind_eq_ok_iff.1 h
    exact ⟨os, hos⟩
  · rintro ⟨os, hos⟩
    rw [hos]
    exact ⟨_, rfl⟩

/-- The keys of a mapping are not told of if one of them is too long to be written. -/
theorem keyViolations_eq_error_iff {segments : List String} {fault : NumeralFault} :
    keyViolations segments entries = .error fault ↔
      fault = .tooLongToWrite ∧ ∃ e ∈ entries, ¬ e.1.HasShortIntegers := by
  have hcomes : ComesTo (· = .tooLongToWrite) (fun _ => True) (keyViolations segments entries) :=
    (ComesTo.mapM fun e _ => comesTo_keyOffences e.1).bind fun _ _ => .ok trivial
  have hiff := not_congr (exists_keyViolations_iff entries segments)
  rw [not_forall₂] at hiff
  constructor
  · intro h
    obtain ⟨e, he, hlong⟩ := hiff.1 (by rw [h]; rintro ⟨_, ⟨⟩⟩)
    exact ⟨hcomes.of_eq_error h, e, he, hlong⟩
  · rintro ⟨rfl, e, he, hlong⟩
    cases h : keyViolations segments entries with
    | ok lines => exact absurd ⟨lines, h⟩ (hiff.2 ⟨e, he, hlong⟩)
    | error fault => rw [hcomes.of_eq_error h]

/-- The path goes on under a key that can be written. -/
theorem exists_below {key : Value} (short : key.HasShortIntegers) (segments : List String) :
    ∃ segments', below segments key = .ok segments' := by
  have hshown := Value.shown_eq short
  cases key with
  | null => exact ⟨_, rfl⟩
  | _ =>
    rw [below, hshown]
    · exact ⟨_, rfl⟩
    · exact fun h => by cases h

/-! ## How the walk ends

The two relations exclude each other and cover everything, which is not proved of them but comes out
of the walk: it ends with lines or with a fault, and each of the two is characterized. -/

/-- **What the walk comes through** when it may go into `depth` mappings, one inside the other: all
that it comes to can be told. -/
inductive Passes (view : σ → View σ) : Nat → σ → Prop
  | text {depth : Nat} {x : σ} (hview : view x = .text) : Passes view depth x
  | other {depth : Nat} {x : σ} {literal : String} (hview : view x = .other (.ok literal)) :
      Passes view depth x
  | mapping {depth : Nat} {x : σ} {entries : List (Value × σ)} (hview : view x = .mapping entries)
      (hkeys : ∀ e ∈ entries, e.1.HasShortIntegers)
      (hvalues : ∀ e ∈ entries, Passes view depth e.2) : Passes view (depth + 1) x

/-- **What the walk halts at**: the first thing on its way that cannot be told, or a mapping that it
has no room to go into. -/
inductive Halts (view : σ → View σ) : ShapeFault → Nat → σ → Prop
  | other {fault : ShapeFault} {depth : Nat} {x : σ} (hview : view x = .other (.error fault)) :
      Halts view fault depth x
  | noRoom {x : σ} {entries : List (Value × σ)} (hview : view x = .mapping entries) :
      Halts view .tooDeep 0 x
  | key {depth : Nat} {x : σ} {entries : List (Value × σ)} {e : Value × σ}
      (hview : view x = .mapping entries) (he : e ∈ entries) (hlong : ¬ e.1.HasShortIntegers) :
      Halts view (.numeral .tooLongToWrite) (depth + 1) x
  | value {fault : ShapeFault} {depth : Nat} {x : σ} {front back : List (Value × σ)}
      {e : Value × σ} (hview : view x = .mapping (front ++ e :: back))
      (hkeys : ∀ b ∈ front ++ e :: back, b.1.HasShortIntegers)
      (hfront : ∀ b ∈ front, Passes view depth b.2) (h : Halts view fault depth e.2) :
      Halts view fault (depth + 1) x

/-- The walk comes through a mapping whose keys can be written, if it comes through all the
values. -/
theorem passes_mapping_iff (hview : view x = .mapping entries) :
    Passes view (depth + 1) x ↔
      (∀ e ∈ entries, e.1.HasShortIntegers) ∧ ∀ e ∈ entries, Passes view depth e.2 := by
  constructor
  · intro h
    cases h with
    | mapping hview' hkeys hvalues =>
      cases hview.symm.trans hview'
      exact ⟨hkeys, hvalues⟩
    | text hview' | other hview' => cases hview.symm.trans hview'
  · rintro ⟨hkeys, hvalues⟩
    exact .mapping hview hkeys hvalues

/-- The walk halts at a key of a mapping, or at the first of the values that it does not come
through. -/
theorem halts_mapping_iff (hview : view x = .mapping entries) :
    Halts view fault (depth + 1) x ↔
      (fault = .numeral .tooLongToWrite ∧ ∃ e ∈ entries, ¬ e.1.HasShortIntegers) ∨
      (∀ e ∈ entries, e.1.HasShortIntegers) ∧ ∃ front e back, entries = front ++ e :: back ∧
        (∀ b ∈ front, Passes view depth b.2) ∧ Halts view fault depth e.2 := by
  constructor
  · intro h
    cases h with
    | other hview' => cases hview.symm.trans hview'
    | key hview' he hlong =>
      cases hview.symm.trans hview'
      exact .inl ⟨rfl, _, he, hlong⟩
    | value hview' hkeys hfront h =>
      cases hview.symm.trans hview'
      exact .inr ⟨hkeys, _, _, _, rfl, hfront, h⟩
  · rintro (⟨rfl, e, he, hlong⟩ | ⟨hkeys, front, e, back, rfl, hfront, h⟩)
    · exact .key hview he hlong
    · exact .value hview hkeys hfront h

section Values

variable {inside : List String → σ → Except ShapeFault (List String)} {passes halts : σ → Prop}

/-- The values of a mapping whose keys can be written are told of one after the other. -/
theorem exists_valueViolations_iff
    (hpasses : ∀ segments x, (∃ lines, inside segments x = .ok lines) ↔ passes x)
    (hkeys : ∀ e ∈ entries, e.1.HasShortIntegers) (segments : List String) :
    (∃ lines, valueViolations inside segments entries = .ok lines) ↔
      ∀ e ∈ entries, passes e.2 := by
  have heach : (∃ lines, valueViolations inside segments entries = .ok lines) ↔
      ∀ e ∈ entries, ∃ lines, (do
        inside (← (below segments e.1).mapError ShapeFault.numeral) e.2) = .ok lines := by
    rw [← exists_mapM_eq_ok_iff, valueViolations]
    constructor
    · rintro ⟨lines, h⟩
      obtain ⟨each, heach, -⟩ := bind_eq_ok_iff.1 h
      exact ⟨each, heach⟩
    · rintro ⟨each, heach⟩
      rw [heach]
      exact ⟨_, rfl⟩
  rw [heach]
  refine forall₂_congr fun e he => ?_
  obtain ⟨segments', hbelow⟩ := exists_below (hkeys e he) segments
  rw [hbelow]
  exact hpasses segments' e.2

/-- The values of a mapping whose keys can be written are not told of because of the first one at
which the walk halts. -/
theorem valueViolations_eq_error_iff
    (hpasses : ∀ segments x, (∃ lines, inside segments x = .ok lines) ↔ passes x)
    (hhalts : ∀ segments x, inside segments x = .error fault ↔ halts x)
    (hkeys : ∀ e ∈ entries, e.1.HasShortIntegers) (segments : List String) :
    valueViolations inside segments entries = .error fault ↔
      ∃ front e back, entries = front ++ e :: back ∧
        (∀ b ∈ front, passes b.2) ∧ halts e.2 := by
  have heach : ∀ e ∈ entries, ∃ segments',
      (do inside (← (below segments e.1).mapError ShapeFault.numeral) e.2)
        = inside segments' e.2 := fun e he => by
    obtain ⟨segments', hbelow⟩ := exists_below (hkeys e he) segments
    exact ⟨segments', by rw [hbelow]; rfl⟩
  rw [valueViolations, bind_eq_error_iff, mapM_eq_error_iff]
  constructor
  · rintro (⟨front, e, back, rfl, hfront, he⟩ | ⟨_, -, h⟩)
    · refine ⟨front, e, back, rfl, fun b hb => ?_, ?_⟩
      · obtain ⟨segments', heq⟩ := heach b (List.mem_append_left _ hb)
        exact (hpasses segments' _).1 (heq ▸ hfront b hb)
      · obtain ⟨segments', heq⟩ := heach e (List.mem_append_right _ (.head _))
        exact (hhalts segments' _).1 (heq ▸ he)
    · cases h
  · rintro ⟨front, e, back, rfl, hfront, he⟩
    refine .inl ⟨front, e, back, rfl, fun b hb => ?_, ?_⟩
    · obtain ⟨segments', heq⟩ := heach b (List.mem_append_left _ hb)
      exact heq ▸ (hpasses segments' _).2 (hfront b hb)
    · obtain ⟨segments', heq⟩ := heach e (List.mem_append_right _ (.head _))
      exact heq ▸ (hhalts segments' _).2 he

end Values

/-- How the walk ends on what is no mapping does not depend on the room. -/
theorem ends_violationsAt_of_not_mapping (hview : ∀ entries, view x ≠ .mapping entries)
    (depth : Nat) (segments : List String) :
    ((∃ lines, violationsAt view depth segments x = .ok lines) ↔ Passes view depth x) ∧
      ∀ fault, violationsAt view depth segments x = .error fault ↔ Halts view fault depth x := by
  cases h : view x with
  | mapping entries => exact absurd h (hview entries)
  | text =>
    rw [violationsAt_of_text h]
    refine ⟨iff_of_true ⟨_, rfl⟩ (.text h), fun fault => iff_of_false nofun fun hhalts => ?_⟩
    cases hhalts with
    | other h' | noRoom h' | key h' | value h' => cases h.symm.trans h'
  | other literal =>
    rw [violationsAt_of_other h]
    cases literal with
    | ok s =>
      refine ⟨iff_of_true ⟨_, rfl⟩ (.other h), fun fault => iff_of_false nofun fun hhalts => ?_⟩
      cases hhalts with
      | other h' | noRoom h' | key h' | value h' => cases h.symm.trans h'
    | error fault' =>
      refine ⟨iff_of_false (by rintro ⟨_, ⟨⟩⟩) fun hpasses => ?_, fun fault => ?_⟩
      · cases hpasses with
        | text h' | other h' | mapping h' => cases h.symm.trans h'
      · constructor
        · rintro ⟨⟩
          exact .other h
        · intro hhalts
          cases hhalts with
          | other h' =>
            cases h.symm.trans h'
            rfl
          | noRoom h' | key h' | value h' => cases h.symm.trans h'

/-- The walk ends in one of two ways, by the recursion of the walk. -/
theorem ends_violationsAt (segments : List String) (x : σ) :
    ((∃ lines, violationsAt view depth segments x = .ok lines) ↔ Passes view depth x) ∧
      ∀ fault, violationsAt view depth segments x = .error fault ↔ Halts view fault depth x := by
  induction depth generalizing segments x with
  | zero =>
    by_cases hmapping : ∃ entries, view x = .mapping entries
    · obtain ⟨entries, hview⟩ := hmapping
      rw [violationsAt_zero hview]
      refine ⟨iff_of_false (by rintro ⟨_, ⟨⟩⟩) fun h => ?_, fun fault => ⟨?_, fun h => ?_⟩⟩
      · cases h with
        | text h' | other h' => cases hview.symm.trans h'
      · rintro ⟨⟩
        exact .noRoom hview
      · cases h with
        | other h' => cases hview.symm.trans h'
        | noRoom => rfl
    · exact ends_violationsAt_of_not_mapping (not_exists.1 hmapping) 0 segments
  | succ depth ih =>
    by_cases hmapping : ∃ entries, view x = .mapping entries
    · obtain ⟨entries, hview⟩ := hmapping
      -- The lines of the keys are made first, for all entries. Where they cannot be made, no value
      -- is gone into.
      rw [violationsAt_succ hview, passes_mapping_iff hview, exists_append_iff,
        ← exists_keyViolations_iff entries segments]
      simp only [mapError_eq_ok_iff]
      have hpasses := fun segments x => (ih segments x).1
      refine ⟨and_congr_right fun hkeys => ?_, fun fault => ?_⟩
      · exact exists_valueViolations_iff hpasses ((exists_keyViolations_iff _ _).1 hkeys) segments
      · rw [halts_mapping_iff hview, append_eq_error_iff]
        refine or_congr ?_ ?_
        · simp only [mapError_eq_error_iff, keyViolations_eq_error_iff]
          constructor
          · rintro ⟨_, ⟨rfl, hlong⟩, rfl⟩
            exact ⟨rfl, hlong⟩
          · rintro ⟨rfl, hlong⟩
            exact ⟨_, ⟨rfl, hlong⟩, rfl⟩
        · simp only [mapError_eq_ok_iff, exists_keyViolations_iff]
          exact and_congr_right fun hkeys => valueViolations_eq_error_iff hpasses
            (fun segments x => (ih segments x).2 fault) hkeys segments
    · exact ends_violationsAt_of_not_mapping (not_exists.1 hmapping) _ segments

/-- **The walk comes to an end** exactly on what it comes through. -/
theorem exists_violationsAt_iff (segments : List String) (x : σ) :
    (∃ lines, violationsAt view depth segments x = .ok lines) ↔ Passes view depth x :=
  (ends_violationsAt segments x).1

/-- **The walk does not come to an end** because of what it halts at. -/
theorem violationsAt_eq_error_iff (segments : List String) (x : σ) :
    violationsAt view depth segments x = .error fault ↔ Halts view fault depth x :=
  (ends_violationsAt segments x).2 fault

/-- Where nothing offends there is a text, or a mapping in whose values nothing offends. -/
theorem cases_of_violationsAt {segments : List String}
    (h : violationsAt view depth segments x = .ok []) :
    view x = .text ∨ ∃ entries inner, view x = .mapping entries ∧ depth = inner + 1 ∧
      ∀ e ∈ entries, ∃ segments', violationsAt view inner segments' e.2 = .ok [] := by
  cases hview : view x with
  | text => exact .inl rfl
  | other literal =>
    rw [violationsAt_of_other hview] at h
    cases literal <;> cases h
  | mapping entries =>
    cases depth with
    | zero => cases (violationsAt_zero hview segments).symm.trans h
    | succ inner =>
      refine .inr ⟨entries, inner, rfl, rfl, fun e he => ?_⟩
      rw [violationsAt_succ hview] at h
      obtain ⟨keys, -, h⟩ := bind_eq_ok_iff.1 h
      obtain ⟨values, hvalues, h⟩ := bind_eq_ok_iff.1 h
      obtain ⟨each, heach, hflat⟩ := bind_eq_ok_iff.1 hvalues
      obtain rfl := Except.ok.inj hflat
      obtain ⟨-, hnil⟩ := List.append_eq_nil_iff.1 (Except.ok.inj h)
      obtain ⟨told, htold, hvalue⟩ := exists_mem_of_forall₂ (mapM_eq_ok_iff.1 heach) e he
      obtain ⟨segments', -, hvalue⟩ := bind_eq_ok_iff.1 hvalue
      rw [List.flatten_eq_nil_iff.1 hnil told htold] at hvalue
      exact ⟨segments', hvalue⟩

/-! ## More room

A walk that has come to its end has not seen the end of the room. It tells the same with more of it,
and also if something can be quoted that could not be before and that it never came to. -/

/-- What is told of something that is no mapping does not depend on the room. -/
theorem violationsAt_eq_of_not_mapping {view' : σ → View σ} (hx : view' x = view x)
    (hview : ∀ entries, view x ≠ .mapping entries) (depth depth' : Nat) (segments : List String) :
    violationsAt view' depth' segments x = violationsAt view depth segments x := by
  cases h : view x with
  | mapping entries => exact absurd h (hview entries)
  | text => rw [violationsAt_of_text h, violationsAt_of_text (hx.trans h)]
  | other literal => rw [violationsAt_of_other h, violationsAt_of_other (hx.trans h)]

/-- What is told of values is told again if it is of each of them. -/
theorem valueViolations_mono {inside inside' : List String → σ → Except ShapeFault (List String)}
    (hinside : ∀ segments x lines, inside segments x = .ok lines → inside' segments x = .ok lines)
    {segments lines : List String} (h : valueViolations inside segments entries = .ok lines) :
    valueViolations inside' segments entries = .ok lines := by
  obtain ⟨each, heach, hlines⟩ := bind_eq_ok_iff.1 h
  refine bind_eq_ok_iff.2 ⟨each, mapM_eq_ok_mono (fun e _ told h => ?_) heach, hlines⟩
  obtain ⟨segments', hbelow, htold⟩ := bind_eq_ok_iff.1 h
  exact bind_eq_ok_iff.2 ⟨segments', hbelow, hinside _ _ _ htold⟩

/-- **More room changes nothing** where the walk comes to its end, and neither does seeing more than
before: what was told is told again. -/
theorem violationsAt_mono {view' : σ → View σ} {depth' : Nat} {lines : List String}
    (hview : ∀ x, view' x = view x ∨ ∃ fault, view x = .other (.error fault))
    (hdepth : depth ≤ depth') {segments : List String}
    (h : violationsAt view depth segments x = .ok lines) :
    violationsAt view' depth' segments x = .ok lines := by
  induction depth generalizing depth' segments x lines with
  | zero =>
    obtain hx | ⟨fault, hx⟩ := hview x
    · rw [violationsAt_eq_of_not_mapping hx (fun entries hmapping => ?_) 0]
      · exact h
      · cases (violationsAt_zero hmapping segments).symm.trans h
    · cases (violationsAt_of_other hx _ _).symm.trans h
  | succ depth ih =>
    obtain hx | ⟨fault, hx⟩ := hview x
    · by_cases hmapping : ∃ entries, view x = .mapping entries
      · obtain ⟨entries, hmapping⟩ := hmapping
        obtain ⟨depth', rfl⟩ := Nat.exists_eq_add_of_lt hdepth
        rw [violationsAt_succ hmapping] at h
        obtain ⟨keys, hkeys, h⟩ := bind_eq_ok_iff.1 h
        obtain ⟨values, hvalues, h⟩ := bind_eq_ok_iff.1 h
        rw [violationsAt_succ (hx.trans hmapping), hkeys, valueViolations_mono
          (fun segments x lines hlines => ih (Nat.le_add_right depth depth') hlines) hvalues]
        exact h
      · rw [violationsAt_eq_of_not_mapping hx (not_exists.1 hmapping) (depth + 1)]
        exact h
    · cases (violationsAt_of_other hx _ _).symm.trans h

end Document

namespace Value

variable {room : Room} {depth : Nat} {v : Value}

/-! ## Data trees

In a data tree a value that offends is quoted with all that is in it, so its integers count and its
levels do. -/

/-- What the walk sees of a value that is no mapping. -/
theorem view_of_leaf (hv : ∀ entries, v ≠ .mapping entries) :
    (∃ s, v = .text s ∧ ∀ room, v.view room = .text) ∨
      (∀ s, v ≠ .text s) ∧ ∀ room, v.view room = .other (v.quote room) := by
  cases v with
  | mapping entries => exact absurd rfl (hv entries)
  | text s => exact .inl ⟨s, rfl, fun _ => rfl⟩
  | _ => exact .inr ⟨(fun s h => by cases h), fun _ => rfl⟩

/-- **Whether a value can be quoted**: there is room for its levels, and its integers are short. -/
theorem exists_quote_iff :
    (∃ s, v.quote room = .ok s) ↔ room.Fits v.levels ∧ v.HasShortIntegers := by
  rw [quote, ← exists_literal_iff]
  by_cases hroom : room.Fits v.levels
  · rw [if_pos hroom]
    simp only [mapError_eq_ok_iff, hroom, true_and]
  · rw [if_neg hroom]
    exact iff_of_false (by rintro ⟨_, ⟨⟩⟩) fun h => hroom h.1

/-- Why a value cannot be quoted: first there has to be room, then its integers count. -/
theorem quote_eq_error_iff {fault : ShapeFault} :
    v.quote room = .error fault ↔ (¬ room.Fits v.levels ∧ fault = .tooDeep) ∨
      room.Fits v.levels ∧ ¬ v.HasShortIntegers ∧ fault = .numeral .tooLongToWrite := by
  rw [quote]
  by_cases hroom : room.Fits v.levels
  · rw [if_pos hroom, mapError_eq_error_iff]
    simp only [hroom, not_true_eq_false, false_and, true_and, false_or]
    constructor
    · rintro ⟨fault', h, rfl⟩
      rw [(comesTo_literal v).of_eq_error h]
      refine ⟨fun short => ?_, rfl⟩
      cases h.symm.trans (literal_eq short)
    · rintro ⟨hlong, rfl⟩
      cases h : v.literal with
      | ok s => exact absurd (hasShortIntegers_of_literal v h) hlong
      | error fault' => exact ⟨fault', rfl, by rw [(comesTo_literal v).of_eq_error h]⟩
  · rw [if_neg hroom]
    simp [hroom, eq_comm]

/-- The walk comes through a data tree that it has room for, if its integers are short. -/
theorem passes_of_fits (hdepth : v.levels ≤ depth) (hroom : room.Fits v.levels)
    (short : v.HasShortIntegers) : Document.Passes (view room) depth v := by
  induction v using descriptionInduction generalizing depth with
  | mapping entries ih =>
    rw [HasShortIntegers] at short
    obtain ⟨depth, rfl⟩ : ∃ n, depth = n + 1 :=
      Nat.exists_eq_succ_of_ne_zero fun h => by rw [h, levels] at hdepth; omega
    refine .mapping rfl (fun e he => (short e he).1) fun e he => ?_
    have hlt := levels_lt_of_mem he
    exact ih e he (by omega) (hroom.mono (Nat.le_of_lt hlt)) (short e he).2
  | leaf v hv =>
    obtain ⟨s, -, hview⟩ | ⟨-, hview⟩ := view_of_leaf hv
    · exact .text (hview room)
    · obtain ⟨s, hs⟩ := exists_quote_iff.2 ⟨hroom, short⟩
      exact .other ((hview room).trans (congrArg _ hs))

/-- What the walk comes through has short integers, as each key and leaf of it is a text or was
quoted. -/
theorem hasShortIntegers_of_passes (h : Document.Passes (view room) depth v) :
    v.HasShortIntegers := by
  induction h with
  | @text _ v hview =>
    cases v with
    | text s => simp [HasShortIntegers]
    | _ => cases hview
  | @other _ v literal hview =>
    cases v with
    | text s | mapping entries => cases hview
    | _ => exact (exists_quote_iff.1 ⟨literal, (Document.View.other.inj hview)⟩).2
  | @mapping _ v entries hview hkeys _ ih =>
    cases v with
    | mapping entries' =>
      cases hview
      rw [HasShortIntegers]
      exact fun e he => ⟨hkeys e he, ih e he⟩
    | _ => cases hview

/-- **What the walk halts at in a data tree** is an integer that is too long to be written, or it
has no room. -/
theorem halts_cases {fault : ShapeFault} (h : Document.Halts (view room) fault depth v) :
    (fault = .numeral .tooLongToWrite ∧ ¬ v.HasShortIntegers) ∨
      fault = .tooDeep ∧ (depth < v.levels ∨ ¬ room.Fits v.levels) := by
  induction h with
  | @other _ _ v hview =>
    cases v with
    | text s | mapping entries => cases hview
    | _ =>
      obtain ⟨hroom, rfl⟩ | ⟨-, hlong, rfl⟩ := quote_eq_error_iff.1 (Document.View.other.inj hview)
      · exact .inr ⟨rfl, .inr hroom⟩
      · exact .inl ⟨rfl, hlong⟩
  | @noRoom v entries hview =>
    cases v with
    | mapping entries' => exact .inr ⟨rfl, .inl (by rw [levels]; omega)⟩
    | _ => cases hview
  | @key _ v entries e hview he hlong =>
    cases v with
    | mapping entries' =>
      cases hview
      refine .inl ⟨rfl, fun short => ?_⟩
      rw [HasShortIntegers] at short
      exact hlong (short e he).1
    | _ => cases hview
  | @value _ _ v front back e hview _ _ _ ih =>
    cases v with
    | mapping entries' =>
      cases hview
      have he : e ∈ front ++ e :: back := List.mem_append_right _ (.head _)
      have hlt := levels_lt_of_mem he
      refine ih.imp (And.imp_right fun hlong short => ?_) (And.imp_right (Or.imp ?_ ?_))
      · rw [HasShortIntegers] at short
        exact hlong (short e he).2
      · omega
      · exact fun hroom hfits => hroom (hfits.mono (Nat.le_of_lt hlt))
    | _ => cases hview

/-- A walk that comes to its end tells what it tells on a stack without bounds. -/
theorem violations_unbounded {stack : Stack} {lines : List String}
    (h : v.violations stack = .ok lines) : v.violations .unbounded = .ok lines := by
  refine Document.violationsAt_mono (fun v => ?_) (stack.shape.atMost_le _) h
  by_cases hmapping : ∃ entries, v = .mapping entries
  · obtain ⟨entries, rfl⟩ := hmapping
    exact .inl rfl
  · obtain ⟨s, rfl, -⟩ | ⟨-, hview⟩ := view_of_leaf (not_exists.1 hmapping)
    · exact .inl rfl
    · rw [hview, hview]
      cases hquote : v.quote stack.quote with
      | error fault => exact .inr ⟨fault, rfl⟩
      | ok s =>
        obtain ⟨hroom, -⟩ := exists_quote_iff.1 ⟨s, hquote⟩
        rw [← hquote, quote, quote, if_pos hroom]
        exact .inl rfl

end Value

namespace Document

variable {depth : Nat} {segments lines : List String}

/-- The keys that do not offend are texts that are not empty. -/
theorem keyOffences_eq_nil_iff {key : Value} :
    keyOffences key = .ok [] ↔ ∃ s, key = .text s ∧ s ≠ "" := by
  cases key with
  | text s =>
    rw [keyOffences]
    by_cases hs : s = ""
    · subst hs
      exact iff_of_false nofun (by rintro ⟨_, ⟨⟩, hne⟩; exact hne rfl)
    · have hfalse : s.isEmpty = false := by
        rw [← Bool.not_eq_true, String.isEmpty_iff]
        exact hs
      rw [hfalse]
      exact iff_of_true rfl ⟨s, rfl, hs⟩
  | _ =>
    refine iff_of_false (fun h => ?_) (by rintro ⟨_, ⟨⟩, -⟩)
    obtain ⟨_, -, h⟩ := bind_eq_ok_iff.1 h
    cases h

/-- The lines for the keys of a mapping are none if all of them are texts that are not empty. -/
theorem eq_nil_of_keyViolations_iff {entries : List (Value × Value)}
    (h : keyViolations segments entries = .ok lines) :
    lines = [] ↔ ∀ e ∈ entries, ∃ s, e.1 = .text s ∧ s ≠ "" := by
  obtain ⟨os, hos, hlines⟩ := bind_eq_ok_iff.1 h
  obtain rfl := Except.ok.inj hlines
  rw [List.map_eq_nil_iff, List.flatten_eq_nil_iff]
  refine (forall_mem_iff_of_forall₂ (mapM_eq_ok_iff.1 hos) fun e _ os hos => ?_).symm
  rw [← keyOffences_eq_nil_iff, hos, Except.ok.injEq]

/-- **Nothing offends in a value exactly when it has the shape of a document**, if the walk comes to
its end at all. -/
theorem eq_nil_of_violationsAt_iff {room : Room} {v : Value}
    (h : violationsAt (Value.view room) depth segments v = .ok lines) :
    lines = [] ↔ v.IsDocument := by
  -- The induction is the one of descriptions: lists and tuples are leaves here, as the shape allows
  -- neither.
  induction v using Value.descriptionInduction generalizing depth segments lines with
  | leaf v hv =>
    obtain ⟨s, rfl, hview⟩ | ⟨htext, hview⟩ := Value.view_of_leaf hv
    · rw [violationsAt_of_text (hview room)] at h
      rw [Value.IsDocument]
      exact iff_of_true (Except.ok.inj h).symm trivial
    · rw [violationsAt_of_other (hview room)] at h
      refine iff_of_false ?_ ?_
      · rintro rfl
        cases hquote : v.quote room with
        | ok s => rw [hquote] at h; cases h
        | error fault => rw [hquote] at h; cases h
      · rw [Value.IsDocument]
        · exact id
        · exact htext
        · exact hv
  | mapping entries ih =>
    have hview : Value.view room (.mapping entries) = .mapping entries := rfl
    cases depth with
    | zero => cases (violationsAt_zero hview segments).symm.trans h
    | succ depth =>
      rw [violationsAt_succ hview] at h
      obtain ⟨keys, hkeys, h⟩ := bind_eq_ok_iff.1 h
      obtain ⟨values, hvalues, h⟩ := bind_eq_ok_iff.1 h
      obtain rfl := Except.ok.inj h
      obtain ⟨each, heach, hflat⟩ := bind_eq_ok_iff.1 hvalues
      obtain rfl := Except.ok.inj hflat
      rw [Value.IsDocument, List.append_eq_nil_iff, forall₂_and, List.flatten_eq_nil_iff,
        eq_nil_of_keyViolations_iff (mapError_eq_ok_iff.1 hkeys)]
      refine and_congr_right fun _ => ?_
      refine (forall_mem_iff_of_forall₂ (mapM_eq_ok_iff.1 heach) fun e he told htold => ?_).symm
      obtain ⟨segments', -, htold⟩ := bind_eq_ok_iff.1 htold
      exact (ih e he htold).symm

end Document

/-- **Nothing offends in a document**, which a stack without bounds has room for. -/
theorem Value.IsDocument.violations_eq {v : Value} (h : v.IsDocument) :
    v.violations .unbounded = .ok [] := by
  have hpasses : Document.Passes (Value.view .unbounded) v.levels v :=
    Value.passes_of_fits (Nat.le_refl _) trivial h.hasShortIntegers
  obtain ⟨lines, hlines⟩ := (Document.exists_violationsAt_iff [] v).2 hpasses
  rw [← (Document.eq_nil_of_violationsAt_iff hlines).2 h]
  exact hlines

/-! ## Documents as descriptions

A document can always be read, since its keys are texts and its leaves are. So there is no third way
between taking a document and telling its offences. -/

/-- **Every document is read to a schema.** -/
theorem Value.IsDocument.exists_ofDescription {v : Value} (h : v.IsDocument) :
    ∃ s, Schema.ofDescription v = .ok s := by
  refine Schema.exists_ofDescription h.hasTextLeaves (h.allKeys.imp ?_)
  rintro _ ⟨s, rfl⟩
  exact ⟨s, rfl⟩

namespace Matcher

variable {stack : Stack} {entries : List (Value × Value)} {document : Value} {m : Matcher}

/-- **What is made of a data tree** whose shape can be told does not depend on the stack. -/
theorem ofDecoded_tree {lines : List String} (h : document.violations stack = .ok lines) :
    ofDecoded stack (.tree document) = ofDocument document := by
  cases document with
  | mapping entries =>
    have hunbounded : Decoded.violations .unbounded (.tree (.mapping entries)) = .ok lines :=
      Value.violations_unbounded h
    have hstack : Decoded.violations stack (.tree (.mapping entries)) = .ok lines := h
    rw [ofDocument, ofDecoded, ofDecoded]
    simp only [Decoded.upTo, hunbounded, hstack]
  | _ => rfl

/-- A mapping whose shape cannot be told. -/
theorem ofDecoded_mapping_eq_error {fault : ShapeFault}
    (h : (Value.mapping entries).violations stack = .error fault) :
    ofDecoded stack (.tree (.mapping entries)) = .error (.breakdown fault.breakdown) := by
  have hstack : Decoded.violations stack (.tree (.mapping entries)) = .error fault := h
  rw [ofDecoded]
  simp only [Decoded.upTo, hstack]
  rfl

/-- A matcher that is made on some stack is made without bounds too. -/
theorem ofDocument_of_ofDecoded (h : ofDecoded stack (.tree document) = .ok m) :
    ofDocument document = .ok m := by
  cases document with
  | mapping entries =>
    cases hlines : (Value.mapping entries).violations stack with
    | ok lines => exact (ofDecoded_tree hlines).symm.trans h
    | error fault => cases (ofDecoded_mapping_eq_error hlines).symm.trans h
  | _ => exact h

/-- **A matcher is made of a document** if the document is a mapping and has the shape of one, and
it is then the matcher of it as a description. -/
theorem ofDocument_eq_ok_iff :
    ofDocument document = .ok m
      ↔ ∃ entries, document = .mapping entries ∧ document.IsDocument ∧
          ofDescription document = .ok m := by
  cases document with
  | mapping entries =>
    constructor
    · intro h
      obtain ⟨lines, hlines, h⟩ := bind_eq_ok_iff.1 h
      rw [mapError_eq_ok_iff] at hlines
      cases lines with
      | cons line lines => cases h
      | nil =>
        exact ⟨entries, rfl, (Document.eq_nil_of_violationsAt_iff hlines).1 rfl,
          mapError_eq_ok_iff.2 (mapError_eq_ok_iff.1 h)⟩
    · rintro ⟨_, -, hshape, hm⟩
      have hlines : Decoded.violations .unbounded (.tree (.mapping entries)) = .ok [] :=
        hshape.violations_eq
      rw [ofDocument, ofDecoded]
      simp only [Decoded.upTo, hlines]
      exact mapError_eq_ok_iff.2 (mapError_eq_ok_iff.1 hm)
  | _ =>
    refine iff_of_false (fun h => ?_) (by rintro ⟨_, ⟨⟩, -⟩)
    cases h

/-- **A matcher is made of every document that is a mapping.** -/
theorem exists_ofDocument_eq_ok {entries : List (Value × Value)}
    (h : (Value.mapping entries).IsDocument) : ∃ m, ofDocument (.mapping entries) = .ok m := by
  obtain ⟨root, hroot⟩ := h.exists_ofDescription
  exact ⟨_, ofDocument_eq_ok_iff.2 ⟨entries, rfl, h, ofDescription_eq_ok hroot⟩⟩

end Matcher

end TreeSchema
