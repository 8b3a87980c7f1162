import TreeSchema.Proofs.Isolation
import TreeSchema.Proofs.Shape

/-!
# When a check gives no report

A check ought to end with a report, whatever the data, since disagreements are told in the report.
For a matcher that was made of a document there is one exception. The keys of its fields are texts
(`Matcher.textKeys_of_ofDocument`), and a text of decimal digits is read as an integer, so as to
find positions of a list and entries under that integer. Reading is refused beyond the digit limit.
Hence a check gives a report unless matching comes to a field whose key is such a text, with any
container there (`Matcher.returns_iff`), and there are documents with such fields
(`Matcher.check_oneInteger`).

Whether a check is refused depends on whether any such key is come to, and not on which. For what it
is refused with, the first one counts, in the order in which fields and elements are matched
(`Visit.StopsFirst`). The relation goes along that order: what comes before the key has been gone
through without stopping, and this is said with the relation that has no order. So the fault of a
check is known from the schema and the data alone (`Matcher.check_eq_error_iff`), which is what a
list of the ways in which a run breaks down needs.

It takes a container to be refused. A key is spelled when fields meet one, be the container empty or
without anything under the key, and if the data is a number the field is never come to. This is why
the witness is the empty mapping.
-/

namespace TreeSchema

/-! ## The key that matching stops at

The dichotomy of `Ends` says that matching finds something or is refused for some key that it stops
at. Which key, is read off by going through the walk once more. -/

namespace Visit

/-- Whether matching goes through a field and what a container holds for it without stopping. -/
def GoesThrough (v : Value) (path : String) (f : FieldKey × Schema) : Prop :=
  f.1.key.IsLegible ∧ ∀ x, v.field? f.1.key = some x →
    ∀ key, ¬ Stops ⟨f.2, x, joinPath path f.1.name⟩ key

/-- **The key that matching stops at first.** The fields of a container are matched in order, and so
are the elements of a collection; the key of a field is spelled before the field is looked up. -/
inductive StopsFirst : Visit → Value → Prop
  | key {front back : List (FieldKey × Schema)} {f : FieldKey × Schema} {v : Value} {path : String}
      (hv : v.isContainer = true) (hfront : ∀ g ∈ front, GoesThrough v path g)
      (hkey : ¬ f.1.key.IsLegible) : StopsFirst ⟨.fields (front ++ f :: back), v, path⟩ f.1.key
  | field {front back : List (FieldKey × Schema)} {f : FieldKey × Schema} {v x key : Value}
      {path : String} (hv : v.isContainer = true) (hfront : ∀ g ∈ front, GoesThrough v path g)
      (hkey : f.1.key.IsLegible) (hx : v.field? f.1.key = some x)
      (h : StopsFirst ⟨f.2, x, joinPath path f.1.name⟩ key) :
      StopsFirst ⟨.fields (front ++ f :: back), v, path⟩ key
  | element {item : Schema} {v key : Value} {path : String} {front back : List (Value × Value)}
      {q : Value × Value} (hv : v.pairs? = some (front ++ q :: back))
      (hfront : ∀ p ∈ front, ∀ key, ¬ Stops ⟨item, p.2, joinPath path wildcard⟩ key)
      (h : StopsFirst ⟨item, q.2, joinPath path wildcard⟩ key) :
      StopsFirst ⟨.collection [] item, v, path⟩ key

/-- The first key that matching stops at is one that it stops at. -/
theorem StopsFirst.stops {a : Visit} {key : Value} (h : a.StopsFirst key) : a.Stops key := by
  induction h with
  | key hv _ hkey =>
    exact (stops_fields_iff hv).2 ⟨_, List.mem_append_right _ (.head _), .inl ⟨hkey, rfl⟩⟩
  | field hv _ _ hx _ ih =>
    exact (stops_fields_iff hv).2 ⟨_, List.mem_append_right _ (.head _), .inr ⟨_, hx, ih⟩⟩
  | element hv _ _ ih =>
    exact (stops_collection_iff hv).2 ⟨_, List.mem_append_right _ (.head _), ih⟩

end Visit

namespace Schema

/-- Matching has a result if nothing stops it. -/
theorem exists_findings_iff (s : Schema) (v : Value) (path : String) :
    (∃ fs, s.findings v path = .ok fs) ↔ ∀ key, ¬ Visit.Stops ⟨s, v, path⟩ key :=
  (ends_findings s v path).exists_eq_ok_iff

/-- A field has a result if matching goes through it. -/
theorem exists_fieldFinding_iff {v : Value} {path : String} {f : FieldKey × Schema} :
    (∃ fs, fieldFinding v path f = .ok fs) ↔ Visit.GoesThrough v path f := by
  rw [(ends_fieldFinding fun x => ends_findings f.2 x _).exists_eq_ok_iff, Visit.GoesThrough]
  constructor
  · intro h
    by_cases hkey : f.1.key.IsLegible
    · exact ⟨hkey, fun x hx key hstop => h key (.inr ⟨x, hx, hstop⟩)⟩
    · exact absurd (.inl ⟨hkey, rfl⟩) (h f.1.key)
  · rintro ⟨hkey, hnone⟩ key (⟨hnot, -⟩ | ⟨x, hx, hstop⟩)
    · exact hnot hkey
    · exact hnone x hx key hstop

/-- A field is refused for its own key, or for what is refused below it. -/
theorem fieldFinding_eq_error_iff {v : Value} {path : String} {f : FieldKey × Schema}
    {fault : NumeralFault} : fieldFinding v path f = .error fault ↔
      (¬ f.1.key.IsLegible ∧ fault = f.1.key.refusal) ∨
        f.1.key.IsLegible ∧ ∃ x, v.field? f.1.key = some x ∧
          f.2.findings x (joinPath path f.1.name) = .error fault := by
  unfold fieldFinding
  by_cases hkey : f.1.key.IsLegible
  · rw [Value.lookup_eq hkey]
    cases hx : v.field? f.1.key with
    | none => exact iff_of_false nofun (by rintro (⟨hnot, -⟩ | ⟨-, _, ⟨⟩, -⟩); exact hnot hkey)
    | some x =>
      constructor
      · exact fun h => .inr ⟨hkey, x, rfl, h⟩
      · rintro (⟨hnot, -⟩ | ⟨-, _, ⟨⟩, h⟩)
        · exact absurd hkey hnot
        · exact h
  · rw [Value.lookup_eq_error hkey]
    constructor
    · rintro ⟨⟩
      exact .inl ⟨hkey, rfl⟩
    · rintro (⟨-, rfl⟩ | ⟨hlegible, -⟩)
      · rfl
      · exact absurd hlegible hkey

/-- **What matching is refused for** is the key that it stops at first. -/
theorem findings_eq_error_iff {s : Schema} {v : Value} {path : String} {fault : NumeralFault} :
    s.findings v path = .error fault ↔
      ∃ key, Visit.StopsFirst ⟨s, v, path⟩ key ∧ fault = key.refusal := by
  induction s generalizing v path with
  | leaf e =>
    rw [findings]
    exact iff_of_false (by rintro ⟨⟩) (by rintro ⟨key, ⟨⟩, -⟩)
  | collection siblings item ih =>
    rw [findings]
    cases hv : v.pairs? with
    | none =>
      refine iff_of_false (by rintro ⟨⟩) ?_
      rintro ⟨key, h, -⟩
      cases h with
      | element hv' => cases hv.symm.trans hv'
    | some pairs =>
      cases siblings with
      | cons name names => exact iff_of_false (by rintro ⟨⟩) (by rintro ⟨key, ⟨⟩, -⟩)
      | nil =>
        change (pairs.mapM _ >>= _) = _ ↔ _
        rw [bind_eq_error_iff, mapM_eq_error_iff]
        simp only [exists_findings_iff, ih]
        constructor
        · rintro (⟨front, q, back, rfl, hfront, key, hkey, rfl⟩ | ⟨_, -, ⟨⟩⟩)
          exact ⟨key, .element hv hfront hkey, rfl⟩
        · rintro ⟨key, h, rfl⟩
          cases h with
          | element hv' hfront hkey =>
            cases hv.symm.trans hv'
            exact .inl ⟨_, _, _, rfl, hfront, key, hkey, rfl⟩
  | fields fs ih =>
    rw [findings]
    cases hv : v.isContainer with
    | false =>
      refine iff_of_false (by rintro ⟨⟩) ?_
      rintro ⟨key, h, -⟩
      cases h with
      | key hv' | field hv' => cases hv.symm.trans hv'
    | true =>
      -- The fields are gone through in order, so the field that stops matching is the first one
      -- that has a refused key or is stopped below, and all those in front of it were passed.
      rw [if_pos rfl, fieldFindings_eq_mapM, map_eq_error_iff, mapM_eq_error_iff]
      simp only [exists_fieldFinding_iff, fieldFinding_eq_error_iff]
      constructor
      · rintro ⟨front, f, back, rfl, hfront, ⟨hkey, rfl⟩ | ⟨hkey, x, hx, h⟩⟩
        · exact ⟨_, .key hv hfront hkey, rfl⟩
        · obtain ⟨key, hstop, rfl⟩ := (ih f (List.mem_append_right _ (.head _))).1 h
          exact ⟨key, .field hv hfront hkey hx hstop, rfl⟩
      · rintro ⟨key, h, rfl⟩
        cases h with
        | key _ hfront hkey => exact ⟨_, _, _, rfl, hfront, .inl ⟨hkey, rfl⟩⟩
        | @field front back f _ x _ _ _ hfront hkey hx h =>
          refine ⟨front, f, back, rfl, hfront, .inr ⟨hkey, x, hx, ?_⟩⟩
          exact (ih f (List.mem_append_right _ (.head _))).2 ⟨key, h, rfl⟩

end Schema

namespace Matcher

/-- **The fields of a loaded schema have texts as keys.** -/
theorem textKeys_of_ofDocument {document : Value} {m : Matcher}
    (loaded : ofDocument document = .ok m) : m.root.AllKeys fun key => ∃ s, key = .text s := by
  obtain ⟨entries, rfl, hshape, built⟩ := ofDocument_eq_ok_iff.1 loaded
  obtain ⟨-, hroot⟩ := ofDescription_mapping built
  refine Schema.allKeys_of_ofDescription hroot hshape.allKeys fun k key hkey hk => ?_
  obtain ⟨s, rfl⟩ := hk
  exact ⟨_, (FieldKey.ofValue_eq_ok hkey).1⟩

/-- **A check on a loaded schema gives a report** if there is no text that matching stops at: all
the keys that it might stop at are texts. -/
theorem exists_check_eq_ok_iff {document : Value} {m : Matcher}
    (loaded : ofDocument document = .ok m) (data : Value) :
    (∃ r, m.check data = .ok r) ↔ ∀ s, ¬ Visit.Stops ⟨m.root, data, ""⟩ (.text s) := by
  obtain ⟨entries, rfl, -, built⟩ := ofDocument_eq_ok_iff.1 loaded
  rw [(ends_check built data).exists_eq_ok_iff]
  refine ⟨fun hno s => hno (.text s), fun hno key hstop => ?_⟩
  obtain ⟨⟨s, rfl⟩, -⟩ := Schema.of_stops hstop (textKeys_of_ofDocument loaded)
  exact hno s hstop

/-- What a check is refused for on a loaded schema: a decimal text beyond the digit limit. -/
theorem exists_long_of_check_eq_error {document : Value} {m : Matcher}
    (loaded : ofDocument document = .ok m) {data : Value} {fault : NumeralFault}
    (h : m.check data = .error fault) :
    ∃ s, Visit.Stops ⟨m.root, data, ""⟩ (.text s) ∧ Text.isDecimal s = true ∧
      digitLimit < s.toList.length ∧ fault = .tooLongToRead s.toList.length := by
  obtain ⟨entries, rfl, -, built⟩ := ofDocument_eq_ok_iff.1 loaded
  obtain ⟨hok, -⟩ | ⟨key, hstop, herr⟩ := ends_check built data
  · cases hok.symm.trans h
  · obtain ⟨⟨s, rfl⟩, hnot⟩ := Schema.of_stops hstop (textKeys_of_ofDocument loaded)
    obtain ⟨hs, hlong⟩ : Text.isDecimal s = true ∧ ¬ s.toList.length ≤ digitLimit :=
      Classical.not_imp.1 hnot
    exact ⟨s, hstop, hs, Nat.lt_of_not_le hlong, Except.error.inj (h.symm.trans herr)⟩

/-- **What a check on a loaded schema is refused for** is the text that matching stops at first. -/
theorem check_eq_error_iff {document : Value} {m : Matcher}
    (loaded : ofDocument document = .ok m) {data : Value} {fault : NumeralFault} :
    m.check data = .error fault ↔ ∃ s, Visit.StopsFirst ⟨m.root, data, ""⟩ (.text s) ∧
      fault = .tooLongToRead s.toList.length := by
  obtain ⟨entries, rfl, -, built⟩ := ofDocument_eq_ok_iff.1 loaded
  have hempty : ∀ key, Visit.Stops ⟨m.root, data, ""⟩ key → m.isEmpty = false := fun key hstop => by
    refine Bool.eq_false_iff.2 fun hempty => ?_
    have hok : m.check data = .ok .empty := by rw [check, if_pos hempty]
    exact (ends_check built data).exists_eq_ok_iff.1 ⟨_, hok⟩ key hstop
  have hcheck : m.isEmpty = false →
      (m.check data = .error fault ↔ m.root.findings data "" = .error fault) := fun hempty => by
    rw [check, hempty]
    exact map_eq_error_iff
  constructor
  · intro h
    obtain ⟨s, hstop, -⟩ := exists_long_of_check_eq_error loaded h
    obtain ⟨key, hfirst, rfl⟩ := Schema.findings_eq_error_iff.1 ((hcheck (hempty _ hstop)).1 h)
    obtain ⟨⟨s, rfl⟩, -⟩ := Schema.of_stops hfirst.stops (textKeys_of_ofDocument loaded)
    exact ⟨s, hfirst, rfl⟩
  · rintro ⟨s, hfirst, rfl⟩
    exact (hcheck (hempty _ hfirst.stops)).2 (Schema.findings_eq_error_iff.2 ⟨_, hfirst, rfl⟩)

/-- **Asking a loaded schema about data** gives a result, be it asked whether the data matches or
for the report, exactly when matching comes to no field in a container whose key is a decimal text
beyond the digit limit. Otherwise it is refused for such a text. -/
theorem returns_iff {document : Value} {m : Matcher} (loaded : ofDocument document = .ok m)
    (data : Value) :
    ((∃ valid, ((Session.start m).step (.holds data)).1 = .flag valid)
        ↔ ∀ s, ¬ Visit.Stops ⟨m.root, data, ""⟩ (.text s)) ∧
      ((∃ r, ((Session.start m).step (.check data)).1 = .checked r)
        ↔ ∀ s, ¬ Visit.Stops ⟨m.root, data, ""⟩ (.text s)) ∧
      ∀ fault, m.check data = .error fault → ∃ s, Visit.Stops ⟨m.root, data, ""⟩ (.text s) ∧
        Text.isDecimal s = true ∧ digitLimit < s.toList.length ∧
        fault = .tooLongToRead s.toList.length := by
  refine ⟨?_, ?_, fun fault h => exists_long_of_check_eq_error loaded h⟩
  · rw [Session.answer_start, ← exists_check_eq_ok_iff loaded, answer]
    cases m.check data with
    | ok r => exact iff_of_true ⟨_, rfl⟩ ⟨_, rfl⟩
    | error fault => exact iff_of_false (by rintro ⟨_, ⟨⟩⟩) (by rintro ⟨_, ⟨⟩⟩)
  · rw [Session.answer_start, ← exists_check_eq_ok_iff loaded, answer]
    cases m.check data with
    | ok r => exact iff_of_true ⟨_, rfl⟩ ⟨_, rfl⟩
    | error fault => exact iff_of_false (by rintro ⟨_, ⟨⟩⟩) (by rintro ⟨_, ⟨⟩⟩)

/-- A schema of one text, asked about the empty mapping, answers: nothing stops there. -/
theorem not_stops_name :
    ∃ m, ofDocument (.mapping [(.text "name", .text "string")]) = .ok m ∧
      ∀ s, ¬ Visit.Stops ⟨m.root, .mapping [], ""⟩ (.text s) := by
  have loaded : ofDocument (.mapping [(.text "name", .text "string")])
      = .ok ⟨[(.text "name", .text "string")],
        .fields [(⟨"name", false, .text "name"⟩, .leaf (.ofText "string"))]⟩ := rfl
  exact ⟨_, loaded, (returns_iff loaded (.mapping [])).1.1 ⟨false, rfl⟩⟩

/-! ## Documents with long numerals

The condition is met by documents that are short to describe: a mapping with a row of digits for its
only key. -/

/-- A decimal text has no mark. -/
theorem splitMark_of_isDecimal {s : String} (hs : Text.isDecimal s = true) :
    splitMark s = (false, s) := by
  refine splitMark_of_head_ne fun hhead => ?_
  obtain ⟨cs, hcs⟩ := List.head?_eq_some_iff.1 hhead
  rw [Text.isDecimal, hcs, Bool.and_eq_true, List.all_cons, Bool.and_eq_true] at hs
  exact absurd hs.2.1 (by decide)

/-- A decimal text is not the wildcard. -/
theorem isWildcard_of_isDecimal {s : String} (hs : Text.isDecimal s = true) :
    isWildcard (.text s) = false := by
  rw [Bool.eq_false_iff]
  intro hwildcard
  rw [isWildcard_text_iff.1 hwildcard] at hs
  exact absurd hs (by decide)

/-- The matcher of one field, which is an integer. -/
def oneInteger (s : String) : Matcher where
  description := [(.text s, .text "integer")]
  root := .fields [(⟨s, false, .text s⟩, .leaf (.ofText "integer"))]

/-- A document may have any decimal text as a key. -/
theorem ofDocument_oneInteger {s : String} (hs : Text.isDecimal s = true) :
    ofDocument (.mapping (oneInteger s).description) = .ok (oneInteger s) := by
  have hshape : (Value.mapping (oneInteger s).description).IsDocument := by
    rw [Value.IsDocument, oneInteger, List.forall_mem_singleton]
    refine ⟨⟨s, rfl, ?_⟩, ?_⟩
    · rintro rfl
      exact absurd hs (by decide)
    · rw [Value.IsDocument]
      trivial
  have hkey : FieldKey.ofValue (.text s) = .ok ⟨s, false, .text s⟩ := by
    rw [FieldKey.ofValue, splitMark_of_isDecimal hs]
  have hroot : Schema.ofDescription (.mapping (oneInteger s).description)
      = .ok (oneInteger s).root := by
    rw [oneInteger, Schema.ofDescription_single hkey (isWildcard_of_isDecimal hs)]
    rfl
  exact ofDocument_eq_ok_iff.2 ⟨_, rfl, hshape, ofDescription_eq_ok hroot⟩

/-- **A long numeral as a key makes every check on a container fail**, whatever the container
holds. -/
theorem check_oneInteger {s : String} (hs : Text.isDecimal s = true)
    (hlong : digitLimit < s.toList.length) {data : Value} (hdata : data.isContainer = true) :
    (oneInteger s).check data = .error (.tooLongToRead s.toList.length) := by
  obtain ⟨entries, -, -, built⟩ := ofDocument_eq_ok_iff.1 (ofDocument_oneInteger hs)
  have hnot : ¬ (Value.text s).IsLegible := fun hlegible => Nat.not_le.2 hlong (hlegible hs)
  have hstop : Visit.Stops ⟨(oneInteger s).root, data, ""⟩ (.text s) :=
    ⟨[], _, .start, .field hdata (.head _) hnot⟩
  obtain ⟨-, hno⟩ | ⟨key, hother, herr⟩ := ends_check built data
  · exact absurd hstop (hno _)
  · -- The schema has one key only, so this is what the check stops at.
    have hkeys : (oneInteger s).root.AllKeys (· = .text s) := by
      rw [oneInteger, Schema.AllKeys, List.forall_mem_singleton, Schema.AllKeys]
      exact ⟨rfl, trivial⟩
    obtain ⟨rfl, -⟩ := Schema.of_stops hother hkeys
    exact herr

/-- A document whose only key is a row of 4301 ones: a matcher is made of it, and asking it about
the empty mapping is refused. -/
theorem refused_ones :
    let m := oneInteger (String.ofList (List.replicate 4301 '1'))
    ofDocument (.mapping m.description) = .ok m ∧
      ((Session.start m).step (.holds (.mapping []))).1 = .refused (.tooLongToRead 4301) ∧
      ((Session.start m).step (.check (.mapping []))).1 = .refused (.tooLongToRead 4301) := by
  intro m
  have hlist : (String.ofList (List.replicate 4301 '1')).toList = List.replicate 4301 '1' :=
    String.toList_ofList
  have hs : Text.isDecimal (String.ofList (List.replicate 4301 '1')) = true := by
    rw [Text.isDecimal, hlist, List.all_replicate]
    decide
  have hcheck : m.check (.mapping []) = .error (.tooLongToRead 4301) := by
    have hlength : (String.ofList (List.replicate 4301 '1')).toList.length = 4301 := by
      rw [hlist, List.length_replicate]
    rw [← hlength]
    exact check_oneInteger hs (by rw [hlength]; decide) rfl
  refine ⟨ofDocument_oneInteger hs, ?_, ?_⟩
  · rw [Session.answer_start, answer, hcheck]
  · rw [Session.answer_start, answer, hcheck]

end Matcher

end TreeSchema
