import TreeSchema.Proofs.Webs

/-!
# What loading comes to

A source is a path or a text, and a text may name a file or be the document itself. It names a file
when it has a suffix of the format, in letters of either case (`Source.IsNamed`); then it is the
text of the file that is read, or a reason is told why there is none (`Source.read_of_isNamed`).

A path that is there leads to a directory, which breaks loading down, or to a file, whose text is
then loaded (`Matcher.load_path_of_find`). A text breaks loading down in two ways
(`Format.BreaksDown`). It is well-formed but not read: it holds what no value can be made of, or
lies deeper than there is room for. Or it is read to a mapping, and the look at its shape halts
(`Decoded.Halts`), at an integer that is too long to be written or again for lack of room.

There is no third way. Whatever has come through the look at its shape without an offence is a tree,
since a document that is a part of itself would have shown an offence or would still be looked at
(`Yaml.Web.violations_ne_nil`); and a tree without offences is read to a schema.

A breakdown is a fault that the loader does not turn into a reason. The difference matters to a
caller: a reason is what the loader promises to tell about a document that it does not take, and a
breakdown goes past everybody who asks for reasons. So `Matcher.ofText_eq_breakdown_iff` is the
exact list of the texts that get past, and `Decoded.Halts.cases` says what is needed for the second
half of it without looking at the order of the walk.

Before the shape of a document is looked at it is asked whether it is a mapping at all. What is none
is told so, however deep it is and whatever integers it has in it, so that a list which is a part of
itself does not break loading down.
-/

namespace TreeSchema

namespace Source

/-- **The sources that name a file** of a format: paths, and texts with a suffix of the format in
letters of either case. -/
inductive IsNamed (format : Format) : Source → Prop
  | path (p : Path) : IsNamed format (.path p)
  | text {s : String} (hsuffix : (Path.ofText s).lowerSuffix ∈ format.suffixes) :
    IsNamed format (.text s)

variable {format : Format} {source : Source}

/-- The test for a file name. -/
theorem namesFile_iff : source.namesFile format = true ↔ source.IsNamed format := by
  cases source with
  | path p => exact iff_of_true rfl (.path p)
  | text s =>
    rw [namesFile, Format.isSuffixOf, List.contains_iff_mem]
    refine ⟨.text, ?_⟩
    rintro (_ | hsuffix)
    exact hsuffix

/-- **What is read from a source that names a file**, by what its path leads to. -/
theorem read_of_isNamed (named : source.IsNamed format) (files : Files) :
    source.read files format =
      match files.readText source.toPath with
      | .ok content => .ok content
      | .error (.access .absent) => .error (.definition (.absent source.shown))
      | .error (.access fault) => .error (.breakdown (.access source.toPath fault))
      | .error (.notUtf8 fault) => .error (.definition (.notUtf8 source.shown fault)) := by
  have hnames := namesFile_iff.2 named
  rw [read, hnames, Bool.true_or, if_pos rfl]
  cases files.readText source.toPath with
  | ok content => rfl
  | error fault =>
    cases fault with
    | notUtf8 fault => rfl
    | access fault => cases fault <;> rfl

/-- A text may be a path if it has a slash or a backslash. -/
theorem mayBePath_text_iff {t : String} :
    (text t).mayBePath = true ↔ '/' ∈ t.toList ∨ '\\' ∈ t.toList := by
  rw [mayBePath, List.any_eq_true]
  constructor
  · rintro ⟨c, hc, h⟩
    obtain rfl | rfl : c = '/' ∨ c = '\\' := by simpa using h
    · exact .inl hc
    · exact .inr hc
  · rintro (h | h)
    · exact ⟨_, h, rfl⟩
    · exact ⟨_, h, rfl⟩

end Source

namespace Matcher

variable {stack : Stack} {files : Files} {format : Format} {path : Path} {text : String}
  {cause : Breakdown}

/-- Loading from a path that leads to a file or a directory. -/
theorem load_path_of_find {node : FileNode} (h : files.find path = .ok node) (format : Format) :
    load stack files format (.path path) =
      match node with
      | .directory => .error (.breakdown (.access path .isDirectory))
      | .file bytes =>
        match Files.textOfBytes bytes with
        | .error fault => .error (.definition (.notUtf8 path.text fault))
        | .ok text => ofText stack format text := by
  unfold load
  rw [Source.read_of_isNamed (.path path)]
  unfold Files.readText
  cases node with
  | directory =>
    have hread : files.readBytes path = .error .isDirectory := by rw [Files.readBytes, h]
    simp only [Source.toPath, hread]
    rfl
  | file bytes =>
    have hread : files.readBytes path = .ok bytes := by rw [Files.readBytes, h]
    simp only [Source.toPath, hread]
    cases Files.textOfBytes bytes <;> rfl

/-- Loading from a file that holds a text. -/
theorem load_path_of_text {bytes : List UInt8} (hfind : files.find path = .ok (.file bytes))
    (htext : Files.textOfBytes bytes = .ok text) :
    load stack files format (.path path) = ofText stack format text := by
  rw [load_path_of_find hfind]
  simp only [htext]

end Matcher

/-! ## Breakdowns

Decoding has faults of its own, which are described with the formats. Here it is said what follows
from a document that was read. -/

namespace Decoded

variable {stack : Stack} {document : Decoded} {fault : ShapeFault}

/-- **What the look at the shape of a document halts at.** -/
def Halts (stack : Stack) (fault : ShapeFault) : Decoded → Prop
  | tree v => Document.Halts (Value.view stack.quote) fault (stack.shape.atMost v.levels) v
  | endless w _ => Document.Halts (w.view stack.quote) fault (stack.shape.atMost w.size) w.root

/-- What cannot be told of a document is what the look at its shape halts at. -/
theorem violations_eq_error_iff :
    document.violations stack = .error fault ↔ document.Halts stack fault := by
  cases document with
  | tree v => exact Document.violationsAt_eq_error_iff [] v
  | endless w _ => exact Document.violationsAt_eq_error_iff [] w.root

/-- **Whether an integer in a document is too long to be written**; in an endless one, an integer of
one of its nodes. -/
def HasLongInteger : Decoded → Prop
  | tree v => ¬ v.HasShortIntegers
  | endless w _ => ∃ r, ¬ (w.cell r).HasShortIntegers

/-- **Whether a document may be too deep for a stack.** There is no bound to how deep one can get in
an endless one. -/
def IsDeep (stack : Stack) : Decoded → Prop
  | tree v => ¬ stack.shape.Fits v.levels ∨ ¬ stack.quote.Fits v.levels
  | endless _ _ => True

/-- **Why the look at the shape of a document halts**: an integer in it is too long, or there is no
room. -/
theorem Halts.cases (h : document.Halts stack fault) :
    (fault = .numeral .tooLongToWrite ∧ document.HasLongInteger) ∨
      fault = .tooDeep ∧ document.IsDeep stack := by
  cases document with
  | tree v =>
    exact (Value.halts_cases h).imp_right (And.imp_right (Or.imp_left Room.not_fits_of_atMost_lt))
  | endless w _ => exact (w.untold_of_halts h).imp_right fun htooDeep => ⟨htooDeep, trivial⟩

end Decoded

namespace Matcher

variable {stack : Stack} {format : Format} {text : String} {cause : Breakdown}

/-- A document in which nothing offends is made a matcher of, so it does not break loading down. -/
theorem exists_ofDecoded_eq_ok {document : Decoded} {entries : List (Value × Value)}
    (hmapping : document.upTo 0 = .mapping entries) (h : document.violations stack = .ok []) :
    ∃ m, ofDecoded stack document = .ok m := by
  cases document with
  | endless w hw => exact absurd h (w.violations_ne_nil hw stack)
  | tree v =>
    obtain rfl : v = .mapping entries := hmapping
    have hshape := (Document.eq_nil_of_violationsAt_iff h).1 rfl
    obtain ⟨m, hm⟩ := exists_ofDocument_eq_ok hshape
    exact ⟨m, (ofDecoded_tree h).trans hm⟩

/-- A matcher that is made of a document is made of a data tree. -/
theorem exists_ofDocument_of_ofDecoded {document : Decoded} {m : Matcher}
    (h : ofDecoded stack document = .ok m) : ∃ v, ofDocument v = .ok m := by
  cases document with
  | tree v => exact ⟨v, ofDocument_of_ofDecoded h⟩
  | endless w hw =>
    unfold ofDecoded at h
    split at h
    · obtain ⟨lines, -, h⟩ := bind_eq_ok_iff.1 h
      split at h <;> cases h
    · cases h

/-- Whatever a matcher is loaded from, it is made of a data tree. -/
theorem exists_ofDocument_of_load {files : Files} {source : Source} {m : Matcher}
    (h : load stack files format source = .ok m) : ∃ v, ofDocument v = .ok m := by
  obtain ⟨text, -, h⟩ := bind_eq_ok_iff.1 h
  unfold ofText at h
  split at h
  · exact exists_ofDocument_of_ofDecoded h
  · split at h <;> cases h

/-- **The documents that break loading down** are the mappings at which the look at their shape
halts. -/
theorem ofDecoded_eq_breakdown_iff {document : Decoded} :
    ofDecoded stack document = .error (.breakdown cause) ↔
      ∃ entries fault, document.upTo 0 = .mapping entries ∧ document.Halts stack fault ∧
        cause = fault.breakdown := by
  -- Only a mapping is looked at further. Then it is the shape check that breaks down, or nothing
  -- does: a document without violations is a description.
  simp only [← Decoded.violations_eq_error_iff]
  by_cases hmapping : ∃ entries, document.upTo 0 = .mapping entries
  · obtain ⟨entries, hmapping⟩ := hmapping
    cases hlines : document.violations stack with
    | error fault =>
      have hbroken : ofDecoded stack document = .error (.breakdown fault.breakdown) := by
        unfold ofDecoded
        rw [hmapping, hlines]
        rfl
      rw [hbroken]
      constructor
      · rintro ⟨⟩
        exact ⟨entries, fault, hmapping, rfl, rfl⟩
      · rintro ⟨_, _, -, ⟨⟩, rfl⟩
        rfl
    | ok lines =>
      refine iff_of_false (fun h => ?_) (by rintro ⟨_, _, -, ⟨⟩, -⟩)
      cases lines with
      | nil =>
        obtain ⟨m, hm⟩ := exists_ofDecoded_eq_ok hmapping hlines
        cases hm.symm.trans h
      | cons line lines =>
        unfold ofDecoded at h
        rw [hmapping, hlines] at h
        cases h
  · refine iff_of_false (fun h => ?_) fun ⟨entries, _, h, _⟩ => hmapping ⟨entries, h⟩
    unfold ofDecoded at h
    split at h
    · exact hmapping ⟨_, ‹_›⟩
    · cases h

end Matcher

/-- **The ways in which a text of a format breaks loading down** on a stack: it is well-formed, but
it is not read to a document, or the look at the shape of the document halts. -/
inductive Format.BreaksDown (stack : Stack) (format : Format) (text : String) : Breakdown → Prop
  | decoding {fault : DecodeFault} (hdecode : format.decode stack text = .error fault)
    (hfault : fault.isMalformed = false) : BreaksDown stack format text (.decoding fault)
  | shape {document : Decoded} {entries : List (Value × Value)} {fault : ShapeFault}
    (hdecode : format.decode stack text = .ok document)
    (hmapping : document.upTo 0 = .mapping entries) (hhalts : document.Halts stack fault) :
    BreaksDown stack format text fault.breakdown

/-- A text never breaks loading down for lack of a path. -/
theorem Format.BreaksDown.ne_noPath {stack : Stack} {format : Format} {text : String}
    {cause : Breakdown} (h : format.BreaksDown stack text cause) : cause ≠ .noPath := by
  cases h with
  | decoding => exact fun h => by cases h
  | @shape _ _ fault => cases fault <;> exact fun h => by cases h

namespace Matcher

variable {stack : Stack} {format : Format} {text : String} {cause : Breakdown}

/-- **What breaks loading a text down.** -/
theorem ofText_eq_breakdown_iff :
    ofText stack format text = .error (.breakdown cause)
      ↔ format.BreaksDown stack text cause := by
  unfold ofText
  cases hdecode : format.decode stack text with
  | error fault =>
    constructor
    · intro h
      dsimp only at h
      split at h
      · cases h
      · cases h
        exact .decoding hdecode (Bool.eq_false_iff.2 ‹_›)
    · intro h
      cases h with
      | decoding hdecode' hfault =>
        cases hdecode.symm.trans hdecode'
        exact if_neg (Bool.eq_false_iff.1 hfault)
      | shape hdecode' => cases hdecode.symm.trans hdecode'
  | ok document =>
    dsimp only
    rw [ofDecoded_eq_breakdown_iff]
    constructor
    · rintro ⟨entries, fault, hmapping, hhalts, rfl⟩
      exact .shape hdecode hmapping hhalts
    · intro h
      cases h with
      | decoding hdecode' => cases hdecode.symm.trans hdecode'
      | shape hdecode' hmapping hhalts =>
        cases hdecode.symm.trans hdecode'
        exact ⟨_, _, hmapping, hhalts, rfl⟩

end Matcher

end TreeSchema
