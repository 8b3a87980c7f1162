import TreeSchema.Files.Table
import TreeSchema.Proofs.JsonRoundTrip
import TreeSchema.Proofs.Loading
import TreeSchema.Proofs.Utf8

/-!
# Documents inline and in files

A text without a slash or backslash and without a suffix of the format is the document itself,
whatever files there are, and a source that names a file is never a document itself. The two ways of
loading agree: what is written to a file is read from its bytes as it was written, apart from
carriage returns, so the file is loaded as the text is (`Matcher.load_agrees`).

That the two agree is one equation for each of them. A text that is not taken for a path is loaded
as a text (`Matcher.load_inline`), and a file that a text was written to is loaded as that text
(`Matcher.load_written`). On the right side of both stands the same, so the outcome is the same in
all respects, be it a matcher, a reason with its message and its lines, or a breakdown.

Carriage returns are the exception because a file is read as lines: every end of a line becomes a
line feed, and a text that is loaded inline keeps the ends that it has.

Whether a source names a file is told by its suffix alone, before anything is looked up. A text with
a suffix is a file name even if it is a document as well, and a text without one may still be looked
up if it has a slash in it, which is what the condition on slashes keeps out.
-/

namespace TreeSchema

/-- A text that is not taken for a path is the document. -/
theorem Source.read_inline {format : Format} {t : String} (slash : '/' ∉ t.toList)
    (backslash : '\\' ∉ t.toList) (unnamed : (Path.ofText t).lowerSuffix ∉ format.suffixes)
    (files : Files) : (text t).read files format = .ok t := by
  have hnames : (text t).namesFile format = false := by
    rw [← Bool.not_eq_true, namesFile_iff]
    rintro (_ | hsuffix)
    exact unnamed hsuffix
  have hpath : (text t).mayBePath = false := by
    rw [← Bool.not_eq_true, mayBePath_text_iff, not_or]
    exact ⟨slash, backslash⟩
  rw [read, hnames, hpath]
  rfl

/-- **The text of a file** is what was written to it, if that has no carriage returns. -/
theorem Files.textOfBytes_encode {t : String} (feeds : '\r' ∉ t.toList) :
    textOfBytes (Text.Utf8.encode t) = .ok t := by
  rw [textOfBytes, Text.Utf8.decode_encode]
  show Except.ok (String.ofList (Text.unifyLineEnds t.toList)) = _
  rw [Text.unifyLineEnds_of_not_mem feeds, String.ofList_toList]

namespace Matcher

variable {stack : Stack} {files : Files} {format : Format} {source : Source} {t : String}

/-- Loading a document inline. -/
theorem load_inline (slash : '/' ∉ t.toList) (backslash : '\\' ∉ t.toList)
    (unnamed : (Path.ofText t).lowerSuffix ∉ format.suffixes) (files : Files) :
    load stack files format (.text t) = ofText stack format t := by
  rw [load, Source.read_inline slash backslash unnamed]
  rfl

/-- Loading a document from the file that it was written to. -/
theorem load_written (feeds : '\r' ∉ t.toList) (named : source.IsNamed format)
    (hfind : files.find source.toPath = .ok (.file (Text.Utf8.encode t))) :
    load stack files format source = ofText stack format t := by
  have hread : files.readText source.toPath = .ok t := by
    unfold Files.readText Files.readBytes
    rw [hfind]
    simp only [Files.textOfBytes_encode feeds]
    rfl
  rw [load, Source.read_of_isNamed named, hread]
  rfl

/-- **Documents inline and in files are loaded alike** on every stack, and neither is taken for the
other. A text with neither a slash nor a backslash nor a suffix of the format loads in the same way
whatever files there are, and if it has no carriage returns a file that it was written to loads in
the same way too. From a source that names a file nothing is ever read but what stands in the file,
and if there is none, loading is refused with the source as it was given and without lines of
offences. -/
theorem load_agrees (stack : Stack) (format : Format) :
    (∀ t : String, '/' ∉ t.toList → '\\' ∉ t.toList →
      (Path.ofText t).lowerSuffix ∉ format.suffixes →
        (∀ files files' : Files,
          load stack files format (.text t) = load stack files' format (.text t)) ∧
        ('\r' ∉ t.toList → ∀ (files files' : Files) (source : Source), source.IsNamed format →
          files.find source.toPath = .ok (.file (Text.Utf8.encode t)) →
            load stack files format source = load stack files' format (.text t))) ∧
    ∀ (files : Files) (source : Source), source.IsNamed format →
      (∀ text, source.read files format = .ok text → files.readText source.toPath = .ok text) ∧
      (files.find source.toPath = .error .absent → ∃ fault,
        load stack files format source = .error (.definition fault) ∧
          fault.message = "Schema file not found: " ++ source.shown ∧ fault.violations = []) := by
  refine ⟨fun t slash backslash unnamed => ⟨fun files files' => ?_,
    fun feeds files files' source named hfind => ?_⟩, fun files source named =>
      ⟨fun text hread => ?_, fun hfind => ?_⟩⟩
  · rw [load_inline slash backslash unnamed, load_inline slash backslash unnamed]
  · rw [load_written feeds named hfind, load_inline slash backslash unnamed]
  · rw [Source.read_of_isNamed named] at hread
    split at hread
    · rename_i hcontent
      rw [hcontent, Except.ok.inj hread]
    all_goals cases hread
  · have hread : files.readText source.toPath = .error (.access .absent) := by
      unfold Files.readText Files.readBytes
      rw [hfind]
    refine ⟨.absent source.shown, ?_, rfl, rfl⟩
    rw [load, Source.read_of_isNamed named, hread]
    rfl

/-- A document with the name of a file in it, and a file with a suffix in capitals that it was
written to. The name with the suffix in small letters is that of another file, which is absent. -/
theorem load_agrees_capitals :
    let t := "\x7b\"a.json\": \"integer\"\x7d"
    let files := (FileTable.ofNamed [("S.JSON", .file (Text.Utf8.encode t))]).files
    ('/' ∉ t.toList ∧ '\\' ∉ t.toList ∧ '\r' ∉ t.toList) ∧
    (Path.ofText t).lowerSuffix ∉ Format.json.suffixes ∧
    (Source.text "S.JSON").IsNamed .json ∧ (Source.text "S.json").IsNamed .json ∧
    files.find (.ofText "S.JSON") = .ok (.file (Text.Utf8.encode t)) ∧
    files.find (.ofText "S.json") = .error .absent ∧
    (∃ m, load .usual files .json (.text t) = .ok m ∧
      load .usual files .json (.text "S.JSON") = .ok m) ∧
    ∃ fault, load .usual files .json (.text "S.json") = .error (.definition fault) ∧
      fault.message = "Schema file not found: S.json" := by
  intro t files
  have slash : '/' ∉ t.toList := by decide
  have backslash : '\\' ∉ t.toList := by decide
  have feeds : '\r' ∉ t.toList := by decide
  have unnamed : (Path.ofText t).lowerSuffix ∉ Format.json.suffixes := by decide +kernel
  have named : (Source.text "S.JSON").IsNamed .json := .text (by decide +kernel)
  have named' : (Source.text "S.json").IsNamed .json := .text (by decide +kernel)
  have hfind : files.find (.ofText "S.JSON") = .ok (.file (Text.Utf8.encode t)) := rfl
  have hfind' : files.find (.ofText "S.json") = .error .absent := rfl
  have hdecode : Format.json.decode .usual t
      = .ok (.tree (.mapping [(.text "a.json", .text "integer")])) := by
    let j : Json := .object [("a.json", .text "integer")]
    have ht : t = Json.encode .oneLine j := rfl
    have hj : j.HasNoNumber := ⟨trivial, trivial⟩
    rw [ht, Format.decode_json_encode .oneLine hj (by decide)]
    rfl
  obtain ⟨m, hm⟩ : ∃ m, load .usual files .json (.text t) = .ok m := by
    rw [load_inline slash backslash unnamed, ofText, hdecode]
    exact ⟨_, rfl⟩
  obtain ⟨hinline, hnamed⟩ := load_agrees .usual .json
  obtain ⟨-, hwritten⟩ := hinline t slash backslash unnamed
  obtain ⟨fault, hload, hmessage, -⟩ := (hnamed files _ named').2 hfind'
  exact ⟨⟨slash, backslash, feeds⟩, unnamed, named, named', hfind, hfind', ⟨m, hm,
    (hwritten feeds files files _ named hfind).trans hm⟩, fault, hload, hmessage⟩

end Matcher

end TreeSchema
