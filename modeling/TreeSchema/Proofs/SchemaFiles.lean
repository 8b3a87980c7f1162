import TreeSchema.Files.Table
import TreeSchema.Proofs.JsonNumerals
import TreeSchema.Proofs.Loading
import TreeSchema.Proofs.Source
import TreeSchema.Proofs.YamlReading

/-!
# Schemas in files

A file that is there is loaded as a schema, or the reason is told why it is none. What breaks
loading down instead is a well-formed text that still cannot be turned into a schema or a reason
(`Format.BreaksDown`), and nothing else does (`Matcher.load_file_iff`).

The faults of decoding say where that can happen. In JSON it takes a run of digits beyond the limit,
and then decoding has refused it already; an integer that was read is never too long to be quoted.
In YAML it takes an obstacle in the text, or an integer that was not written in decimal: hexadecimal
digits are read without a limit, and the limit is met only when a line of the refusal quotes the
number. In both it may also be that there is no room, for decoding the text or for looking at its
shape (`Format.BreaksDown.json_cases`, `Format.BreaksDown.yaml_cases`).

A stack without bounds takes away the faults for lack of room, except where YAML goes in circles:
mappings that lead back to themselves have no end on any stack. Some of these are met when the text
is read, where one mapping stands for another by its value key. The others are read, and their shape
is what cannot be looked at to the end.

A directory, a name that is too long and a file that is not there are no concern of this module.
They end loading before there is a text, and what they come to is said where the source of a schema
is chosen.
-/

namespace TreeSchema

/-- **A document that was read from a text has distinct keys**, in either format. -/
theorem Format.hasDistinctKeys_of_decode {stack : Stack} {format : Format} {text : String}
    {document : Decoded} (h : format.decode stack text = .ok document) :
    document.HasDistinctKeys := by
  cases format with
  | json =>
    obtain ⟨j, rfl, -⟩ := (comesTo_decode_json stack text).of_eq_ok h
    exact fun _ => j.hasDistinctKeys_toValue
  | yaml => exact (Yaml.comesTo_decode stack text).of_eq_ok (mapError_eq_ok_iff.1 h)

/-- **The data trees that break loading down** where there are no bounds are the mappings with an
integer in them that is too long to be written. -/
theorem Matcher.ofDocument_eq_breakdown_iff {document : Value} {cause : Breakdown} :
    ofDocument document = .error (.breakdown cause)
      ↔ cause = .numeral .tooLongToWrite ∧ ∃ entries, document = .mapping entries ∧
          ¬ document.HasShortIntegers := by
  rw [ofDocument, ofDecoded_eq_breakdown_iff]
  constructor
  · rintro ⟨entries, fault, hmapping, hhalts, rfl⟩
    obtain ⟨rfl, hlong⟩ | ⟨-, hdeep⟩ := hhalts.cases
    · exact ⟨rfl, entries, hmapping, hlong⟩
    · exact absurd hdeep (by rintro (h | h) <;> exact h trivial)
  · rintro ⟨rfl, entries, rfl, hlong⟩
    have hnone :
        ¬ ∃ lines, Decoded.violations .unbounded (.tree (.mapping entries)) = .ok lines := by
      intro h
      have hpasses := (Document.exists_violationsAt_iff [] _).1 h
      exact hlong (Value.hasShortIntegers_of_passes hpasses)
    cases hlines : Decoded.violations .unbounded (.tree (.mapping entries)) with
    | ok lines => exact absurd ⟨lines, hlines⟩ hnone
    | error fault =>
      have hhalts := Decoded.violations_eq_error_iff.1 hlines
      obtain ⟨rfl, -⟩ | ⟨-, hdeep⟩ := hhalts.cases
      · exact ⟨entries, _, rfl, hhalts, rfl⟩
      · exact absurd hdeep (by rintro (h | h) <;> exact h trivial)

namespace Format.BreaksDown

variable {stack : Stack} {text : String} {cause : Breakdown}

/-- **A text of JSON breaks loading down** only by a run of digits in it that is beyond the limit,
or because there is no room for its brackets or for the levels of its data tree. -/
theorem json_cases (h : json.BreaksDown stack text cause) :
    (∃ run, IsLongRun run text.toList ∧
        cause = .decoding (.json (.numeral (.tooLongToRead run.length)))) ∨
      (¬ stack.json.Fits (Json.openings text.toList) ∧ cause = .decoding (.json .tooDeep)) ∨
      ∃ v, json.decode stack text = .ok (.tree v) ∧ (Decoded.tree v).IsDeep stack ∧
        cause = .tooDeep := by
  cases h with
  | decoding hdecode hfault =>
    obtain hmalformed | ⟨obstacle, hobstacle, rfl⟩ := (comesTo_decode_json stack text).of_eq_error
      hdecode
    · exact absurd hmalformed (Bool.eq_false_iff.1 hfault)
    · cases hobstacle with
      | long hrun => exact .inl ⟨_, hrun, rfl⟩
      | tooDeep hroom => exact .inr (.inl ⟨hroom, rfl⟩)
  | shape hdecode hmapping hhalts =>
    obtain ⟨j, rfl, short⟩ := (comesTo_decode_json stack text).of_eq_ok hdecode
    obtain ⟨-, hlong⟩ | ⟨rfl, hdeep⟩ := hhalts.cases
    · exact absurd short hlong
    · exact .inr (.inr ⟨_, hdecode, hdeep, rfl⟩)

/-- **A text of YAML breaks loading down** by an obstacle in it that leaves it well-formed, by an
integer in its document that is too long to be written, or because there is no room to look at the
shape of its document. -/
theorem yaml_cases (h : yaml.BreaksDown stack text cause) :
    (∃ fault, Yaml.Obstacle stack text fault ∧ DecodeFault.isMalformed (.yaml fault) = false ∧
        cause = .decoding (.yaml fault)) ∨
      ∃ document, yaml.decode stack text = .ok document ∧
        ((document.HasLongInteger ∧ cause = .numeral .tooLongToWrite) ∨
          (document.IsDeep stack ∧ cause = .tooDeep)) := by
  cases h with
  | decoding hdecode hfault =>
    obtain ⟨fault, hfault', rfl⟩ := mapError_eq_error_iff.1 hdecode
    exact .inl ⟨fault, (Yaml.comesTo_decode stack text).of_eq_error hfault', hfault, rfl⟩
  | shape hdecode hmapping hhalts =>
    refine .inr ⟨_, hdecode, ?_⟩
    obtain ⟨rfl, hlong⟩ | ⟨rfl, hdeep⟩ := hhalts.cases
    · exact .inl ⟨hlong, rfl⟩
    · exact .inr ⟨hdeep, rfl⟩

end Format.BreaksDown

namespace Matcher

variable {stack : Stack} {files : Files} {format : Format} {path : Path} {cause : Breakdown}

/-- What breaks loading from a file down is its text. -/
theorem load_file_eq_breakdown_iff {bytes : List UInt8}
    (hfind : files.find path = .ok (.file bytes)) :
    load stack files format (.path path) = .error (.breakdown cause)
      ↔ ∃ text, Files.textOfBytes bytes = .ok text ∧ format.BreaksDown stack text cause := by
  cases htext : Files.textOfBytes bytes with
  | error fault =>
    rw [load_path_of_find hfind]
    simp only [htext]
    exact iff_of_false (fun h => by cases h) fun ⟨_, h, _⟩ => by cases h
  | ok text =>
    rw [load_path_of_text hfind htext, ofText_eq_breakdown_iff]
    refine ⟨fun h => ⟨text, rfl, h⟩, ?_⟩
    rintro ⟨_, ⟨⟩, h⟩
    exact h

/-- **A schema file gives a matcher, or is told why it is none**, be it no UTF-8, malformed or of
another shape, unless it is well-formed text that breaks loading down on the stack. -/
theorem load_file_iff {bytes : List UInt8} (hfind : files.find path = .ok (.file bytes))
    (stack : Stack) (format : Format) :
    (((∃ m, load stack files format (.path path) = .ok m) ∨
        ∃ fault, load stack files format (.path path) = .error (.definition fault))
      ↔ ∀ text cause, Files.textOfBytes bytes = .ok text →
          ¬ format.BreaksDown stack text cause) ∧
    (∀ cause, load stack files format (.path path) = .error (.breakdown cause)
      ↔ ∃ text, Files.textOfBytes bytes = .ok text ∧ format.BreaksDown stack text cause) ∧
    (∀ text cause, format = .json → format.BreaksDown stack text cause →
      (∃ run, IsLongRun run text.toList ∧
          cause = .decoding (.json (.numeral (.tooLongToRead run.length)))) ∨
        (¬ stack.json.Fits (Json.openings text.toList) ∧ cause = .decoding (.json .tooDeep)) ∨
        ∃ v, format.decode stack text = .ok (.tree v) ∧ (Decoded.tree v).IsDeep stack ∧
          cause = .tooDeep) ∧
    ∀ text cause, format = .yaml → format.BreaksDown stack text cause →
      (∃ fault, Yaml.Obstacle stack text fault ∧ DecodeFault.isMalformed (.yaml fault) = false ∧
          cause = .decoding (.yaml fault)) ∨
        ∃ document, format.decode stack text = .ok document ∧
          ((document.HasLongInteger ∧ cause = .numeral .tooLongToWrite) ∨
            (document.IsDeep stack ∧ cause = .tooDeep)) := by
  refine ⟨?_, fun cause => load_file_eq_breakdown_iff hfind, ?_, ?_⟩
  -- Loading has three outcomes, so that it is none of the first two says that it breaks down.
  · have hnone : (∀ text cause, Files.textOfBytes bytes = .ok text →
          ¬ format.BreaksDown stack text cause)
        ↔ ∀ cause, load stack files format (.path path) ≠ .error (.breakdown cause) := by
      refine ⟨fun h cause hload => ?_, fun h text cause htext hbreaks => ?_⟩
      · obtain ⟨text, htext, hbreaks⟩ := (load_file_eq_breakdown_iff hfind).1 hload
        exact h text cause htext hbreaks
      · exact h cause ((load_file_eq_breakdown_iff hfind).2 ⟨text, htext, hbreaks⟩)
    rw [hnone]
    cases load stack files format (.path path) with
    | ok m => exact iff_of_true (.inl ⟨m, rfl⟩) nofun
    | error fault =>
      cases fault with
      | definition fault => exact iff_of_true (.inr ⟨fault, rfl⟩) nofun
      | breakdown cause => exact iff_of_false (by rintro (⟨_, ⟨⟩⟩ | ⟨_, ⟨⟩⟩)) fun h => h cause rfl
  · rintro text cause rfl hbreaks
    exact hbreaks.json_cases
  · rintro text cause rfl hbreaks
    exact hbreaks.yaml_cases

/-- A byte order mark of another encoding stands in front of the text: the file is no UTF-8, so
there is no text to break loading down, and the reason is told. -/
theorem load_file_foreignMark :
    let files := (FileTable.ofNamed [("s.json", .file [0xFF, 0xFE])]).files
    files.find (.ofText "s.json") = .ok (.file [0xFF, 0xFE]) ∧
    ∃ fault, load .usual files .json (.path (.ofText "s.json")) = .error (.definition fault) := by
  intro files
  have hfind : files.find (.ofText "s.json") = .ok (.file [0xFF, 0xFE]) := rfl
  have hbytes : Files.textOfBytes [0xFF, 0xFE] = .error ⟨0, 0xFF, 1, .start⟩ := by decide +kernel
  have hnone : ∀ text cause, Files.textOfBytes [0xFF, 0xFE] = .ok text →
      ¬ Format.json.BreaksDown .usual text cause :=
    fun text cause htext => by cases hbytes.symm.trans htext
  refine ⟨hfind, ?_⟩
  obtain ⟨m, hm⟩ | hfault := (load_file_iff hfind .usual .json).1.2 hnone
  · rw [load_path_of_find hfind] at hm
    simp only [hbytes] at hm
    cases hm
  · exact hfault

/-- A file of YAML with a day that no month has: the text is well-formed, and it breaks loading
down. -/
theorem load_file_impossibleDay :
    let bytes := Text.Utf8.encode "a: 2021-02-30\n"
    let files := (FileTable.ofNamed [("s.yaml", .file bytes)]).files
    load .usual files .yaml (.path (.ofText "s.yaml"))
      = .error (.breakdown (.decoding (.yaml (.calendar .day)))) := by
  intro bytes files
  have hfind : files.find (.ofText "s.yaml") = .ok (.file bytes) := rfl
  have hdecode : Format.yaml.decode .usual "a: 2021-02-30\n"
      = .error (.yaml (.calendar .day)) := by
    have hfault : (match Yaml.decode .usual "a: 2021-02-30\n" with
        | .error fault => some fault
        | .ok _ => none) = some (.calendar .day) := by decide +kernel
    rw [Format.decode]
    split at hfault
    · rename_i hdecode
      rw [hdecode, Option.some.inj hfault]
      rfl
    · cases hfault
  rw [load_file_eq_breakdown_iff hfind]
  exact ⟨_, Files.textOfBytes_encode (by decide), .decoding hdecode rfl⟩

/-- Mappings that are values of each other, in a circle. -/
example : (match ofText .usual .yaml "a: &b\n  c: *b\n" with
    | .error fault => some fault
    | .ok _ => none) = some (.breakdown .tooDeep) := by decide +kernel

end Matcher

end TreeSchema
