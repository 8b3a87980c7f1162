import TreeSchema.CommandLine.Checking
import TreeSchema.Proofs.Unfolding

/-!
# The stages of a check

How each stage of a check ends is a relation here, with one case for each way it can end: in its
result, in an error that is told, or in a breakdown. Each relation has a single outcome, the one
that is computed (`CheckRequest.schemaStage_iff`, `CheckRequest.dataStage_iff`,
`CheckRequest.decodeStage_iff`). A check ends as its first stage that has no result, and in a report
if they all have one (`CheckRequest.ends_iff`).

The stages speak of stacks and of files, but not of how the program computes with them: a stage is
told by what its path leads to, by the suffix of its name and by what the text there is read to. Of
the data the last stage asks for no more than what matching comes to however far one looks
(`Matcher.ChecksTo`), so it makes no difference whether the data is a tree.

The order of the stages is a part of what a run means. The schema is loaded before the data is
looked for, and the data is read before it is decoded; of two errors the first one is told, and what
would come after it is not even tried. In the relations this is said by what a case asks for: a
stage that ends badly asks for the results of those before it.

Each relation is compared with the computation in two steps. It has at most the outcome that is
computed, case by case; and it has some outcome, since the cases cover whatever files there are.
Together these make an equivalence, and from there on the computation is not looked at again.
-/

namespace TreeSchema.CommandLine.CheckRequest

/-- How loading the schema of a check ends. -/
inductive SchemaStage (stack : Stack) (files : Files) (c : CheckRequest) :
    Except CheckFault (String × Matcher) → Prop
  /-- The option was given no value. -/
  | noPath (hschema : c.schema = none) : SchemaStage stack files c (.error (.breakdown .noPath))
  | tooLong {name : String} (hschema : c.schema = some name)
      (hfind : files.find (.ofText name) = .error .nameTooLong) :
      SchemaStage stack files c (.error (.breakdown (.access (.ofText name) .nameTooLong)))
  /-- There is no file. -/
  | absent {name : String} {fault : AccessFault} (hschema : c.schema = some name)
      (hfind : files.find (.ofText name) = .error fault) (hfault : fault ≠ .nameTooLong) :
      SchemaStage stack files c (.error (.refused (.schemaNotFound name)))
  /-- The file is not named for a format. -/
  | unnamed {name : String} {node : FileNode} (hschema : c.schema = some name)
      (hfind : files.find (.ofText name) = .ok node)
      (hsuffix : ∀ format : Format, (Path.ofText name).lowerSuffix ∉ format.suffixes) :
      SchemaStage stack files c (.error (.refused (.schemaFormat (Path.ofText name).lowerSuffix)))
  /-- The document is not taken. -/
  | refused {name : String} {node : FileNode} {format : Format} {fault : DefinitionFault}
      (hschema : c.schema = some name) (hfind : files.find (.ofText name) = .ok node)
      (hsuffix : (Path.ofText name).lowerSuffix ∈ format.suffixes)
      (hload : Matcher.load stack files format (.path (.ofText name))
        = .error (.definition fault)) :
      SchemaStage stack files c (.error (.refused (.schema fault)))
  | broken {name : String} {node : FileNode} {format : Format} {cause : Breakdown}
      (hschema : c.schema = some name) (hfind : files.find (.ofText name) = .ok node)
      (hsuffix : (Path.ofText name).lowerSuffix ∈ format.suffixes)
      (hload : Matcher.load stack files format (.path (.ofText name)) = .error (.breakdown cause)) :
      SchemaStage stack files c (.error (.breakdown cause))
  | loaded {name : String} {node : FileNode} {format : Format} {m : Matcher}
      (hschema : c.schema = some name) (hfind : files.find (.ofText name) = .ok node)
      (hsuffix : (Path.ofText name).lowerSuffix ∈ format.suffixes)
      (hload : Matcher.load stack files format (.path (.ofText name)) = .ok m) :
      SchemaStage stack files c (.ok (name, m))

/-- How reading the data of a check ends. -/
inductive DataStage (files : Files) (stdin : String) (c : CheckRequest) :
    Except CheckFault String → Prop
  | stdin (hstdin : c.stdin = true) : DataStage files stdin c (.ok stdin)
  /-- There is neither the option nor a file. -/
  | noData (hstdin : c.stdin = false) (hfile : ∀ name, c.file = some name → name = "") :
      DataStage files stdin c (.error (.refused .noData))
  | tooLong {name : String} (hstdin : c.stdin = false) (hfile : c.file = some name)
      (hname : name ≠ "") (hfind : files.find (.ofText name) = .error .nameTooLong) :
      DataStage files stdin c (.error (.breakdown (.access (.ofText name) .nameTooLong)))
  /-- There is no file. -/
  | absent {name : String} {fault : AccessFault} (hstdin : c.stdin = false)
      (hfile : c.file = some name) (hname : name ≠ "")
      (hfind : files.find (.ofText name) = .error fault) (hfault : fault ≠ .nameTooLong) :
      DataStage files stdin c (.error (.refused (.dataNotFound name)))
  | directory {name : String} (hstdin : c.stdin = false) (hfile : c.file = some name)
      (hname : name ≠ "") (hfind : files.find (.ofText name) = .ok .directory) :
      DataStage files stdin c (.error (.breakdown (.access (.ofText name) .isDirectory)))
  | notUtf8 {name : String} {bytes : List UInt8} {fault : Text.Utf8.Fault}
      (hstdin : c.stdin = false) (hfile : c.file = some name) (hname : name ≠ "")
      (hfind : files.find (.ofText name) = .ok (.file bytes))
      (htext : Files.textOfBytes bytes = .error fault) :
      DataStage files stdin c (.error (.refused (.dataNotUtf8 name fault)))
  | read {name : String} {bytes : List UInt8} {text : String} (hstdin : c.stdin = false)
      (hfile : c.file = some name) (hname : name ≠ "")
      (hfind : files.find (.ofText name) = .ok (.file bytes))
      (htext : Files.textOfBytes bytes = .ok text) :
      DataStage files stdin c (.ok text)

/-- The format that the data of a check is read in. -/
inductive Selects (c : CheckRequest) : Format → Prop
  | asked {format : Format} (hformat : c.format = some format) : Selects c format
  | named {name : String} (hformat : c.format = none) (hfile : c.file = some name)
      (hsuffix : (Path.ofText name).lowerSuffix ∈ Format.yaml.suffixes) : Selects c .yaml
  | other (hformat : c.format = none)
      (hfile : ∀ name, c.file = some name →
        (Path.ofText name).lowerSuffix ∉ Format.yaml.suffixes) : Selects c .json

/-- How decoding a text in a format ends. -/
inductive DecodeStage (stack : Stack) (format : Format) (text : String) :
    Except CheckFault Decoded → Prop
  | malformed {fault : DecodeFault} (hdecode : format.decode stack text = .error fault)
      (hfault : fault.isMalformed = true) :
      DecodeStage stack format text (.error (.refused (.data format fault.message)))
  /-- The text holds what no value can be made of. -/
  | broken {fault : DecodeFault} (hdecode : format.decode stack text = .error fault)
      (hfault : fault.isMalformed = false) :
      DecodeStage stack format text (.error (.breakdown (.decoding fault)))
  | decoded {data : Decoded} (hdecode : format.decode stack text = .ok data) :
      DecodeStage stack format text (.ok data)

/-- Whether a check gets as far as matching data against a schema. -/
def Reaches (platform : Platform) (files : Files) (stdin : String) (c : CheckRequest)
    (m : Matcher) (data : Decoded) : Prop :=
  ∃ name text format, c.SchemaStage platform.schema files (.ok (name, m)) ∧
    c.DataStage files stdin (.ok text) ∧ c.Selects format ∧
    format.decode platform.data text = .ok data

/-- **How a check ends**: as its first stage that has no result does, or in a report. -/
inductive Ends (platform : Platform) (files : Files) (stdin : String) (c : CheckRequest) :
    Except CheckFault Checked → Prop
  | schema {fault : CheckFault} (hschema : c.SchemaStage platform.schema files (.error fault)) :
      Ends platform files stdin c (.error fault)
  | data {name : String} {m : Matcher} {fault : CheckFault}
      (hschema : c.SchemaStage platform.schema files (.ok (name, m)))
      (hdata : c.DataStage files stdin (.error fault)) : Ends platform files stdin c (.error fault)
  | decoding {name : String} {m : Matcher} {text : String} {format : Format} {fault : CheckFault}
      (hschema : c.SchemaStage platform.schema files (.ok (name, m)))
      (hdata : c.DataStage files stdin (.ok text))
      (hformat : c.Selects format)
      (hdecode : DecodeStage platform.data format text (.error fault)) :
      Ends platform files stdin c (.error fault)
  | matching {name : String} {m : Matcher} {text : String} {format : Format} {data : Decoded}
      {fault : NumeralFault}
      (hschema : c.SchemaStage platform.schema files (.ok (name, m)))
      (hdata : c.DataStage files stdin (.ok text))
      (hformat : c.Selects format) (hdecode : DecodeStage platform.data format text (.ok data))
      (hcheck : m.ChecksTo data (.error fault)) :
      Ends platform files stdin c (.error (.breakdown (.numeral fault)))
  | report {name : String} {m : Matcher} {text : String} {format : Format} {data : Decoded}
      {report : Report}
      (hschema : c.SchemaStage platform.schema files (.ok (name, m)))
      (hdata : c.DataStage files stdin (.ok text))
      (hformat : c.Selects format) (hdecode : DecodeStage platform.data format text (.ok data))
      (hcheck : m.ChecksTo data (.ok report)) :
      Ends platform files stdin c (.ok ⟨m, name, format, data, report⟩)

variable {platform : Platform} {stack : Stack} {files : Files} {stdin : String}
  {c : CheckRequest} {name : String}

/-! ## Loading the schema

A path is asked for before the suffix is looked at. A file that is not there is an error of its own
here, although the loader would tell it too. -/

/-- A path leads somewhere, or nowhere, or its name is too long. -/
theorem exists?_eq (files : Files) (path : Path) :
    exists? files path =
      match files.find path with
      | .ok _ => .ok true
      | .error .nameTooLong => .error (.breakdown (.access path .nameTooLong))
      | .error _ => .ok false := by
  unfold exists? Files.hasPath
  cases files.find path with
  | ok node => rfl
  | error fault => cases fault <;> rfl

/-- Loading the schema where its path leads nowhere. -/
theorem loadSchema_of_find_eq_error {fault : AccessFault} (hschema : c.schema = some name)
    (hfind : files.find (.ofText name) = .error fault) :
    c.loadSchema stack files =
      if fault = .nameTooLong then .error (.breakdown (.access (.ofText name) .nameTooLong))
      else .error (.refused (.schemaNotFound name)) := by
  unfold loadSchema
  simp only [hschema, exists?_eq, hfind]
  cases fault <;> rfl

/-- Loading the schema where its path leads somewhere. -/
theorem loadSchema_of_find_eq_ok {node : FileNode} (hschema : c.schema = some name)
    (hfind : files.find (.ofText name) = .ok node) :
    c.loadSchema stack files =
      match Format.ofSuffix? (.ofText name) with
      | none => .error (.refused (.schemaFormat (Path.ofText name).lowerSuffix))
      | some format =>
        match Matcher.load stack files format (.path (.ofText name)) with
        | .ok m => .ok (name, m)
        | .error (.definition fault) => .error (.refused (.schema fault))
        | .error (.breakdown cause) => .error (.breakdown cause) := by
  unfold loadSchema
  simp only [hschema, exists?_eq, hfind]
  cases Format.ofSuffix? (.ofText name) with
  | none => rfl
  | some format =>
    dsimp only
    cases Matcher.load stack files format (.path (.ofText name)) with
    | ok m => rfl
    | error fault => cases fault <;> rfl

/-- The format of a path by its suffix in lower case. -/
theorem ofSuffix?_eq_some_iff_mem {format : Format} {path : Path} :
    Format.ofSuffix? path = some format ↔ path.lowerSuffix ∈ format.suffixes := by
  rw [Format.ofSuffix?_eq_some_iff, Format.isSuffixOf, List.contains_iff_mem]

/-- The schema stage ends in one way. -/
theorem SchemaStage.eq {r : Except CheckFault (String × Matcher)}
    (h : c.SchemaStage stack files r) : c.loadSchema stack files = r := by
  cases h with
  | noPath hschema =>
    unfold loadSchema
    rw [hschema]
    rfl
  | tooLong hschema hfind => rw [loadSchema_of_find_eq_error hschema hfind, if_pos rfl]
  | absent hschema hfind hfault =>
    rw [loadSchema_of_find_eq_error hschema hfind, if_neg hfault]
  | unnamed hschema hfind hsuffix =>
    have hnone : Format.ofSuffix? (.ofText _) = none :=
      Option.eq_none_iff_forall_ne_some.2 fun format h =>
        hsuffix format (ofSuffix?_eq_some_iff_mem.1 h)
    rw [loadSchema_of_find_eq_ok hschema hfind, hnone]
  | refused hschema hfind hsuffix hload | broken hschema hfind hsuffix hload
  | loaded hschema hfind hsuffix hload =>
    rw [loadSchema_of_find_eq_ok hschema hfind, ofSuffix?_eq_some_iff_mem.2 hsuffix]
    simp only [hload]

/-- The schema stage ends in some way. -/
theorem exists_schemaStage (stack : Stack) (files : Files) (c : CheckRequest) :
    ∃ r, c.SchemaStage stack files r := by
  cases hschema : c.schema with
  | none => exact ⟨_, .noPath hschema⟩
  | some name =>
    cases hfind : files.find (.ofText name) with
    | error fault =>
      by_cases hfault : fault = .nameTooLong
      · exact ⟨_, .tooLong hschema (hfault ▸ hfind)⟩
      · exact ⟨_, .absent hschema hfind hfault⟩
    | ok node =>
      -- The suffix belongs to one format at most, so any format that it belongs to will do.
      by_cases hformat : ∃ format : Format, (Path.ofText name).lowerSuffix ∈ format.suffixes
      · obtain ⟨format, hsuffix⟩ := hformat
        cases hload : Matcher.load stack files format (.path (.ofText name)) with
        | ok m => exact ⟨_, .loaded hschema hfind hsuffix hload⟩
        | error fault =>
          cases fault with
          | definition fault => exact ⟨_, .refused hschema hfind hsuffix hload⟩
          | breakdown cause => exact ⟨_, .broken hschema hfind hsuffix hload⟩
      · exact ⟨_, .unnamed hschema hfind (not_exists.1 hformat)⟩

/-- **The schema stage ends in the way that is computed**, and in no other. -/
theorem schemaStage_iff {r : Except CheckFault (String × Matcher)} :
    c.SchemaStage stack files r ↔ c.loadSchema stack files = r := by
  refine ⟨SchemaStage.eq, fun h => ?_⟩
  obtain ⟨r', hr'⟩ := exists_schemaStage stack files c
  rwa [← h, hr'.eq]

/-! ## Reading the data

The standard input comes before a file, and a file without a name is none. -/

/-- A file without a name is no file. -/
theorem fileName_eq_some_iff : c.fileName = some name ↔ c.file = some name ∧ name ≠ "" := by
  rw [fileName, Option.filter_eq_some_iff, decide_eq_true_iff]

/-- Reading the data from a file. -/
theorem readData_of_file (hstdin : c.stdin = false) (hfile : c.file = some name)
    (hname : name ≠ "") :
    c.readData files stdin =
      match files.find (.ofText name) with
      | .error .nameTooLong => .error (.breakdown (.access (.ofText name) .nameTooLong))
      | .error _ => .error (.refused (.dataNotFound name))
      | .ok .directory => .error (.breakdown (.access (.ofText name) .isDirectory))
      | .ok (.file bytes) =>
        (Files.textOfBytes bytes).mapError fun fault => .refused (.dataNotUtf8 name fault) := by
  have hfileName : c.fileName = some name := fileName_eq_some_iff.2 ⟨hfile, hname⟩
  unfold readData
  simp only [hstdin, hfileName, exists?_eq, Files.readText, Files.readBytes]
  cases hfind : files.find (.ofText name) with
  | error fault => cases fault <;> rfl
  | ok node =>
    cases node with
    | directory => rfl
    | file bytes =>
      dsimp only
      cases Files.textOfBytes bytes <;> rfl

/-- The data stage ends in one way. -/
theorem DataStage.eq {r : Except CheckFault String} (h : c.DataStage files stdin r) :
    c.readData files stdin = r := by
  cases h with
  | stdin hstdin =>
    unfold readData
    rw [hstdin]
    rfl
  | noData hstdin hfile =>
    have hnone : c.fileName = none := Option.eq_none_iff_forall_ne_some.2 fun name h =>
      absurd (hfile name (fileName_eq_some_iff.1 h).1) (fileName_eq_some_iff.1 h).2
    unfold readData
    rw [hstdin, hnone]
    rfl
  | tooLong hstdin hfile hname hfind => rw [readData_of_file hstdin hfile hname, hfind]
  | absent hstdin hfile hname hfind hfault =>
    rw [readData_of_file hstdin hfile hname, hfind]
    split <;> simp_all
  | directory hstdin hfile hname hfind => rw [readData_of_file hstdin hfile hname, hfind]
  | notUtf8 hstdin hfile hname hfind htext | read hstdin hfile hname hfind htext =>
    rw [readData_of_file hstdin hfile hname, hfind]
    simp only [htext]
    rfl

/-- The data stage ends in some way. -/
theorem exists_dataStage (files : Files) (stdin : String) (c : CheckRequest) :
    ∃ r, c.DataStage files stdin r := by
  cases hstdin : c.stdin with
  | true => exact ⟨_, .stdin hstdin⟩
  | false =>
    cases hfile : c.file with
    | none => exact ⟨_, .noData hstdin fun name h => by rw [hfile] at h; cases h⟩
    | some name =>
      by_cases hname : name = ""
      · exact ⟨_, .noData hstdin fun name' h => by rw [hfile] at h; cases h; exact hname⟩
      · cases hfind : files.find (.ofText name) with
        | error fault =>
          by_cases hfault : fault = .nameTooLong
          · exact ⟨_, .tooLong hstdin hfile hname (hfault ▸ hfind)⟩
          · exact ⟨_, .absent hstdin hfile hname hfind hfault⟩
        | ok node =>
          cases node with
          | directory => exact ⟨_, .directory hstdin hfile hname hfind⟩
          | file bytes =>
            cases htext : Files.textOfBytes bytes with
            | error fault => exact ⟨_, .notUtf8 hstdin hfile hname hfind htext⟩
            | ok text => exact ⟨_, .read hstdin hfile hname hfind htext⟩

/-- **The data stage ends in the way that is computed**, and in no other. -/
theorem dataStage_iff {r : Except CheckFault String} :
    c.DataStage files stdin r ↔ c.readData files stdin = r := by
  refine ⟨DataStage.eq, fun h => ?_⟩
  obtain ⟨r', hr'⟩ := exists_dataStage files stdin c
  rwa [← h, hr'.eq]

/-! ## Decoding the data

A format that was asked for comes before the one that the file is named for. The standard input has
no name, but the file that was named beside it has, and counts. -/

/-- A file without a name is named for no format. -/
theorem lowerSuffix_empty : (Path.ofText "").lowerSuffix = "" := by decide +kernel

/-- A data file is named for YAML by its suffix, whether it has a name or not. -/
theorem exists_fileName_iff :
    (∃ name, c.fileName = some name ∧ Format.yaml.isSuffixOf (.ofText name) = true)
      ↔ ∃ name, c.file = some name ∧ (Path.ofText name).lowerSuffix ∈ Format.yaml.suffixes := by
  refine exists_congr fun name => ?_
  rw [fileName_eq_some_iff, Format.isSuffixOf, List.contains_iff_mem, and_assoc]
  refine and_congr_right fun _ => and_iff_right_of_imp ?_
  rintro hsuffix rfl
  rw [lowerSuffix_empty] at hsuffix
  exact absurd hsuffix (by decide)

/-- The format of data that no format was asked for. -/
theorem dataFormat_of_none (hformat : c.format = none) :
    c.dataFormat = .yaml
      ↔ ∃ name, c.file = some name ∧ (Path.ofText name).lowerSuffix ∈ Format.yaml.suffixes := by
  rw [← exists_fileName_iff, dataFormat, hformat]
  cases c.fileName with
  | none => simp
  | some name => simp

/-- **The format of the data** is the one that is computed, and no other. -/
theorem selects_iff {format : Format} : c.Selects format ↔ c.dataFormat = format := by
  cases hformat : c.format with
  | some asked =>
    have hdata : c.dataFormat = asked := by
      rw [dataFormat, hformat]
    rw [hdata]
    constructor
    · rintro (h | ⟨h, -, -⟩ | ⟨h, -⟩)
      · exact Option.some.inj (hformat.symm.trans h)
      · cases hformat.symm.trans h
      · cases hformat.symm.trans h
    · rintro rfl
      exact .asked hformat
  | none =>
    have hyaml := dataFormat_of_none hformat
    constructor
    · rintro (h | ⟨-, hfile, hsuffix⟩ | ⟨-, hfile⟩)
      · cases hformat.symm.trans h
      · exact hyaml.2 ⟨_, hfile, hsuffix⟩
      · cases hdata : c.dataFormat with
        | json => rfl
        | yaml =>
          obtain ⟨name, hname, hsuffix⟩ := hyaml.1 hdata
          exact absurd hsuffix (hfile name hname)
    · rintro rfl
      cases hdata : c.dataFormat with
      | yaml =>
        obtain ⟨name, hname, hsuffix⟩ := hyaml.1 hdata
        exact .named hformat hname hsuffix
      | json =>
        refine .other hformat fun name hname hsuffix => ?_
        rw [hyaml.2 ⟨name, hname, hsuffix⟩] at hdata
        cases hdata

/-- **Decoding ends in the way that is computed**, and in no other. -/
theorem decodeStage_iff {format : Format} {text : String} {r : Except CheckFault Decoded} :
    DecodeStage stack format text r ↔ decodeData stack format text = r := by
  unfold decodeData
  constructor
  · rintro (⟨hdecode, hfault⟩ | ⟨hdecode, hfault⟩ | hdecode) <;> rw [hdecode]
    · exact congrArg Except.error (if_pos hfault)
    · exact congrArg Except.error (if_neg (Bool.eq_false_iff.1 hfault))
    · rfl
  · rintro rfl
    cases hdecode : format.decode stack text with
    | ok data => exact .decoded hdecode
    | error fault =>
      show DecodeStage stack format text (.error (if fault.isMalformed then _ else _))
      cases hfault : fault.isMalformed with
      | true => exact .malformed hdecode hfault
      | false => exact .broken hdecode hfault

/-! ## The whole check

The outcome of the whole is that of the stage that comes first, and the others have no part in it.
-/

/-- What is left to do once the schema and the data are there. -/
theorem run_of_dataStage {m : Matcher} {text : String} {format : Format}
    (hschema : c.SchemaStage platform.schema files (.ok (name, m)))
    (hdata : c.DataStage files stdin (.ok text))
    (hformat : c.Selects format) :
    c.run platform files stdin =
      match decodeData platform.data format text with
      | .error fault => .error fault
      | .ok data =>
        match m.check (data.upTo m.root.reach) with
        | .error fault => .error (.breakdown (.numeral fault))
        | .ok report => .ok ⟨m, name, format, data, report⟩ := by
  unfold run
  rw [hschema.eq, hdata.eq, selects_iff.1 hformat]
  change (decodeData platform.data format text >>= fun data => matchData m data >>= _) = _
  cases decodeData platform.data format text with
  | error fault => rfl
  | ok data =>
    dsimp only
    change ((m.check (data.upTo m.root.reach)).mapError _ >>= _) = _
    cases m.check (data.upTo m.root.reach) <;> rfl

/-- A check ends in one way. -/
theorem Ends.eq {r : Except CheckFault Checked} (h : c.Ends platform files stdin r) :
    c.run platform files stdin = r := by
  cases h with
  | schema hschema =>
    unfold run
    rw [hschema.eq]
    rfl
  | data hschema hdata =>
    unfold run
    rw [hschema.eq, hdata.eq]
    rfl
  | decoding hschema hdata hformat hdecode =>
    rw [run_of_dataStage hschema hdata hformat, decodeStage_iff.1 hdecode]
  | matching hschema hdata hformat hdecode hcheck
  | report hschema hdata hformat hdecode hcheck =>
    rw [run_of_dataStage hschema hdata hformat, decodeStage_iff.1 hdecode]
    simp only [Matcher.checksTo_iff.1 hcheck]

/-- A check ends in some way. -/
theorem exists_ends (platform : Platform) (files : Files) (stdin : String) (c : CheckRequest) :
    ∃ r, c.Ends platform files stdin r := by
  obtain ⟨_ | ⟨name, m⟩, hschema⟩ := exists_schemaStage platform.schema files c
  · exact ⟨_, .schema hschema⟩
  obtain ⟨_ | text, hdata⟩ := exists_dataStage files stdin c
  · exact ⟨_, .data hschema hdata⟩
  have hformat : c.Selects c.dataFormat := selects_iff.2 rfl
  cases hdecode : decodeData platform.data c.dataFormat text with
  | error fault => exact ⟨_, .decoding hschema hdata hformat (decodeStage_iff.2 hdecode)⟩
  | ok data =>
    have hdecoded := decodeStage_iff.2 hdecode
    cases hcheck : m.check (data.upTo m.root.reach) with
    | error fault =>
      exact ⟨_, .matching hschema hdata hformat hdecoded (Matcher.checksTo_iff.2 hcheck)⟩
    | ok report =>
      exact ⟨_, .report hschema hdata hformat hdecoded (Matcher.checksTo_iff.2 hcheck)⟩

/-- **A check ends in the way that is computed**, and in no other. -/
theorem ends_iff {r : Except CheckFault Checked} :
    c.Ends platform files stdin r ↔ c.run platform files stdin = r := by
  refine ⟨Ends.eq, fun h => ?_⟩
  obtain ⟨r', hr'⟩ := exists_ends platform files stdin c
  rwa [← h, hr'.eq]

end TreeSchema.CommandLine.CheckRequest
