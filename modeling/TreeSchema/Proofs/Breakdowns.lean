import TreeSchema.Proofs.Loading
import TreeSchema.Proofs.Outcome
import TreeSchema.Proofs.Totality

/-!
# Where a run breaks down

Help, faulty command lines and lists of types never break down, so a run that does is a check. Which
checks do is a short list (`CheckRequest.BreaksDown`): a path without a name or with one that is too
long, a directory in the place of a file, a schema or data that is well-formed but cannot be read or
looked at (`Format.BreaksDown`), and a field whose key is a decimal text beyond the digit limit
(`Visit.StopsFirst`). Every other run ends with an exit code, and every error that is told has the
exit code one (`run_breaks_iff`).

The list says what has to be there for a check to break down, not what the stages of the check come
to. The stages are told apart by relations of their own (`CheckRequest.SchemaStage` and those after
it), which are what `breaksDown_iff` is proved from: in one direction a cause that is listed puts
its stage to an end, in the other each stage that ends in a breakdown is traced to a cause. Where a
stage calls a function of the library, the cause is the one that was proved of that function: for
loading `Matcher.ofText_eq_breakdown_iff`, for matching `Matcher.check_eq_error_iff`.

The causes are ordered as the stages are. Data that cannot be read matters only if the schema was
loaded, so the constructors for data carry the schema that was. For a check that never comes to its
data there is nothing to be said about it, and the data may be anything.

What is left to the platform is how much room there is, and whether an option for the schema can be
without a value, as it can in the earlier dialect only (`Request.schema_ne_none`).
-/

namespace TreeSchema.CommandLine

namespace CheckRequest

/-- **The ways in which a check breaks down.** -/
inductive BreaksDown (platform : Platform) (files : Files) (stdin : String) (c : CheckRequest) :
    Breakdown → Prop
  /-- The option for the schema was given no value. -/
  | noPath (hschema : c.schema = none) : BreaksDown platform files stdin c .noPath
  | schemaTooLong {name : String} (hschema : c.schema = some name)
      (hfind : files.find (.ofText name) = .error .nameTooLong) :
      BreaksDown platform files stdin c (.access (.ofText name) .nameTooLong)
  | schemaDirectory {name : String} {format : Format} (hschema : c.schema = some name)
      (hfind : files.find (.ofText name) = .ok .directory)
      (hsuffix : (Path.ofText name).lowerSuffix ∈ format.suffixes) :
      BreaksDown platform files stdin c (.access (.ofText name) .isDirectory)
  /-- The text of the schema breaks loading down. -/
  | schemaText {name text : String} {bytes : List UInt8} {format : Format} {cause : Breakdown}
      (hschema : c.schema = some name) (hfind : files.find (.ofText name) = .ok (.file bytes))
      (hsuffix : (Path.ofText name).lowerSuffix ∈ format.suffixes)
      (htext : Files.textOfBytes bytes = .ok text)
      (hbreaks : format.BreaksDown platform.schema text cause) :
      BreaksDown platform files stdin c cause
  | dataTooLong {s : String × Matcher} {name : String}
      (hloaded : c.SchemaStage platform.schema files (.ok s)) (hstdin : c.stdin = false)
      (hfile : c.file = some name) (hname : name ≠ "")
      (hfind : files.find (.ofText name) = .error .nameTooLong) :
      BreaksDown platform files stdin c (.access (.ofText name) .nameTooLong)
  | dataDirectory {s : String × Matcher} {name : String}
      (hloaded : c.SchemaStage platform.schema files (.ok s)) (hstdin : c.stdin = false)
      (hfile : c.file = some name) (hname : name ≠ "")
      (hfind : files.find (.ofText name) = .ok .directory) :
      BreaksDown platform files stdin c (.access (.ofText name) .isDirectory)
  /-- The data is well-formed but not read to a document. -/
  | dataText {s : String × Matcher} {text : String} {format : Format} {fault : DecodeFault}
      (hloaded : c.SchemaStage platform.schema files (.ok s))
      (hread : c.DataStage files stdin (.ok text)) (hformat : c.Selects format)
      (hdecode : format.decode platform.data text = .error fault)
      (hfault : fault.isMalformed = false) : BreaksDown platform files stdin c (.decoding fault)
  /-- Matching stops at a key that is too long to be read. -/
  | matching {m : Matcher} {data : Decoded} {key : String}
      (hreaches : c.Reaches platform files stdin m data)
      (hstops : Visit.StopsFirst ⟨m.root, data.upTo m.root.reach, ""⟩ (.text key)) :
      BreaksDown platform files stdin c (.numeral (.tooLongToRead key.toList.length))

variable {platform : Platform} {files : Files} {stdin : String} {c : CheckRequest}
  {cause : Breakdown}

/-- The schema stage breaks down in the ways that are listed. -/
theorem SchemaStage.breaksDown
    (h : c.SchemaStage platform.schema files (.error (.breakdown cause))) :
    c.BreaksDown platform files stdin cause := by
  cases h with
  | noPath hschema => exact .noPath hschema
  | tooLong hschema hfind => exact .schemaTooLong hschema hfind
  -- A file that is not UTF-8 is told of, so it is the text that breaks loading down.
  | @broken name node format _ hschema hfind hsuffix hload =>
    cases node with
    | directory =>
      rw [Matcher.load_path_of_find hfind] at hload
      cases hload
      exact .schemaDirectory hschema hfind hsuffix
    | file bytes =>
      cases htext : Files.textOfBytes bytes with
      | error fault =>
        rw [Matcher.load_path_of_find hfind] at hload
        simp only [htext] at hload
        cases hload
      | ok text =>
        rw [Matcher.load_path_of_text hfind htext, Matcher.ofText_eq_breakdown_iff] at hload
        exact .schemaText hschema hfind hsuffix htext hload

/-- What a check reaches is matched by a schema that was made of a data tree. -/
theorem SchemaStage.exists_ofDocument {stack : Stack} {name : String} {m : Matcher}
    (h : c.SchemaStage stack files (.ok (name, m))) : ∃ v, Matcher.ofDocument v = .ok m := by
  cases h with
  | loaded _ _ _ hload => exact Matcher.exists_ofDocument_of_load hload

/-- **A check breaks down** exactly in the ways that are listed. -/
theorem breaksDown_iff :
    c.BreaksDown platform files stdin cause
      ↔ c.Ends platform files stdin (.error (.breakdown cause)) := by
  constructor
  · intro h
    cases h with
    | noPath hschema => exact .schema (.noPath hschema)
    | schemaTooLong hschema hfind => exact .schema (.tooLong hschema hfind)
    | schemaDirectory hschema hfind hsuffix =>
      exact .schema (.broken hschema hfind hsuffix (Matcher.load_path_of_find hfind _))
    | schemaText hschema hfind hsuffix htext hbreaks =>
      refine .schema (.broken hschema hfind hsuffix ?_)
      rw [Matcher.load_path_of_text hfind htext]
      exact Matcher.ofText_eq_breakdown_iff.2 hbreaks
    | dataTooLong hloaded hstdin hfile hname hfind =>
      exact .data hloaded (.tooLong hstdin hfile hname hfind)
    | dataDirectory hloaded hstdin hfile hname hfind =>
      exact .data hloaded (.directory hstdin hfile hname hfind)
    | dataText hloaded hread hformat hdecode hfault =>
      exact .decoding hloaded hread hformat (.broken hdecode hfault)
    | matching hreaches hstops =>
      obtain ⟨name, text, format, hloaded, hread, hformat, hdecode⟩ := hreaches
      obtain ⟨v, hv⟩ := hloaded.exists_ofDocument
      have hcheck := (Matcher.check_eq_error_iff hv).2 ⟨_, hstops, rfl⟩
      exact .matching hloaded hread hformat (.decoded hdecode) (Matcher.checksTo_iff.2 hcheck)
  · intro h
    cases h with
    | schema hschema => exact hschema.breaksDown
    | data hloaded hdata =>
      cases hdata with
      | tooLong hstdin hfile hname hfind => exact .dataTooLong hloaded hstdin hfile hname hfind
      | directory hstdin hfile hname hfind => exact .dataDirectory hloaded hstdin hfile hname hfind
    | decoding hloaded hread hformat hdecode =>
      cases hdecode with
      | broken hdecode hfault => exact .dataText hloaded hread hformat hdecode hfault
    | matching hloaded hread hformat hdecode hcheck =>
      cases hdecode with
      | decoded hdecode =>
        obtain ⟨v, hv⟩ := hloaded.exists_ofDocument
        obtain ⟨key, hstops, rfl⟩ :=
          (Matcher.check_eq_error_iff hv).1 (Matcher.checksTo_iff.1 hcheck)
        exact .matching ⟨_, _, _, hloaded, hread, hformat, hdecode⟩ hstops

/-- A path that was asked for and not given is one for the schema. -/
theorem BreaksDown.schema_eq_none (h : c.BreaksDown platform files stdin .noPath) :
    c.schema = none := by
  cases h with
  | noPath hschema => exact hschema
  | schemaText _ _ _ _ hbreaks => exact absurd rfl hbreaks.ne_noPath

end CheckRequest

variable {platform : Platform} {files : Files} {stdin : String} {arguments : List String}

/-- A run that is asked for a check breaks down if the check does. -/
theorem run_check_eq_error_iff {verbose : Bool} {c : CheckRequest} {cause : Breakdown}
    (harguments : Request.ofArguments platform.dialect arguments = .ok ⟨verbose, .check c⟩) :
    run platform files stdin arguments = .error cause
      ↔ c.BreaksDown platform files stdin cause := by
  rw [run_of_ofArguments harguments, CheckRequest.breaksDown_iff, CheckRequest.ends_iff]
  cases c.run platform files stdin with
  | ok checked => exact iff_of_false (fun h => by cases h) fun h => by cases h
  | error fault =>
    cases fault with
    | refused reason => exact iff_of_false (fun h => by cases h) fun h => by cases h
    | breakdown cause' =>
      refine ⟨fun h => ?_, fun h => ?_⟩ <;> cases h <;> rfl

/-- A run breaks down if it is asked for a check, and the check does. -/
theorem run_eq_error_iff {cause : Breakdown} :
    run platform files stdin arguments = .error cause
      ↔ ∃ verbose c, Request.ofArguments platform.dialect arguments = .ok ⟨verbose, .check c⟩ ∧
          c.BreaksDown platform files stdin cause := by
  cases harguments : Request.ofArguments platform.dialect arguments with
  | error stop =>
    rw [run, harguments]
    refine iff_of_false (fun h => by cases h) ?_
    rintro ⟨_, _, h, -⟩
    cases h
  | ok request =>
    obtain ⟨verbose, action⟩ := request
    cases action with
    | check c =>
      rw [run_check_eq_error_iff harguments]
      refine ⟨fun h => ⟨_, _, rfl, h⟩, ?_⟩
      rintro ⟨_, _, h, hbreaks⟩
      cases h
      exact hbreaks
    | _ =>
      rw [run, harguments]
      refine iff_of_false (fun h => by cases h) ?_
      rintro ⟨_, _, h, -⟩
      cases h

/-- The exit code of a run that does what it was asked for. -/
theorem exit_of_run_request {request : Request} {output : Output}
    (h : request.run platform files stdin = .ok output) : output.exit = 0 ∨ output.exit = 1 := by
  obtain ⟨verbose, action⟩ := request
  cases action with
  | overview =>
    cases h
    exact .inr rfl
  | types =>
    cases h
    exact .inl rfl
  | check c =>
    unfold Request.run at h
    dsimp only at h
    split at h
    · rename_i checked _
      cases h
      exact (checked.exit_output verbose).imp And.right And.right
    · cases h
      exact .inr rfl
    · cases h

/-- The exit code of a run. -/
theorem exit_of_run {output : Output} (hrun : run platform files stdin arguments = .ok output) :
    (∃ request, Request.ofArguments platform.dialect arguments = .ok request ∧
      (output.exit = 0 ∨ output.exit = 1)) ∨
    (∃ scope, Request.ofArguments platform.dialect arguments = .error (.help scope) ∧
      output.exit = 0) ∨
    ∃ scope fault, Request.ofArguments platform.dialect arguments = .error (.usage scope fault) ∧
      output.exit = 2 := by
  unfold run at hrun
  cases harguments : Request.ofArguments platform.dialect arguments with
  | ok request =>
    rw [harguments] at hrun
    exact .inl ⟨request, rfl, exit_of_run_request hrun⟩
  | error stop =>
    rw [harguments] at hrun
    cases hrun
    cases stop with
    | help scope => exact .inr (.inl ⟨scope, rfl, rfl⟩)
    | usage scope fault => exact .inr (.inr ⟨scope, fault, rfl, rfl⟩)

/-- **A run breaks down** exactly if it is a check that does. Any other run ends: with exit code
zero or one if it does what was asked for, with zero if it was asked for help, and with two if the
command line is faulty. A check with an error that is told has the exit code one and writes the
error, and nothing else. In the later dialect no check lacks the path of a schema. -/
theorem run_breaks_iff (platform : Platform) (files : Files) (stdin : String)
    (arguments : List String) :
    (∀ cause, run platform files stdin arguments = .error cause
      ↔ ∃ verbose c, Request.ofArguments platform.dialect arguments = .ok ⟨verbose, .check c⟩ ∧
          c.BreaksDown platform files stdin cause) ∧
    (∀ output, run platform files stdin arguments = .ok output →
      (∃ request, Request.ofArguments platform.dialect arguments = .ok request ∧
        (output.exit = 0 ∨ output.exit = 1)) ∨
      (∃ scope, Request.ofArguments platform.dialect arguments = .error (.help scope) ∧
        output.exit = 0) ∨
      ∃ scope fault, Request.ofArguments platform.dialect arguments = .error (.usage scope fault) ∧
        output.exit = 2) ∧
    (∀ verbose c reason,
      Request.ofArguments platform.dialect arguments = .ok ⟨verbose, .check c⟩ →
      c.Ends platform files stdin (.error (.refused reason)) →
        run platform files stdin arguments
          = .ok { exit := 1, stdout := "", stderr := "Error: " ++ reason.message ++ "\n" }) ∧
    (platform.dialect = .later → run platform files stdin arguments ≠ .error .noPath) := by
  refine ⟨fun cause => run_eq_error_iff, fun output hrun => exit_of_run hrun,
    fun verbose c reason harguments hends => ?_, fun hlater hrun => ?_⟩
  · rw [run_of_ofArguments harguments, hends.eq]
    rfl
  · obtain ⟨verbose, c, harguments, hbreaks⟩ := run_eq_error_iff.1 hrun
    rw [hlater] at harguments
    exact Request.schema_ne_none harguments hbreaks.schema_eq_none

/-- Where there is no schema, the run says so. -/
theorem run_breaks_absentSchema :
    let files := (FileTable.ofNamed []).files
    let arguments := ["check", "--schema", "s.json", "--stdin"]
    let platform : Platform := ⟨.later, .usual, .usual⟩
    (∃ c, Request.ofArguments platform.dialect arguments = .ok ⟨false, .check c⟩ ∧
      c.Ends platform files "\x7b\x7d" (.error (.refused (.schemaNotFound "s.json")))) ∧
    run platform files "\x7b\x7d" arguments
      = .ok { exit := 1, stdout := "", stderr := "Error: schema file not found: s.json\n" } ∧
    run platform files "\x7b\x7d" arguments ≠ .error .noPath := by
  intro files arguments platform
  have harguments : Request.ofArguments platform.dialect arguments
      = .ok ⟨false, .check ⟨some "s.json", none, true, none⟩⟩ :=
    Request.ofArguments_check_stdin .later (by decide)
  have hfind : files.find (.ofText "s.json") = .error .absent := rfl
  have hends : CheckRequest.Ends platform files "\x7b\x7d" ⟨some "s.json", none, true, none⟩
      (.error (.refused (.schemaNotFound "s.json"))) :=
    .schema (.absent rfl hfind (by decide))
  obtain ⟨-, -, htold, hpath⟩ := run_breaks_iff platform files "\x7b\x7d" arguments
  exact ⟨⟨_, harguments, hends⟩, htold _ _ _ harguments hends, hpath rfl⟩

/-- A directory in the place of the schema is an error that is not told. -/
theorem run_directoryForSchema :
    run ⟨.later, .usual, .usual⟩ (FileTable.ofNamed [("s.json", .directory)]).files "\x7b\x7d"
        ["check", "--schema", "s.json", "--stdin"]
      = .error (.access (.ofText "s.json") .isDirectory) := by
  have hfind : (FileTable.ofNamed [("s.json", .directory)]).files.find (.ofText "s.json")
      = .ok .directory := rfl
  exact (run_check_eq_error_iff (Request.ofArguments_check_stdin .later (by decide))).2
    (.schemaDirectory rfl hfind (show _ ∈ Format.suffixes .json by decide +kernel))

end TreeSchema.CommandLine
