import TreeSchema.CommandLine.Program
import TreeSchema.Files.Table
import TreeSchema.Proofs.Arguments
import TreeSchema.Proofs.JsonRoundTrip
import TreeSchema.Proofs.Loading
import TreeSchema.Proofs.Stages

/-!
# What a check leaves behind

A check that gets as far as matching writes the report of the matcher on the data, and its exit code
is zero when the report is valid. Any other check that ends writes the error of its first stage that
has no result, and nothing else (`run_check_agrees`).

What the program does and what the library says are two things, and the statement puts them side by
side. On the one side is a run, from the arguments to the output. On the other side is what a caller
of the library would have got: the schema loaded from the file, the text read from where the
arguments point to, decoded in the format that they select, and the report of the matcher on it
(`CheckRequest.Reaches`, `Matcher.ChecksTo`). The texts that are written are put together from the
report and from nothing else, so that a valid report and an exit code of zero cannot come apart.

The data of a check may be a document that is a part of itself. Then there is no data tree to speak
of, and the report is that of the data looked at as far as the schema reaches or further. All the
same the check ends, and the statement covers it.

A run can be asked to tell of itself in detail. What it tells goes to the same stream as errors do,
in front of them, and everything else stays (`exists_run_cons_verbose`). This is said of all
arguments and not only of checks, and of runs that break down as well.

Nothing is said of runs that break down, as they have no output; which runs these are is the matter
of another module.
-/

namespace TreeSchema.CommandLine

/-! ## Details

A line of detail is recognized by its form. A check tells when it begins, and then with how many
keys matching begins and with how many paths it ends. -/

/-- A line that a run tells of itself: who tells it, and what. -/
def IsDetail (line : String) : Prop :=
  ∃ teller message, line = teller ++ " - DEBUG - " ++ message

/-- Whatever follows in a line that a run tells of itself is a part of what is told. -/
theorem IsDetail.append {line : String} (h : IsDetail line) (rest : String) :
    IsDetail (line ++ rest) := by
  obtain ⟨teller, message, rfl⟩ := h
  exact ⟨teller, message ++ rest, String.append_assoc ..⟩

/-- All that a check tells of itself has this form. -/
theorem isDetail_of_mem_details {checked : Checked} {line : String} (h : line ∈ details checked) :
    IsDetail line := by
  unfold details at h
  obtain h | h := List.mem_append.1 h
  · rw [List.mem_singleton.1 h]
    have hcli : IsDetail "schema_matcher.cli - DEBUG - checking " :=
      ⟨"schema_matcher.cli", "checking ", rfl⟩
    exact ((hcli.append _).append _).append _
  · split at h
    · cases h
    obtain rfl | h := List.mem_cons.1 h
    · have hstart : IsDetail
          "schema_matcher.matcher - DEBUG - matching data against schema with " :=
        ⟨"schema_matcher.matcher", "matching data against schema with ", rfl⟩
      exact (hstart.append _).append _
    · rw [List.mem_singleton.1 h]
      have hfinish : IsDetail "schema_matcher.matcher - DEBUG - match finished with " :=
        ⟨"schema_matcher.matcher", "match finished with ", rfl⟩
      exact (hfinish.append _).append _

/-- What a run leaves behind when it tells of itself too. -/
def Output.withDetails (lines : List String) (output : Output) : Output :=
  { output with stderr := textOfLines lines ++ output.stderr }

/-- Nothing is told. -/
theorem Output.withDetails_nil (output : Output) : output.withDetails [] = output := by
  rw [withDetails, textOfLines, List.map_nil, String.join_nil, String.empty_append]

/-- **A run that is told in detail** does what it does without, and tells of itself besides. -/
theorem Request.run_detailed (platform : Platform) (files : Files) (stdin : String)
    (r : Request) : ∃ lines, (∀ line ∈ lines, IsDetail line) ∧
      r.detailed.run platform files stdin
        = (r.run platform files stdin).map (Output.withDetails lines) := by
  have hnone : ∀ output : Output,
      Except.ok output = (Except.ok output : Except Breakdown Output).map (Output.withDetails []) :=
    fun output => congrArg Except.ok output.withDetails_nil.symm
  have hempty : ∀ line ∈ ([] : List String), IsDetail line :=
    fun line h => absurd h List.not_mem_nil
  obtain ⟨verbose, action⟩ := r
  cases action with
  | overview => exact ⟨[], hempty, hnone _⟩
  | types => exact ⟨[], hempty, hnone _⟩
  | check c =>
    unfold run detailed
    dsimp only
    cases c.run platform files stdin with
    | error fault =>
      cases fault with
      | refused reason => exact ⟨[], hempty, hnone _⟩
      | breakdown cause => exact ⟨[], hempty, rfl⟩
    | ok checked =>
      cases verbose with
      | true => exact ⟨[], hempty, hnone _⟩
      | false =>
        refine ⟨details checked, fun line => isDetail_of_mem_details, congrArg Except.ok ?_⟩
        change (⟨_, _, textOfLines (details checked)⟩ : Output)
          = ⟨_, _, textOfLines (details checked) ++ ""⟩
        rw [String.append_empty]
        rfl

/-- **To ask for details in front** of any arguments leaves what the run does as it is. -/
theorem exists_run_cons_verbose (platform : Platform) (files : Files) (stdin : String)
    {flag : String} (hflag : flag ∈ Switch.verbose.names) (arguments : List String) :
    ∃ lines, (∀ line ∈ lines, IsDetail line) ∧
      run platform files stdin (flag :: arguments)
        = (run platform files stdin arguments).map (Output.withDetails lines) := by
  unfold run
  rw [Request.ofArguments_cons_verbose platform.dialect hflag]
  cases Request.ofArguments platform.dialect arguments with
  | error stop =>
    refine ⟨[], fun line h => absurd h List.not_mem_nil, ?_⟩
    exact congrArg Except.ok stop.output.withDetails_nil.symm
  | ok request => exact request.run_detailed platform files stdin

/-! ## Checks

The stages of a check have one outcome each, so from what a run has come to, the stages that it went
through can be read off, and the other way round. -/

variable {platform : Platform} {files : Files} {stdin : String} {c : CheckRequest}

namespace CheckRequest

/-- What a check reaches is what its stages give. -/
theorem Reaches.run_eq {m : Matcher} {data : Decoded} (h : c.Reaches platform files stdin m data) :
    ∃ name format, c.run platform files stdin =
      match m.check (data.upTo m.root.reach) with
      | .error fault => .error (.breakdown (.numeral fault))
      | .ok report => .ok ⟨m, name, format, data, report⟩ := by
  obtain ⟨name, text, format, hschema, hdata, hformat, hdecode⟩ := h
  have hrun := run_of_dataStage hschema hdata hformat
  rw [decodeStage_iff.1 (.decoded hdecode)] at hrun
  exact ⟨name, format, hrun⟩

/-- A check that came to a report got as far as matching. -/
theorem reaches_of_run {checked : Checked} (h : c.run platform files stdin = .ok checked) :
    c.Reaches platform files stdin checked.matcher checked.data ∧
      checked.matcher.ChecksTo checked.data (.ok checked.report) := by
  cases ends_iff.2 h with
  | report hschema hdata hformat hdecode hcheck =>
    cases hdecode with
    | decoded hdecode => exact ⟨⟨_, _, _, hschema, hdata, hformat, hdecode⟩, hcheck⟩

end CheckRequest

/-- The exit code of a check that came to a report says whether the report is valid. -/
theorem Checked.exit_output (checked : Checked) (verbose : Bool) :
    checked.report.isValid = true ∧ (checked.output verbose).exit = 0 ∨
      checked.report.isValid = false ∧ (checked.output verbose).exit = 1 := by
  unfold output
  cases checked.report.isValid with
  | true => exact .inl ⟨rfl, rfl⟩
  | false => exact .inr ⟨rfl, rfl⟩

/-- What a run leaves behind that is asked for a check. -/
theorem run_of_ofArguments {verbose : Bool} {arguments : List String}
    (h : Request.ofArguments platform.dialect arguments = .ok ⟨verbose, .check c⟩) :
    run platform files stdin arguments =
      match c.run platform files stdin with
      | .ok checked => .ok (checked.output verbose)
      | .error (.refused reason) => .ok reason.output
      | .error (.breakdown cause) => .error cause := by
  rw [run, h]
  rfl

/-- **A check leaves behind what the library says.** A check that ends and gets as far as matching
writes the report of the matcher on the data, and its exit code says whether it is valid; any other
check that ends writes the error of its first stage without a result. So the exit code is zero with
a valid report only. To ask for details in front of any arguments leaves what the run does as it is,
whatever it does. All this holds on every platform. -/
theorem run_check_agrees (platform : Platform) (files : Files) (stdin : String)
    (arguments : List String) :
    (∀ verbose c output,
      Request.ofArguments platform.dialect arguments = .ok ⟨verbose, .check c⟩ →
      run platform files stdin arguments = .ok output →
        (∀ m data, c.Reaches platform files stdin m data → ∃ report,
          m.ChecksTo data (.ok report) ∧
          output.stdout = Json.encode (.spaces 2)
            (.object [("valid", .bool report.isValid), ("errors", .ofReport report)]) ++ "\n" ∧
          (output.exit = if report.isValid then 0 else 1)) ∧
        ((¬∃ m data, c.Reaches platform files stdin m data) → ∃ reason,
          c.Ends platform files stdin (.error (.refused reason)) ∧
          output.exit = 1 ∧ output.stdout = "" ∧
          output.stderr = "Error: " ++ reason.message ++ "\n") ∧
        (output.exit = 0 → ∃ m data report, c.Reaches platform files stdin m data ∧
          m.ChecksTo data (.ok report) ∧ report.isValid = true)) ∧
    ∀ flag ∈ ["--verbose", "-v"], ∃ lines, (∀ line ∈ lines, IsDetail line) ∧
      run platform files stdin (flag :: arguments)
        = (run platform files stdin arguments).map (Output.withDetails lines) := by
  refine ⟨fun verbose c output harguments hrun => ?_, fun flag hflag =>
    exists_run_cons_verbose platform files stdin hflag arguments⟩
  rw [run_of_ofArguments harguments] at hrun
  cases hcheck : c.run platform files stdin with
  | ok checked =>
    rw [hcheck] at hrun
    cases hrun
    obtain ⟨hreaches, hreport⟩ := CheckRequest.reaches_of_run hcheck
    refine ⟨fun m data h => ?_, fun h => absurd ⟨_, _, hreaches⟩ h, fun hexit => ?_⟩
    -- The stages have one outcome each, so what was reached is what the output was made of.
    · obtain ⟨name, format, hrun⟩ := h.run_eq
      rw [hcheck] at hrun
      cases hm : m.check (data.upTo m.root.reach) with
      | error fault =>
        rw [hm] at hrun
        cases hrun
      | ok report =>
        rw [hm] at hrun
        cases hrun
        exact ⟨report, Matcher.checksTo_iff.2 hm, rfl, rfl⟩
    · refine ⟨_, _, _, hreaches, hreport, ?_⟩
      obtain ⟨hvalid, -⟩ | ⟨-, hone⟩ := checked.exit_output verbose
      · exact hvalid
      · rw [hone] at hexit
        cases hexit
  | error fault =>
    rw [hcheck] at hrun
    cases fault with
    | breakdown cause => cases hrun
    | refused reason =>
      cases hrun
      refine ⟨fun m data h => ?_, fun _ =>
        ⟨reason, CheckRequest.ends_iff.2 hcheck, rfl, rfl, rfl⟩, fun hexit => ?_⟩
      · obtain ⟨name, format, hrun⟩ := h.run_eq
        rw [hcheck] at hrun
        split at hrun <;> cases hrun
      · cases hexit

/-- A text for an integer, from the standard input: the report says so, and the exit code is one. -/
theorem run_check_agrees_textForInteger :
    let schema := "\x7b\"id\": \"integer\"\x7d"
    let files := (FileTable.ofNamed [("s.json", .file schema.toUTF8.data.toList)]).files
    let stdin := "\x7b\"id\": \"x\"\x7d"
    let arguments := ["check", "--schema", "s.json", "--stdin"]
    let platform : Platform := ⟨.later, .usual, .usual⟩
    ∃ c m data report output,
      Request.ofArguments platform.dialect arguments = .ok ⟨false, .check c⟩ ∧
      run platform files stdin arguments = .ok output ∧ c.Reaches platform files stdin m data ∧
      m.ChecksTo data (.ok report) ∧ report.isValid = false ∧ output.exit = 1 ∧
      output.stdout = Json.encode (.spaces 2)
        (.object [("valid", .bool false), ("errors", .ofReport report)]) ++ "\n" := by
  intro schema files stdin arguments platform
  let c : CheckRequest := ⟨some "s.json", none, true, none⟩
  have harguments : Request.ofArguments platform.dialect arguments = .ok ⟨false, .check c⟩ :=
    Request.ofArguments_check_stdin .later (by decide)
  have hfind : files.find (.ofText "s.json") = .ok (.file schema.toUTF8.data.toList) := rfl
  have htext : Files.textOfBytes schema.toUTF8.data.toList = .ok schema := by
    decide +kernel
  have hdocument : Format.json.decode .usual schema
      = .ok (.tree (.mapping [(.text "id", .text "integer")])) := by
    let j : Json := .object [("id", .text "integer")]
    have hschema : schema = Json.encode .oneLine j := rfl
    have hj : j.HasNoNumber := ⟨trivial, trivial⟩
    rw [hschema, Format.decode_json_encode .oneLine hj (by decide)]
    rfl
  let data : Value := .mapping [(.text "id", .text "x")]
  obtain ⟨m, hm, report, hreport, hinvalid⟩ :
      ∃ m, Matcher.ofDecoded .usual (.tree (.mapping [(.text "id", .text "integer")])) = .ok m ∧
        ∃ report, m.check data = .ok report ∧ report.isValid = false :=
    ⟨_, rfl, _, rfl, rfl⟩
  have hload : Matcher.load .usual files .json (.path (.ofText "s.json")) = .ok m := by
    rw [Matcher.load_path_of_text hfind htext, Matcher.ofText, hdocument]
    exact hm
  have hdata : Format.json.decode .usual stdin = .ok (.tree data) := by
    let j : Json := .object [("id", .text "x")]
    have hstdin : stdin = Json.encode .oneLine j := rfl
    have hj : j.HasNoNumber := ⟨trivial, trivial⟩
    rw [hstdin, Format.decode_json_encode .oneLine hj (by decide)]
    rfl
  have hreaches : c.Reaches platform files stdin m (.tree data) :=
    ⟨_, _, _, .loaded rfl hfind (by decide +kernel) hload, .stdin rfl,
      .other rfl (fun _ h => absurd h (by simp [c])), hdata⟩
  have hchecks : m.ChecksTo (.tree data) (.ok report) := Matcher.checksTo_tree.2 hreport
  -- The texts are short enough to be read by the general theorems on texts without numbers; what is
  -- left to compute is the check itself.
  obtain ⟨output, hrun⟩ : ∃ output, run platform files stdin arguments = .ok output := by
    obtain ⟨name, format, hrun⟩ := hreaches.run_eq
    rw [Matcher.checksTo_iff.1 hchecks] at hrun
    exact ⟨_, by rw [run_of_ofArguments harguments, hrun]⟩
  obtain ⟨hagrees, -, -⟩ :=
    (run_check_agrees platform files stdin arguments).1 _ _ _ harguments hrun
  obtain ⟨told, htold, hstdout, hexit⟩ := hagrees m _ hreaches
  cases (Matcher.checksTo_iff.1 hchecks).symm.trans (Matcher.checksTo_iff.1 htold)
  rw [hinvalid] at hstdout hexit
  exact ⟨c, m, _, report, output, harguments, hrun, hreaches, hchecks, hinvalid, hexit, hstdout⟩

end TreeSchema.CommandLine
