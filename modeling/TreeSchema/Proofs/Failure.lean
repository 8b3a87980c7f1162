import Mathlib.Data.List.Nodup
import TreeSchema.Proofs.Export
import TreeSchema.Proofs.Isolation

/-!
# Failed matches

To validate data is to check it, and to fail when the report disagrees anywhere. The failure carries
the report of the check, and tells it a second time as plain lines: one for each path and each kind
at it, `path: KIND`.

A path may be any text, a line of a failure included. What makes the lines faithful all the same is
that no name of a kind has a colon in it. So it is the last colon of a line that ends its path, and
the line can be taken apart there (`Report.ofLine?`). Hence different paths and kinds have different
lines, and the lines of a report give back its paths and kinds (`Matcher.validate_tells`).

The lines leave the messages out and keep everything else. In particular a failure is never without
lines: a report that is not valid has a row, and each of its rows has a kind. A path without kinds
would have no line, and could not be read off the lines; reports of findings have no such path, but
what is said of the lines holds of any report.

A failure leaves the session as a check does. The report is the latest one before the failure is
raised, so whoever catches it finds the same report by asking the matcher.
-/

namespace TreeSchema

namespace Report

/-! ## Lines

A line is taken apart from its end, where the name of a kind stands that is one of a few. -/

/-- **The paths and kinds of a report**, in order, without the messages. -/
def pairs (r : Report) : List (String × ErrorKind) :=
  r.rows.flatMap fun (path, kinds) => kinds.map fun (kind, _) => (path, kind)

/-- The line of a path and a kind. -/
def line (pair : String × ErrorKind) : String := pair.1 ++ ": " ++ pair.2.name

/-- **Takes a line apart**: the kind has its name after the last colon and a space, and the path is
what stands before the colon. -/
def ofLine? (line : String) : Option (String × ErrorKind) :=
  let cs := line.toList
  let back := (cs.reverse.takeWhile (· ≠ ':')).reverse
  (ErrorKind.ofName? (String.ofList (back.drop 1))).map fun kind =>
    (String.ofList (cs.take (cs.length - back.length - 1)), kind)

/-- The name of a kind has no colon in it. -/
theorem colon_not_mem_name (kind : ErrorKind) : ':' ∉ kind.name.toList := by
  cases kind <;> decide

/-- What follows the last colon of a line. -/
theorem takeWhile_line (pair : String × ErrorKind) :
    ((line pair).toList.reverse.takeWhile (· ≠ ':')).reverse = ' ' :: pair.2.name.toList := by
  obtain ⟨path, kind⟩ := pair
  have hline : (line (path, kind)).toList.reverse
      = (kind.name.toList.reverse ++ [' ']) ++ ':' :: path.toList.reverse := by
    simp [line]
  have hpass : ∀ c ∈ kind.name.toList.reverse ++ [' '], decide (c ≠ ':') = true := by
    intro c hc
    refine decide_eq_true fun hcolon => ?_
    rw [hcolon, List.mem_append, List.mem_reverse] at hc
    exact hc.elim (colon_not_mem_name kind) (by decide)
  rw [hline, List.takeWhile_append_of_pos hpass, List.takeWhile_cons_of_neg (by decide)]
  simp

/-- **A line gives its path and its kind back**, whatever characters the path has. -/
theorem ofLine?_line (pair : String × ErrorKind) : ofLine? (line pair) = some pair := by
  obtain ⟨path, kind⟩ := pair
  have hchars : (line (path, kind)).toList = path.toList ++ ':' :: ' ' :: kind.name.toList := by
    simp [line]
  have hpath : (line (path, kind)).toList.take
      ((line (path, kind)).toList.length - (' ' :: kind.name.toList).length - 1) = path.toList := by
    rw [hchars, List.length_append, List.length_cons, Nat.sub_sub, Nat.add_sub_cancel,
      List.take_left]
  unfold ofLine?
  dsimp only
  rw [takeWhile_line, hpath, List.drop_one, List.tail_cons, String.ofList_toList,
    String.ofList_toList, ErrorKind.ofName?_name]
  rfl

/-- Different paths and kinds have different lines. -/
theorem line_injective : Function.Injective line := by
  intro pair pair' h
  have hback := congrArg ofLine? h
  rw [ofLine?_line, ofLine?_line] at hback
  exact Option.some.inj hback

variable {r : Report}

/-- A report has a line for each of its paths and kinds, in order. -/
theorem lines_eq_map (r : Report) : r.lines = r.pairs.map line := by
  rw [lines, pairs, List.map_flatMap]
  simp only [List.map_map]
  rfl

/-- The paths and kinds of a report are those that it tells of. -/
theorem mem_pairs_iff {path : String} {kind : ErrorKind} :
    (path, kind) ∈ r.pairs ↔ ∃ message, r.Tells path kind message := by
  rw [pairs, List.mem_flatMap]
  constructor
  · rintro ⟨⟨_, kinds⟩, hrow, hpair⟩
    obtain ⟨⟨_, message⟩, hkind, ⟨⟩⟩ := List.mem_map.1 hpair
    exact ⟨message, kinds, hrow, hkind⟩
  · rintro ⟨message, kinds, hrow, hkind⟩
    exact ⟨(path, kinds), hrow, List.mem_map.2 ⟨(kind, message), hkind, rfl⟩⟩

/-- No path and kind come twice together, if no path comes twice and no kind at one path. -/
theorem nodup_pairs (distinct : r.HasDistinctKeys) : r.pairs.Nodup := by
  rw [pairs, List.nodup_flatMap]
  refine ⟨fun row hrow => ?_, ?_⟩
  · refine List.Nodup.of_map Prod.snd ?_
    rw [List.map_map]
    exact distinct.kinds row hrow
  · refine (List.pairwise_map.1 distinct.paths).imp fun {row row'} hne pair hmem hmem' => ?_
    obtain ⟨_, -, rfl⟩ := List.mem_map.1 hmem
    obtain ⟨_, -, hpair⟩ := List.mem_map.1 hmem'
    exact hne (congrArg Prod.fst hpair).symm

end Report

/-! ## Validation

What a step of validating leaves and answers is known from the step; here it is put together with
what is known of the report. -/

namespace Matcher

/-- **The report of a check** has every path once, and every kind at a path once. -/
theorem exists_check_eq {description : Value} {m : Matcher}
    (built : ofDescription description = .ok m) (short : description.HasShortNumerals)
    (data : Value) : ∃ r, m.check data = .ok r ∧ r.HasDistinctKeys := by
  refine ⟨_, check_eq_of_ofDescription built short data, ?_⟩
  split
  · exact Report.hasDistinctKeys_ofFindings []
  · exact Report.hasDistinctKeys_ofFindings _

/-- What validating data is answered by the report on it. -/
theorem answer_validate {m : Matcher} {data : Value} {r : Report} (h : m.check data = .ok r) :
    m.answer (.validate data)
      = if r.isValid then .done
        else .failed ⟨"Schema match failed: " ++ ", ".intercalate r.paths, r⟩ := by
  simp only [answer, h, Step.verdict, failure?]
  cases r.isValid <;> rfl

/-- **To validate data is to check it**, and to fail with the report of the check if that
disagrees anywhere; in either case the report is the latest one afterwards, whatever steps
came before. The lines of a failure, be it one of these or made of any other report, are one
for each path and kind of its report, in order. They are pairwise different, and the paths and
kinds can be read off them. -/
theorem validate_tells {description : Value} {m : Matcher}
    (built : ofDescription description = .ok m) (short : description.HasShortNumerals) :
    (∀ (before : List Step) (data : Value), ∃ r,
      let s := (Session.start m).after before
      (s.step (.check data)).1 = .checked r ∧ r.HasDistinctKeys ∧
      ((∃ f, (s.step (.validate data)).1 = .failed f) ↔ r.isValid = false) ∧
      ((s.step (.validate data)).1 = .done ↔ r.isValid = true) ∧
      (∀ f, (s.step (.validate data)).1 = .failed f →
        f.report = r ∧ f.message = "Schema match failed: " ++ ", ".intercalate r.paths) ∧
      (s.step (.validate data)).2.report = r) ∧
    ∀ f : MatchFailure, f.report.HasDistinctKeys →
      (∀ path kind, (path, kind) ∈ f.report.pairs ↔ ∃ text, f.report.Tells path kind text) ∧
      f.report.pairs.Nodup ∧
      f.violations = f.report.pairs.map (fun pair => pair.1 ++ ": " ++ pair.2.name) ∧
      f.violations.Nodup ∧
      f.violations.mapM Report.ofLine? = some f.report.pairs := by
  refine ⟨fun before data => ?_, fun f distinct => ?_⟩
  · obtain ⟨r, hr, distinct⟩ := exists_check_eq built short data
    -- What was checked before does not matter: the invariant of sessions gives the answers from the
    -- matcher alone.
    have hkeeps := Session.keeps_after m before
    obtain ⟨hcheck, -⟩ := hkeeps.step (.check data)
    obtain ⟨hvalidate, hafter⟩ := hkeeps.step (.validate data)
    have hchecked : m.answer (.check data) = .checked r := by
      simp only [answer, hr]
      rfl
    have hreport : m.reportOn data = r := by rw [reportOn, hr]
    rw [answer_validate hr] at hvalidate
    refine ⟨r, hcheck.trans hchecked, distinct, ?_, ?_, ?_, hafter.report_eq.trans hreport⟩
    all_goals
      rw [hvalidate]
      cases hvalid : r.isValid
    · exact iff_of_true ⟨_, rfl⟩ rfl
    · exact iff_of_false (by rintro ⟨_, ⟨⟩⟩) (fun h => by cases h)
    · exact iff_of_false (fun h => by cases h) (fun h => by cases h)
    · exact iff_of_true rfl rfl
    · rintro _ ⟨⟩
      exact ⟨rfl, rfl⟩
    · rintro _ ⟨⟩
  · have hlines : f.violations = f.report.pairs.map Report.line := f.report.lines_eq_map
    refine ⟨fun path kind => Report.mem_pairs_iff, Report.nodup_pairs distinct, hlines, ?_, ?_⟩
    · rw [hlines]
      exact (Report.nodup_pairs distinct).map Report.line_injective
    · rw [hlines]
      exact Report.mapM_map_eq_some Report.ofLine?_line _

/-- The report of a failure whose paths look like lines. -/
def misleading : Report :=
  ⟨[("a: KEY_NOT_FOUND", [(.typeMismatch, "x")]), ("a", [(.keyNotFound, "y"), (.typeMismatch, "")]),
    (": ", [])]⟩

/-- A text for an integer fails after a check of other data, and the lines of misleading paths are
told apart. -/
theorem validate_tells_misleading :
    let description : Value := .mapping [(.text "id", .text "integer")]
    description.HasShortNumerals ∧ misleading.HasDistinctKeys ∧
    ∃ m, ofDescription description = .ok m ∧
      (∃ f, (((Session.start m).after [.check .null]).step
        (.validate (.mapping [(.text "id", .text "7")]))).1 = .failed f ∧
        f.message = "Schema match failed: id") ∧
      (⟨"no match", misleading⟩ : MatchFailure).violations.mapM Report.ofLine?
        = some [("a: KEY_NOT_FOUND", .typeMismatch), ("a", .keyNotFound),
            ("a", .typeMismatch)] := by
  intro description
  have short : description.HasShortNumerals := by
    simp only [description, Value.HasShortNumerals, Value.AllKeys, List.forall_mem_singleton]
    exact ⟨Value.isShortKey_text rfl, trivial⟩
  have distinct : misleading.HasDistinctKeys := ⟨by decide, by decide⟩
  obtain ⟨m, built⟩ : ∃ m, ofDescription description = .ok m := ⟨_, rfl⟩
  obtain ⟨hsteps, hlines⟩ := validate_tells built short
  refine ⟨short, distinct, m, built, ?_, (hlines ⟨"no match", misleading⟩ distinct).2.2.2.2⟩
  obtain ⟨r, hcheck, -, hfails, -, hfailure, -⟩ :=
    hsteps [.check .null] (.mapping [(.text "id", .text "7")])
  cases built
  cases hcheck
  obtain ⟨f, hf⟩ := hfails.2 rfl
  exact ⟨f, hf, (hfailure f hf).2⟩

end Matcher

end TreeSchema
