import Mathlib.Data.List.Induction
import TreeSchema.Session

/-!
# Isolation of a matcher in use

What a matcher answers depends neither on what it was asked before nor on what its caller does with
the descriptions and reports that the two have exchanged. The reason is that the matcher shares none
of its handles with the caller: `Session.Keeps` says so, together with what the matcher reads at
them, and every step keeps it (`Session.Keeps.step`). Over a whole run, each step is answered as by
a matcher that was never used, and leaves the report of the most recent check
(`Session.run_isolated`).

Descriptions and reports are kept in two stores, and what is handed out is a handle into one of
them. The caller may change whatever is at a handle that it holds. So it would not be enough to say
that the matcher reads the same as before: a step after which the caller holds a handle of the
matcher's changes nothing yet, and the next step may change everything. The invariant therefore
speaks of handles, and it says of the new ones that they are beyond all that are in use (`own_lt`,
`latest_lt`, `given_lt`), which is what makes a copy differ from everything before it.

A check can be refused, and then it leaves the empty report behind: a session empties the report
before it matches. What a step leaves is said for both cases (`Matcher.reportOn`), and for a run it
is that of the last step that checked anything (`Matcher.latest`).
-/

namespace TreeSchema

namespace Matcher

/-- The report that a check of data leaves behind: the empty one, if it fails. -/
def reportOn (m : Matcher) (data : Value) : Report :=
  match m.check data with
  | .ok r => r
  | .error _ => .empty

/-- **The answer to a step**, by the matcher alone. -/
def answer (m : Matcher) (t : Step) : Answer :=
  match t with
  | .holds data | .check data | .validate data =>
    match m.check data with
    | .ok r => t.verdict r
    | .error fault => .refused fault
  | .describe => .description m.description
  | .askEmpty => .flag m.isEmpty
  | .clearReport | .editSource _ _ | .editCopy _ _ | .clearGiven _ => .done

/-- The report of the most recent check among steps, or the empty one when there is none. -/
def latest (m : Matcher) (steps : List Step) : Report :=
  match steps.reverse.findSome? Step.data? with
  | some data => m.reportOn data
  | none => .empty

/-- A step leaves the report of its own check, or else that of the most recent one before it. -/
theorem latest_concat (m : Matcher) (steps : List Step) (t : Step) :
    m.latest (steps ++ [t]) = (t.data?.map m.reportOn).getD (m.latest steps) := by
  rw [latest, List.reverse_append, List.reverse_singleton, List.singleton_append,
    List.findSome?_cons]
  cases t.data? <;> rfl

end Matcher

namespace Session

/-- **What a session keeps**: the matcher finds its description, its schema and the latest report as
they are, and none of its handles is one that the caller holds. -/
structure Keeps (s : Session) (m : Matcher) (r : Report) : Prop where
  read_own : s.descriptions.read s.own = m.description
  root_eq : s.root = m.root
  report_eq : s.report = r
  own_lt : s.own < s.descriptions.next
  latest_lt : s.latest < s.reports.next
  given_lt : ∀ h ∈ s.given, h < s.reports.next
  source_ne : s.source ≠ s.own
  given_ne : ∀ h ∈ s.given, h ≠ s.latest

/-- A new session keeps the matcher that it was started with. -/
theorem keeps_start (m : Matcher) : (start m).Keeps m .empty where
  read_own := rfl
  root_eq := rfl
  report_eq := rfl
  own_lt := Nat.lt_succ_self 1
  latest_lt := Nat.lt_succ_self 0
  given_lt := nofun
  source_ne := nofun
  given_ne := nofun

namespace Keeps

variable {s : Session} {m : Matcher} {r : Report}

/-- The matcher is put together from what the session reads. -/
theorem matcher_eq (h : s.Keeps m r) : s.matcher = m := by
  rw [matcher, h.read_own, h.root_eq]

/-! ## What keeps it

One lemma for each of the operations that a step is made of, whether it hands something out, changes
what was handed out or publishes a report. -/

/-- A new latest report is the matcher's own: what was handed out has been there before it. -/
theorem publish (h : s.Keeps m r) (r' : Report) : (s.publish r').Keeps m r' where
  read_own := h.read_own
  root_eq := h.root_eq
  report_eq := s.reports.read_add_next r'
  own_lt := h.own_lt
  latest_lt := s.reports.next_lt_next_add r'
  given_lt k hk := s.reports.lt_next_add r' (h.given_lt k hk)
  source_ne := h.source_ne
  given_ne k hk := Nat.ne_of_lt (h.given_lt k hk)

/-- A copy of the latest report has another handle than the report itself. -/
theorem handOut (h : s.Keeps m r) : s.handOut.Keeps m r where
  read_own := h.read_own
  root_eq := h.root_eq
  report_eq := by
    show (s.reports.copy s.latest).read s.latest = r
    rw [Store.copy, Store.read_add _ _ h.latest_lt]
    exact h.report_eq
  own_lt := h.own_lt
  latest_lt := s.reports.lt_next_add _ h.latest_lt
  given_lt k hk := by
    obtain hk | hk := List.mem_append.1 hk
    · exact s.reports.lt_next_add _ (h.given_lt k hk)
    · rw [List.mem_singleton.1 hk]
      exact s.reports.next_lt_next_add _
  source_ne := h.source_ne
  given_ne k hk := by
    obtain hk | hk := List.mem_append.1 hk
    · exact h.given_ne k hk
    · rw [List.mem_singleton.1 hk]
      exact (Nat.ne_of_lt h.latest_lt).symm

/-- Another report than the latest one may be emptied. -/
theorem clear (h : s.Keeps m r) {k : Handle} (hne : k ≠ s.latest) : (s.clear k).Keeps m r where
  read_own := h.read_own
  root_eq := h.root_eq
  report_eq := (s.reports.read_write .empty hne).trans h.report_eq
  own_lt := h.own_lt
  latest_lt := by
    show s.latest < (s.reports.write k .empty).next
    rw [Store.next_write]
    exact h.latest_lt
  given_lt j hj := by
    show j < (s.reports.write k .empty).next
    rw [Store.next_write]
    exact h.given_lt j hj
  source_ne := h.source_ne
  given_ne := h.given_ne

/-- None of the reports that were handed out is the latest one itself. -/
theorem clearGiven (h : s.Keeps m r) (n : Nat) : (s.clearGiven n).Keeps m r := by
  unfold Session.clearGiven
  cases hgiven : s.given[n]? with
  | none => exact h
  | some k => exact h.clear (h.given_ne k (List.mem_of_getElem? hgiven))

/-- A copy of the description is beyond all handles in use. -/
theorem handOutDescription (h : s.Keeps m r) : s.handOutDescription.Keeps m r where
  read_own := (Store.read_add _ _ h.own_lt).trans h.read_own
  root_eq := h.root_eq
  report_eq := h.report_eq
  own_lt := s.descriptions.lt_next_add _ h.own_lt
  latest_lt := h.latest_lt
  given_lt := h.given_lt
  source_ne := h.source_ne
  given_ne := h.given_ne

/-- Another description than the matcher's own may be edited. -/
theorem edit (h : s.Keeps m r) {k : Handle} (hne : k ≠ s.own) (key value : Value) :
    (s.edit k key value).Keeps m r where
  read_own := (s.descriptions.read_write _ hne).trans h.read_own
  root_eq := h.root_eq
  report_eq := h.report_eq
  own_lt := by
    show s.own < (s.descriptions.write k _).next
    rw [Store.next_write]
    exact h.own_lt
  latest_lt := h.latest_lt
  given_lt := h.given_lt
  source_ne := h.source_ne
  given_ne := h.given_ne

/-! ## Steps

A step is answered before anything is handed out, so the answer is that of the matcher, and what is
handed out is a copy that reads as the answer does. -/

/-- The copy of a report that is handed out reads as the report does. -/
theorem read_handOut (h : s.Keeps m r) : s.handOut.reports.read s.reports.next = r :=
  (s.reports.read_add_next _).trans h.report_eq

/-- A check is answered by its report, which is the latest one from then on. -/
theorem checking (h : s.Keeps m r) (data : Value) (verdict : Report → Answer) :
    (s.checking data verdict).1
        = (match m.check data with
          | .ok r => verdict r
          | .error fault => .refused fault)
      ∧ (s.checking data verdict).2.Keeps m (m.reportOn data) := by
  have hreset := h.publish .empty
  rw [Session.checking, hreset.matcher_eq, Matcher.reportOn]
  cases m.check data with
  | error fault => exact ⟨rfl, hreset⟩
  | ok r' =>
    have hdone := hreset.publish r'
    exact ⟨congrArg verdict hdone.read_handOut, hdone.handOut⟩

/-- **What a step does**: the matcher answers it as it would at any time, and whatever was kept
before the step is kept after it, with the report of the step's own check if it has one. -/
theorem step (h : s.Keeps m r) (t : Step) :
    (s.step t).1 = m.answer t
      ∧ (s.step t).2.Keeps m ((t.data?.map m.reportOn).getD r) := by
  cases t with
  | holds data => exact h.checking data _
  | check data => exact h.checking data _
  | validate data => exact h.checking data _
  | clearReport => exact ⟨rfl, h.handOut.clear (Nat.ne_of_lt h.latest_lt).symm⟩
  | describe =>
    refine ⟨congrArg Answer.description ?_, h.handOutDescription⟩
    exact (s.descriptions.read_add_next _).trans h.read_own
  | askEmpty => exact ⟨congrArg (fun m : Matcher => Answer.flag m.isEmpty) h.matcher_eq, h⟩
  | editSource key value => exact ⟨rfl, h.edit h.source_ne key value⟩
  | editCopy key value =>
    exact ⟨rfl, h.handOutDescription.edit (Nat.ne_of_lt h.own_lt).symm key value⟩
  | clearGiven n => exact ⟨rfl, h.clearGiven n⟩

end Keeps

/-- A new session answers a step by the matcher alone. -/
theorem answer_start (m : Matcher) (t : Step) : ((start m).step t).1 = m.answer t :=
  ((keeps_start m).step t).1

/-! ## Runs

The invariant is carried along a run from its start, by induction on the steps from their end: the
report of the most recent check changes with the last step. -/

/-- The session after steps. -/
def after (s : Session) (steps : List Step) : Session :=
  steps.foldl (fun s t => (s.step t).2) s

/-- A run goes on from the session that its first steps lead to. -/
theorem run_append (s : Session) (before after : List Step) :
    s.run (before ++ after) = s.run before ++ (s.after before).run after := by
  induction before generalizing s with
  | nil => rfl
  | cons t before ih =>
    show _ :: (s.step t).2.run (before ++ after) = _
    rw [ih]
    rfl

/-- A run has an outcome for each step. -/
theorem length_run (s : Session) (steps : List Step) : (s.run steps).length = steps.length := by
  induction steps generalizing s with
  | nil => rfl
  | cons t steps ih => exact congrArg (· + 1) (ih _)

/-- **What a run keeps**: the matcher as it was, and the report of the most recent check. -/
theorem keeps_after (m : Matcher) (steps : List Step) :
    ((start m).after steps).Keeps m (m.latest steps) := by
  -- The most recent check is looked for from the end, so that is where a step is taken off.
  induction steps using List.reverseRecOn with
  | nil => exact keeps_start m
  | append_singleton steps t ih =>
    rw [after, List.foldl_append, Matcher.latest_concat]
    exact (ih.step t).2

/-- **A matcher in use is isolated** from what it was asked before and from its caller. Whatever
steps come before and after it, a step is answered as by a new session on the matcher, and leaves
the report of the most recent check. A step that checks no data leaves the report as it was, and
one that does leaves its own report and answers by it, or leaves the empty report when the check
fails. -/
theorem run_isolated (m : Matcher) (before : List Step) (t : Step) (after : List Step) :
    ∃ answer report,
      ((start m).run (before ++ t :: after))[before.length]? = some (answer, report) ∧
      answer = ((start m).step t).1 ∧
      report = m.latest (before ++ [t]) ∧
      (t.data? = none → report = m.latest before) ∧
      (∀ data r, t.data? = some data → m.check data = .ok r →
        report = r ∧ answer = t.verdict r) ∧
      ∀ data fault, t.data? = some data → m.check data = .error fault →
        report = .empty ∧ answer = .refused fault := by
  obtain ⟨hanswer, hkeeps⟩ := (keeps_after m before).step t
  refine ⟨m.answer t, (t.data?.map m.reportOn).getD (m.latest before), ?_, ?_, ?_, ?_, ?_, ?_⟩
  · rw [run_append, ← length_run (start m) before, List.getElem?_append_right (Nat.le_refl _),
      Nat.sub_self, ← hanswer, ← hkeeps.report_eq]
    rfl
  · exact (answer_start m t).symm
  · exact (m.latest_concat before t).symm
  · intro hnone
    rw [hnone]
    rfl
  · intro data r hdata hcheck
    rw [hdata]
    refine ⟨?_, ?_⟩
    · show m.reportOn data = r
      rw [Matcher.reportOn, hcheck]
    · cases t <;> cases hdata <;> simp only [Matcher.answer, hcheck]
  · intro data fault hdata hcheck
    rw [hdata]
    refine ⟨?_, ?_⟩
    · show m.reportOn data = .empty
      rw [Matcher.reportOn, hcheck]
    · cases t <;> cases hdata <;> simp only [Matcher.answer, hcheck]

end Session

end TreeSchema
