import TreeSchema.Matcher
import TreeSchema.Store

/-!
# Sessions

A session is a matcher in use, together with its caller. The two keep descriptions and reports in
stores, and a handle says who holds what: the matcher holds its own description and the report of
the latest check, the caller holds the description that the matcher was made of and the reports that
were handed out to it, and may change all of these. Every step gives an answer and the session after
it (`Session.step`); a check that fails leaves the empty report behind.

The stores are there to make sharing visible. If a matcher handed out the handle of its own report,
or kept the description that it was given, a caller could change what the matcher says later. With
values in the place of handles no such thing could be expressed, and that checks do not depend on
each other would be true by the choice of the model. So the steps include everything that a caller
may do to what it holds: assign into a description, its own or one that it asked for, and empty a
report.

The schema of a matcher is read once, when the matcher is made, and never changes, so it is no part
of a store.
-/

namespace TreeSchema

/-- What a caller can do with a matcher. -/
inductive Step where
  /-- Ask whether data matches. -/
  | holds (data : Value)
  /-- Ask for the report on data. -/
  | check (data : Value)
  /-- Ask for a failure when data does not match. -/
  | validate (data : Value)
  /-- Ask for the latest report and empty it. -/
  | clearReport
  /-- Ask for the description. -/
  | describe
  /-- Ask whether the description is empty. -/
  | askEmpty
  /-- Assign into the description that the matcher was made of. -/
  | editSource (key value : Value)
  /-- Ask for the description and assign into it. -/
  | editCopy (key value : Value)
  /-- Empty one of the reports that were handed out before. -/
  | clearGiven (n : Nat)

/-- What a step gives back. -/
inductive Answer where
  | flag (b : Bool)
  | checked (r : Report)
  | description (entries : List (Value × Value))
  | done
  | failed (failure : MatchFailure)
  | refused (fault : NumeralFault)

namespace Step

/-- The data that a step has checked, if it has any checked. -/
def data? : Step → Option Value
  | holds data | check data | validate data => some data
  | _ => none

/-- The answer to a step that has data checked, by the report on the data. -/
def verdict (r : Report) : Step → Answer
  | holds _ => .flag r.isValid
  | check _ => .checked r
  | validate _ =>
    match Matcher.failure? r with
    | some f => .failed f
    | none => .done
  | _ => .done

end Step

instance : Inhabited Report := ⟨.empty⟩

/-- A matcher in use, and what its caller holds. -/
structure Session where
  descriptions : Store (List (Value × Value))
  reports : Store Report
  /-- The description that the caller made the matcher of. -/
  source : Handle
  /-- The matcher's own description. -/
  own : Handle
  root : Schema
  /-- The report of the latest check, as the matcher holds it. -/
  latest : Handle
  /-- The reports that were handed out. -/
  given : List Handle

namespace Session

/-- A new session on a matcher. The matcher has a copy of its caller's description. -/
def start (m : Matcher) : Session :=
  let descriptions := Store.add ⟨#[]⟩ m.description
  { descriptions := descriptions.copy 0
    reports := Store.add ⟨#[]⟩ .empty
    source := 0
    own := descriptions.next
    root := m.root
    latest := 0
    given := [] }

/-- The matcher of a session. -/
def matcher (s : Session) : Matcher := ⟨s.descriptions.read s.own, s.root⟩

/-- The report of the latest check. -/
def report (s : Session) : Report := s.reports.read s.latest

/-- Replaces the latest report by a new one. -/
def publish (s : Session) (r : Report) : Session :=
  { s with reports := s.reports.add r, latest := s.reports.next }

/-- Hands out a copy of the latest report. -/
def handOut (s : Session) : Session :=
  { s with reports := s.reports.copy s.latest, given := s.given ++ [s.reports.next] }

/-- Empties a report. -/
def clear (s : Session) (h : Handle) : Session :=
  { s with reports := s.reports.write h .empty }

/-- Hands out a copy of the matcher's description. -/
def handOutDescription (s : Session) : Session :=
  { s with descriptions := s.descriptions.copy s.own }

/-- Assigns into a description. -/
def edit (s : Session) (h : Handle) (key value : Value) : Session :=
  { s with descriptions := s.descriptions.write h (Value.assign (s.descriptions.read h) key value) }

/-- Empties a report that was handed out, if there are so many. -/
def clearGiven (s : Session) (n : Nat) : Session :=
  match s.given[n]? with
  | some h => s.clear h
  | none => s

/-- Ends a check. If it gives a report, this is the latest one, and the caller is answered by a copy
of it. -/
def conclude (s : Session) (verdict : Report → Answer) :
    Except NumeralFault Report → Answer × Session
  | .ok r =>
    let done := s.publish r
    (verdict (done.handOut.reports.read done.reports.next), done.handOut)
  | .error fault => (.refused fault, s)

/-- Checks data. The latest report is emptied before. -/
def checking (s : Session) (data : Value) (verdict : Report → Answer) : Answer × Session :=
  let reset := s.publish .empty
  reset.conclude verdict (reset.matcher.check data)

/-- The answer to a step and the session after it. -/
def step (s : Session) (t : Step) : Answer × Session :=
  match t with
  | .holds data | .check data | .validate data => s.checking data t.verdict
  | .clearReport => (.done, s.handOut.clear s.reports.next)
  | .describe =>
    (.description (s.handOutDescription.descriptions.read s.descriptions.next),
      s.handOutDescription)
  | .askEmpty => (.flag s.matcher.isEmpty, s)
  | .editSource key value => (.done, s.edit s.source key value)
  | .editCopy key value => (.done, s.handOutDescription.edit s.descriptions.next key value)
  | .clearGiven n => (.done, s.clearGiven n)

/-- The answers to steps, each with the report after it. -/
def run (s : Session) : List Step → List (Answer × Report)
  | [] => []
  | t :: ts =>
    let (answer, after) := s.step t
    (answer, after.report) :: after.run ts

end Session

end TreeSchema
