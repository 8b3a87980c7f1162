import TreeSchema.Matching
import TreeSchema.Schema.Reading

/-!
# Matchers

A matcher is a description together with the schema it was read to. The empty description matches
anything. `Matcher.check` gives the report on a data tree. What else can be asked of a matcher is
read off the report, and is the matter of sessions.
-/

namespace TreeSchema

/-- Why a description makes no matcher. -/
inductive DescriptionFault where
  /-- The description is no mapping but a value of another class. -/
  | notMapping (className : String)
  /-- The description holds an integer that has no text. -/
  | numeral (fault : NumeralFault)
  deriving DecidableEq

/-- The wording of a description that makes no matcher. -/
def DescriptionFault.message : DescriptionFault → String
  | notMapping className => s!"schema must be a mapping, got {className}"
  | numeral fault => fault.message

/-- A description and the schema that it describes. -/
structure Matcher where
  description : List (Value × Value)
  root : Schema

/-- A failed match: a message and the report that led to it. -/
structure MatchFailure where
  message : String
  report : Report := .empty
  deriving DecidableEq

/-- The disagreements of a failure, each as one line. -/
def MatchFailure.violations (f : MatchFailure) : List String := f.report.lines

namespace Matcher

/-- The matcher of a mapping. -/
def ofEntries (entries : List (Value × Value)) : Except NumeralFault Matcher := do
  return ⟨entries, ← Schema.ofDescription (.mapping entries)⟩

/-- The matcher of a description. A null is taken for the empty mapping. -/
def ofDescription : Value → Except DescriptionFault Matcher
  | .null => (ofEntries []).mapError .numeral
  | .mapping entries => (ofEntries entries).mapError .numeral
  | v => .error (.notMapping v.className)

/-- Whether the description is empty. -/
def isEmpty (m : Matcher) : Bool := m.description.isEmpty

/-- The report on a data tree. -/
def check (m : Matcher) (data : Value) : Except NumeralFault Report :=
  if m.isEmpty then .ok .empty
  else do return .ofFindings (← m.root.findings data "")

/-- The failure that a report amounts to, if it disagrees anywhere. -/
def failure? (r : Report) : Option MatchFailure :=
  if r.isValid then none
  else some ⟨"Schema match failed: " ++ ", ".intercalate r.paths, r⟩

end Matcher

end TreeSchema
