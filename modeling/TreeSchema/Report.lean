import TreeSchema.Assoc

/-!
# Reports

A report says where data disagrees with a schema: for each path the kinds of disagreement, each with
a message. Paths and kinds keep the order in which they came, and of two findings of one kind at one
path the first one counts (`Report.add`). Reports are written down as rows, where the last one
counts instead (`Report.ofRows`).

The difference between the two is not visible in reports that a check makes, since these have no row
twice. It matters for reports that a caller puts together: rows are assigned one after the other,
and an assignment to what is there replaces it without moving it.
-/

namespace TreeSchema

/-- The kinds of disagreement. -/
inductive ErrorKind where
  | collectionDefinition
  | keyNotFound
  | typeUnknown
  | typeMismatch
  deriving DecidableEq, Repr

namespace ErrorKind

/-- All the kinds. -/
def all : List ErrorKind := [collectionDefinition, keyNotFound, typeUnknown, typeMismatch]

/-- The name of a kind. -/
def name : ErrorKind → String
  | collectionDefinition => "COLLECTION_DEFINITION"
  | keyNotFound => "KEY_NOT_FOUND"
  | typeUnknown => "TYPE_UNKNOWN"
  | typeMismatch => "TYPE_MISMATCH"

/-- The kind with a name. -/
def ofName? (s : String) : Option ErrorKind :=
  all.find? fun k => k.name == s

theorem ofName?_name (k : ErrorKind) : ofName? k.name = some k := by
  cases k <;> decide

end ErrorKind

/-- One disagreement between data and a schema. -/
structure Finding where
  path : String
  kind : ErrorKind
  message : String
  deriving DecidableEq

/-- The kinds of disagreement at the paths, in order. -/
structure Report where
  rows : List (String × List (ErrorKind × String)) := []
  deriving DecidableEq

namespace Report

/-- The report without any disagreement. -/
def empty : Report := ⟨[]⟩

/-- Whether there is no disagreement. -/
def isValid (r : Report) : Bool := r.rows.isEmpty

/-- The paths of a report, in order. -/
def paths (r : Report) : List String := r.rows.map Prod.fst

/-- Adds a finding, unless its kind is known at its path. -/
def add (r : Report) (f : Finding) : Report :=
  let first (kinds : Option (List (ErrorKind × String))) :=
    Assoc.alter (f.kind == ·) f.kind (fun m => m.getD f.message) (kinds.getD [])
  ⟨Assoc.alter (f.path == ·) f.path first r.rows⟩

/-- The report of findings in their order. -/
def ofFindings (fs : List Finding) : Report :=
  fs.foldl add empty

/-- The report that rows write down. A repeated path keeps its place and takes the later kinds, and
so do kinds with their messages. -/
def ofRows (rows : List (String × List (ErrorKind × String))) : Report :=
  let assign (kinds : List (ErrorKind × String)) (e : ErrorKind × String) :=
    Assoc.alter (e.1 == ·) e.1 (fun _ => e.2) kinds
  ⟨rows.foldl (fun m row =>
    Assoc.alter (row.1 == ·) row.1 (fun _ => row.2.foldl assign []) m) []⟩

/-- The pairs of a path and a kind in a report, each as one line. -/
def lines (r : Report) : List String :=
  r.rows.flatMap fun (path, kinds) => kinds.map fun (kind, _) => path ++ ": " ++ kind.name

/-- Only the empty report is one of agreement. -/
theorem isValid_iff {r : Report} : r.isValid = true ↔ r = empty := by
  obtain ⟨rows⟩ := r
  simp [isValid, empty]

/-- A finding leaves a mark: the report it is added to disagrees somewhere. -/
theorem isValid_add (r : Report) (f : Finding) : (r.add f).isValid = false := by
  obtain ⟨rows⟩ := r
  cases rows with
  | nil => rfl
  | cons p rows =>
    simp only [add, isValid, Assoc.alter]
    split <;> rfl

end Report

end TreeSchema
