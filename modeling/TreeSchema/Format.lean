import TreeSchema.Json.Decode
import TreeSchema.Path
import TreeSchema.Yaml.Reading

/-!
# Document formats

A text is read as a document in one of two formats. Each format has suffixes by which the files are
known that are written in it. Both give a document in the same form (`Decoded`), though only a text
of YAML can name a part of itself.

A text that is not read may be malformed, which is told as such (`DecodeFault.isMalformed`). Or it
is well-formed and still holds what no value can be made of, or lies deeper than there is room for;
these faults are of other kinds, and it depends on the caller whether they are told at all.
-/

namespace TreeSchema

/-- A format of documents. -/
inductive Format where
  | json
  | yaml
  deriving DecidableEq

/-- Why a text is not read as a document. -/
inductive DecodeFault where
  | json (fault : Json.Fault)
  | yaml (fault : Yaml.Fault)
  deriving DecidableEq

/-- The wording of a text that is not read as a document. -/
def DecodeFault.message : DecodeFault → String
  | json (.malformed problem position) => Json.malformedMessage problem position
  | json (.numeral fault) => fault.message
  | json .tooDeep => Room.exceeded
  | yaml fault => fault.message

/-- Whether the text is malformed. A text that is well formed can still hold what no value can be
made of. -/
def DecodeFault.isMalformed : DecodeFault → Bool
  | json (.malformed _ _) | yaml (.malformed _) => true
  | _ => false

namespace Format

/-- All the formats. -/
def all : List Format := [json, yaml]

/-- The name of a format. -/
def name : Format → String
  | json => "json"
  | yaml => "yaml"

/-- The name of a format in capitals, as error texts give it. -/
def title : Format → String
  | json => "JSON"
  | yaml => "YAML"

/-- The format with a name. -/
def ofName? (s : String) : Option Format := all.find? fun f => f.name == s

/-- The suffixes of the files of a format, in lower case. -/
def suffixes : Format → List String
  | json => [".json"]
  | yaml => [".yaml", ".yml"]

/-- Whether a path has a suffix of a format, in letters of either case. -/
def isSuffixOf (f : Format) (path : Path) : Bool := f.suffixes.contains path.lowerSuffix

/-- The format of the files with the suffix of a path. -/
def ofSuffix? (path : Path) : Option Format := all.find? fun f => f.isSuffixOf path

/-- Reads a text as a document. -/
def decode (f : Format) (stack : Stack) (text : String) : Except DecodeFault Decoded :=
  match f with
  | json => ((Json.decode stack.json text).map fun j => .tree j.toValue).mapError .json
  | yaml => (Yaml.decode stack text).mapError .yaml

/-- A path has the suffixes of one format at most. -/
theorem eq_of_isSuffixOf {f g : Format} {path : Path} (hf : f.isSuffixOf path = true)
    (hg : g.isSuffixOf path = true) : f = g := by
  unfold isSuffixOf at hf hg
  generalize path.lowerSuffix = s at hf hg
  cases f <;> cases g <;> simp_all [suffixes]

/-- A suffix belongs to one format only. -/
theorem ofSuffix?_eq_some_iff {f : Format} {path : Path} :
    ofSuffix? path = some f ↔ f.isSuffixOf path = true := by
  constructor
  · intro h
    have hf := List.find?_some h
    exact hf
  · intro h
    cases hs : ofSuffix? path with
    | none =>
      have hf := List.find?_eq_none.1 hs f (by cases f <;> decide)
      exact absurd h hf
    | some g =>
      have hg := List.find?_some hs
      rw [eq_of_isSuffixOf h hg]

end Format

end TreeSchema
