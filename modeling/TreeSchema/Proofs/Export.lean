import Mathlib.Data.List.Nodup
import TreeSchema.Proofs.FirstCome
import TreeSchema.Proofs.JsonRoundTrip

/-!
# Exported reports

A report is exported as a mapping of mappings, in which the kinds stand under their names
(`Report.toValue`), and as the JSON text of that mapping. **An exported report loses nothing**
(`Report.decode_encode_ofReport`): its text decodes to the mapping, with the same order of paths and
of kinds, and the mapping is the report again once the names of the kinds are replaced by the kinds
(`Report.ofValue?`). Hence different reports have different texts, and the layout of a text has no
part in what it decodes to.

This is said of the reports in which no path comes twice, and no kind at one path
(`Report.HasDistinctKeys`), as it is with all reports of findings. In a mapping a key that came
twice would keep the last of its values only.

The text is decoded by the reader for any text of JSON, in which it is one of many: the messages may
hold quotes, control characters and characters that are written in two halves, and a path may be any
text. All of this is dealt with where texts of JSON are written and read. What is specific to a
report is that there are no numbers in it, that it has two levels, and that its names are different
at each of them, so that decoding puts no two entries into one.

That different reports have different texts is a consequence and is not shown of the writer: two
equal texts decode to equal mappings.
-/

namespace TreeSchema

/-- Different kinds have different names. -/
theorem ErrorKind.name_injective : Function.Injective ErrorKind.name := by
  intro k k' h
  have hback := congrArg ofName? h
  rw [ofName?_name, ofName?_name] at hback
  exact Option.some.inj hback

namespace Report

/-- **A report as a mapping of mappings**: of the paths, and of the names of the kinds at each. -/
def toValue (r : Report) : Value :=
  .mapping (r.rows.map fun row =>
    (.text row.1, .mapping (row.2.map fun e => (.text e.1.name, .text e.2))))

/-- The kind and the message that an entry gives. -/
def kindOfPair? : Value × Value → Option (ErrorKind × String)
  | (.text name, .text message) => (ErrorKind.ofName? name).map fun kind => (kind, message)
  | _ => none

/-- The path and the kinds that an entry gives. -/
def rowOfPair? : Value × Value → Option (String × List (ErrorKind × String))
  | (.text path, .mapping entries) => (entries.mapM kindOfPair?).map fun kinds => (path, kinds)
  | _ => none

/-- The report that a mapping of mappings gives, by the names of the kinds. -/
def ofValue? : Value → Option Report
  | .mapping entries => (entries.mapM rowOfPair?).map mk
  | _ => none

/-- **No path comes twice**, and no kind at one path. -/
structure HasDistinctKeys (r : Report) : Prop where
  paths : r.paths.Nodup
  kinds : ∀ row ∈ r.rows, (row.2.map Prod.fst).Nodup

/-- A report of findings has no path twice, and no kind at one path. -/
theorem hasDistinctKeys_ofFindings (fs : List Finding) : (ofFindings fs).HasDistinctKeys where
  paths := nodup_paths fs
  kinds row hrow := by
    rw [← kindsAt_of_mem hrow]
    exact nodup_kinds fs row.1

/-! ## The mapping gives the report back

Each entry gives back what it was made of, and so do all of them. -/

/-- What is undone at each item is undone for the list. -/
theorem mapM_map_eq_some {α β : Type} {f : α → β} {g : β → Option α} (h : ∀ a, g (f a) = some a)
    (as : List α) : (as.map f).mapM g = some as := by
  induction as with
  | nil => rfl
  | cons a as ih =>
    rw [List.map_cons, List.mapM_cons, h, ih]
    rfl

/-- Replacing the names of the kinds by the kinds gives the report back. -/
theorem ofValue?_toValue (r : Report) : ofValue? r.toValue = some r := by
  have hkind : ∀ e : ErrorKind × String, kindOfPair? (.text e.1.name, .text e.2) = some e := by
    intro e
    rw [kindOfPair?, ErrorKind.ofName?_name]
    rfl
  have hrow : ∀ row : String × List (ErrorKind × String),
      rowOfPair? (.text row.1, .mapping (row.2.map fun e => (.text e.1.name, .text e.2)))
        = some row := by
    intro row
    rw [rowOfPair?, mapM_map_eq_some hkind]
    rfl
  rw [toValue, ofValue?, mapM_map_eq_some hrow]
  rfl

/-- Different reports make different mappings. -/
theorem toValue_inj {r s : Report} (h : r.toValue = s.toValue) : r = s := by
  have hback := congrArg ofValue? h
  rw [ofValue?_toValue, ofValue?_toValue] at hback
  exact Option.some.inj hback

end Report

/-! ## The document of a report

The document has two levels, of objects with texts at the end. It is written in the order of the
rows. -/

namespace Json

/-- The entries of a list of members. -/
theorem toEntries_map {α : Type} (name : α → String) (doc : α → Json) (as : List α) :
    toEntries (as.map fun a => (name a, doc a))
      = as.map fun a => (.text (name a), (doc a).toValue) := by
  induction as with
  | nil => rfl
  | cons a as ih => rw [List.map_cons, toEntries, ih, List.map_cons]

/-- There are no numbers in an object of documents without them. -/
theorem hasNoNumberInside_map {α : Type} {name : α → String} {doc : α → Json}
    (h : ∀ a, (doc a).HasNoNumber) (as : List α) :
    HasNoNumberInside (as.map fun a => (name a, doc a)) := by
  induction as with
  | nil => trivial
  | cons a as ih => exact ⟨h a, ih⟩

/-- There are texts only in the document of a report. -/
theorem hasNoNumber_ofReport (r : Report) : (ofReport r).HasNoNumber := by
  have hkinds : ∀ kinds : List (ErrorKind × String),
      (object (kinds.map fun e => (e.1.name, text e.2))).HasNoNumber :=
    hasNoNumberInside_map fun _ => trivial
  exact hasNoNumberInside_map (fun row => hkinds row.2) r.rows

/-- An object of documents has no more levels below it than the documents. -/
theorem memberLevels_map_le {α : Type} {name : α → String} {doc : α → Json} {n : Nat}
    (h : ∀ a, (doc a).levels ≤ n) (as : List α) :
    memberLevels (as.map fun a => (name a, doc a)) ≤ n := by
  induction as with
  | nil => exact Nat.zero_le n
  | cons a as ih => exact Nat.max_le.2 ⟨h a, ih⟩

/-- The document of a report has two levels, one for the paths and one for the kinds. -/
theorem levels_ofReport_le (r : Report) : (ofReport r).levels ≤ 2 := by
  have hkinds : ∀ kinds : List (ErrorKind × String),
      (object (kinds.map fun e => (e.1.name, text e.2))).levels ≤ 1 := fun kinds =>
    Nat.succ_le_succ (memberLevels_map_le (fun _ => Nat.le_refl 0) kinds)
  exact Nat.succ_le_succ (memberLevels_map_le (fun row => hkinds row.2) r.rows)

/-- An object whose names are all different makes a mapping that lists its members. -/
theorem toValue_object_map {α : Type} {name : α → String} {as : List α} (h : (as.map name).Nodup)
    (doc : α → Json) :
    (object (as.map fun a => (name a, doc a))).toValue
      = .mapping (as.map fun a => (.text (name a), (doc a).toValue)) := by
  rw [toValue, toEntries_map]
  exact Value.ofAssignments_texts h _

/-- The document of a report is the report as a mapping of mappings. -/
theorem toValue_ofReport {r : Report} (hr : r.HasDistinctKeys) :
    (ofReport r).toValue = r.toValue := by
  refine (toValue_object_map hr.paths _).trans (congrArg Value.mapping ?_)
  refine List.map_congr_left fun row hrow => congrArg (Prod.mk _) ?_
  have hnames : (row.2.map fun e => e.1.name).Nodup := by
    rw [← Function.comp_def, ← List.map_map]
    exact (hr.kinds row hrow).map ErrorKind.name_injective
  exact toValue_object_map hnames fun e => text e.2

end Json

namespace Report

/-- **An exported report loses nothing.** In every layout its text decodes to the mapping of
mappings that the report is, on every stack with room for the two levels of it, and in this mapping
the names of the kinds can be replaced by the kinds again. So the layout has no part in what the
text decodes to, and no other report has the text in any layout. -/
theorem decode_encode_ofReport {r : Report} (distinct : r.HasDistinctKeys) {l : Json.Layout}
    (blank : l.IsBlank) {stack : Stack} (room : stack.json.Fits 2) :
    Format.json.decode stack (Json.encode l (.ofReport r)) = .ok (.tree r.toValue) ∧
      ofValue? r.toValue = some r ∧
      (∀ l' : Json.Layout, l'.IsBlank →
        Format.json.decode stack (Json.encode l' (.ofReport r))
          = Format.json.decode stack (Json.encode l (.ofReport r))) ∧
      ∀ (s : Report) (l' : Json.Layout), s.HasDistinctKeys → l'.IsBlank →
        Json.encode l (.ofReport r) = Json.encode l' (.ofReport s) → r = s := by
  have hdecode : ∀ {s : Report} {l' : Json.Layout}, s.HasDistinctKeys → l'.IsBlank →
      Format.json.decode stack (Json.encode l' (.ofReport s)) = .ok (.tree s.toValue) := by
    intro s l' hs hl'
    have hroom := room.mono (Json.levels_ofReport_le s)
    rw [Format.decode_json_encode hl' (Json.hasNoNumber_ofReport s) hroom, Json.toValue_ofReport hs]
  refine ⟨hdecode distinct blank, ofValue?_toValue r, fun l' hl' => ?_, fun s l' hs hl' h => ?_⟩
  · rw [hdecode distinct hl', hdecode distinct blank]
  · have htwice := hdecode distinct blank
    rw [h, hdecode hs hl'] at htwice
    exact (toValue_inj (Decoded.tree.inj (Except.ok.inj htwice))).symm

example : Json.encode (.spaces 1) (.ofReport ⟨[("é", [(.keyNotFound, "😀")]), ("$", [])]⟩)
    = "\x7b\n \"\\u00e9\": \x7b\n  \"KEY_NOT_FOUND\": \"\\ud83d\\ude00\"\n \x7d,\n"
      ++ " \"$\": \x7b\x7d\n\x7d" := by
  rfl

/-- A report with quotes, control characters and characters beyond the first plane in it, and with a
path that has no kinds. -/
def motley : Report :=
  ⟨[("a \"b\" \\ \t", [(.typeMismatch, "é\x00\x7f"), (.keyNotFound, "😀 \n")]), ("", [])]⟩

/-- It is exported without loss, with a negative indentation, which gives lines without spaces in
front. -/
theorem decode_encode_motley :
    motley.HasDistinctKeys ∧ (Json.Layout.spaces (-3)).IsBlank ∧
      Stack.usual.json.Fits 2 ∧
      Format.json.decode .usual (Json.encode (.spaces (-3)) (.ofReport motley))
        = .ok (.tree (.mapping [
            (.text "a \"b\" \\ \t", .mapping [
              (.text "TYPE_MISMATCH", .text "é\x00\x7f"), (.text "KEY_NOT_FOUND", .text "😀 \n")]),
            (.text "", .mapping [])])) := by
  have distinct : motley.HasDistinctKeys := ⟨by decide, by decide⟩
  have blank : (Json.Layout.spaces (-3)).IsBlank := .spaces _
  have room : Stack.usual.json.Fits 2 := by decide
  exact ⟨distinct, blank, room, (decode_encode_ofReport distinct blank room).1⟩

end Report

end TreeSchema
