import TreeSchema.Files.Table
import TreeSchema.Proofs.JsonRoundTrip
import TreeSchema.Proofs.Loading
import TreeSchema.Proofs.Shape

/-!
# Inline documents

A text that has a slash or a backslash is taken for the path of a file first, and for the document
itself where there is no such file. The path of a JSON object never has a suffix of a format, since
the brace at its end belongs to the suffix, and it never holds a null character. So in a directory
without files an inline object is found to be absent, and loads as itself, as long as the path can
be looked up at all: its first part and the path as a whole must not be too long
(`Matcher.load_inline_iff`). There are documents for which they are (`Matcher.load_indentedSlash`).

The first part is what stands before the first slash, and it is the only one that is looked up:
where it is not there, the system does not go on to the next. It is also where documents get long,
as everything in front of the first slash counts, spaces and line ends included. The path as a whole
has a limit of its own, which is checked before.

What is needed of a text is only how it begins and ends. An object begins with a brace, behind
spaces, and ends with one, in front of spaces (`Json.decode_object`); so its path begins with a name
that is neither empty nor made of points, and ends with one whose suffix, if it has one, has the
brace in it. Nothing in between has to be known of the document.
-/

namespace TreeSchema

namespace Text

/-! ## Lower case and pieces

A suffix is compared in lower case, and a path is cut at its slashes. Neither takes a brace away. -/

/-- A character that is its own lower case stays in the text. -/
theorem mem_lowerAfter {c : Char} (hlower : lowerChar c = c) (hsigma : c ≠ 'Σ') (hdotted : c ≠ 'İ')
    {before cs : List Char} (h : c ∈ cs) : c ∈ lowerAfter before cs := by
  induction cs generalizing before with
  | nil => cases h
  | cons d cs ih =>
    rw [lowerAfter, List.mem_append]
    obtain rfl | h := List.mem_cons.1 h
    · left
      rw [if_neg hsigma, if_neg hdotted, hlower]
      exact .head _
    · exact .inr (ih h)

/-- The first piece of a text is what stands in front of the first separator. -/
theorem exists_pieces_eq_cons (sep : Char) (cs : List Char) :
    ∃ ps, pieces sep cs = cs.takeWhile (· ≠ sep) :: ps := by
  induction cs with
  | nil => exact ⟨[], rfl⟩
  | cons c cs ih =>
    obtain ⟨ps, hps⟩ := ih
    rw [pieces, hps]
    by_cases hc : c = sep
    · refine ⟨cs.takeWhile (· ≠ sep) :: ps, ?_⟩
      rw [if_pos hc, List.takeWhile_cons_of_neg (by simpa using hc)]
    · refine ⟨ps, ?_⟩
      rw [if_neg hc, List.takeWhile_cons_of_pos (by simpa using hc)]

/-- A text without separators is one piece. -/
theorem pieces_of_not_mem {sep : Char} {cs : List Char} (h : sep ∉ cs) : pieces sep cs = [cs] := by
  induction cs with
  | nil => rfl
  | cons c cs ih =>
    obtain ⟨hc, hcs⟩ := not_or.1 (mt List.mem_cons.2 h)
    rw [pieces, if_neg (Ne.symm hc), ih hcs]

/-- The last piece of a text ends as the text does. -/
theorem exists_pieces_eq_concat {sep : Char} {back : List Char} (hback : sep ∉ back)
    (front : List Char) : ∃ ps p, pieces sep (front ++ back) = ps ++ [p ++ back] := by
  induction front with
  | nil => exact ⟨[], [], pieces_of_not_mem hback⟩
  | cons c front ih =>
    obtain ⟨ps, p, hps⟩ := ih
    rw [List.cons_append, pieces, hps]
    by_cases hc : c = sep
    · exact ⟨[] :: ps, p, if_pos hc⟩
    · rw [if_neg hc]
      cases ps with
      | nil => exact ⟨[], c :: p, rfl⟩
      | cons q ps => exact ⟨(c :: q) :: ps, p, rfl⟩

/-- The pieces of a text have no other characters than the text. -/
theorem mem_of_mem_pieces {sep c : Char} {p cs : List Char} (hp : p ∈ pieces sep cs) (hc : c ∈ p) :
    c ∈ cs := by
  induction cs generalizing p with
  | nil =>
    rw [List.mem_singleton.1 hp] at hc
    exact hc
  | cons d cs ih =>
    rw [pieces] at hp
    split at hp
    · obtain rfl | hp := List.mem_cons.1 hp
      · cases hc
      · exact .tail _ (ih hp hc)
    · split at hp
      · rw [List.mem_singleton.1 hp, List.mem_singleton] at hc
        rw [hc]
        exact .head _
      · rename_i q qs hq
        rw [hq] at ih
        obtain rfl | hp := List.mem_cons.1 hp
        · obtain rfl | hc := List.mem_cons.1 hc
          · exact .head _
          · exact .tail _ (ih (.head _) hc)
        · exact .tail _ (ih (.tail _ hp) hc)

/-- A text has as many bytes as characters at least. -/
theorem length_le_utf8ByteSize (cs : List Char) : cs.length ≤ (String.ofList cs).utf8ByteSize := by
  induction cs with
  | nil => exact Nat.zero_le _
  | cons c cs ih =>
    have hc := c.utf8Size_pos
    rw [String.ofList_cons, String.utf8ByteSize_append, String.utf8ByteSize_singleton,
      List.length_cons]
    omega

/-- Joined texts have no other characters than the texts and what joins them. -/
theorem mem_intercalate {c : Char} {sep : List Char} {ls : List (List Char)}
    (h : c ∈ sep.intercalate ls) : c ∈ sep ∨ ∃ l ∈ ls, c ∈ l := by
  induction ls with
  | nil => cases h
  | cons l ls ih =>
    cases ls with
    | nil =>
      rw [List.intercalate_singleton] at h
      exact .inr ⟨l, .head _, h⟩
    | cons m ls =>
      rw [List.intercalate_cons_cons, List.mem_append, List.mem_append] at h
      obtain (h | h) | h := h
      · exact .inr ⟨l, .head _, h⟩
      · exact .inl h
      · exact (ih h).imp_right fun ⟨k, hk, hc⟩ => ⟨k, .tail _ hk, hc⟩

end Text

namespace Path

/-- The text of a path has the characters that it was read from, slashes and points. -/
theorem mem_text {s : String} {c : Char} (h : c ∈ (ofText s).text.toList) :
    c ∈ s.toList ∨ c = '/' ∨ c = '.' := by
  unfold text at h
  split at h
  · exact .inr (.inr (List.mem_singleton.1 h))
  · rw [String.toList_append, String.toList_intercalate, List.mem_append] at h
    obtain h | h := h
    · have hroot : ∀ cs, c ∈ (rootOf cs).toList → c = '/' := by
        intro cs hc
        unfold rootOf at hc
        split at hc
        · cases hc
        · simpa using hc
        · simpa using hc
      exact .inr (.inl (hroot _ h))
    · obtain h | ⟨l, hl, h⟩ := Text.mem_intercalate h
      · exact .inr (.inl (List.mem_singleton.1 h))
      · obtain ⟨part, hpart, rfl⟩ := List.mem_map.1 hl
        obtain ⟨p, hp, rfl⟩ := List.mem_map.1 hpart
        rw [String.toList_ofList] at h
        exact .inl (Text.mem_of_mem_pieces (List.mem_of_mem_filter hp) h)

/-- The name at the end of a path that ends with a brace. -/
theorem exists_getLast?_of_brace {front back : List Char} (hback : '/' ∉ back) {s : String}
    (hs : s.toList = front ++ '\x7d' :: back) :
    ∃ p, (ofText s).parts.getLast? = some (String.ofList (p ++ '\x7d' :: back)) := by
  have hsep : '/' ∉ '\x7d' :: back := fun h => by
    obtain h | h := List.mem_cons.1 h
    · exact absurd h (by decide)
    · exact hback h
  obtain ⟨ps, p, hpieces⟩ := Text.exists_pieces_eq_concat hsep front
  have hbrace : '\x7d' ∈ p ++ '\x7d' :: back := List.mem_append_right _ (.head _)
  have hempty : p ++ '\x7d' :: back ≠ [] := List.ne_nil_of_mem hbrace
  have hpoint : p ++ '\x7d' :: back ≠ ['.'] := fun h => by
    rw [h] at hbrace
    exact absurd hbrace (by decide)
  refine ⟨p, ?_⟩
  rw [ofText, hs, hpieces]
  simp only [List.filter_append, List.map_append, List.filter_cons, List.filter_nil]
  simp [hempty, hpoint]

/-- **A path that ends with a brace** has no suffix of a format, whatever spaces follow the
brace. -/
theorem not_isSuffixOf_of_brace {front back : List Char}
    (hback : ∀ c ∈ back, Json.isSpace c = true) (format : Format) {s : String}
    (hs : s.toList = front ++ '\x7d' :: back) : format.isSuffixOf (ofText s) = false := by
  have hmem : ∀ c, Json.isSpace c = false → c ∉ back := fun c hc h => by
    rw [hback c h] at hc
    cases hc
  obtain ⟨p, hlast⟩ := exists_getLast?_of_brace (hmem '/' rfl) hs
  -- The brace is behind the last point of the name, so it is part of a suffix if there is one.
  have hsuffix : (ofText s).suffix = "" ∨ '\x7d' ∈ (ofText s).suffix.toList := by
    unfold suffix
    simp only [hlast, Option.getD_some, String.toList_ofList]
    split
    · right
      rw [String.toList_ofList]
      refine .tail _ (List.mem_reverse.2 ?_)
      rw [List.reverse_append, List.reverse_cons, List.append_assoc,
        List.takeWhile_append_of_pos fun c hc => ?_]
      · exact List.mem_append_right _ (.head _)
      · exact decide_eq_true fun h => hmem '.' rfl (h ▸ List.mem_reverse.1 hc)
    · exact .inl rfl
  have hlower : (ofText s).lowerSuffix = "" ∨ '\x7d' ∈ (ofText s).lowerSuffix.toList := by
    unfold lowerSuffix Text.lowercase
    refine hsuffix.imp (fun h => ?_) fun h => ?_
    · rw [h]
      rfl
    · rw [String.toList_ofList]
      exact Text.mem_lowerAfter (by decide) (by decide) (by decide) h
  refine Bool.eq_false_iff.2 fun h => ?_
  have hformat : ∀ suffix ∈ format.suffixes, suffix ≠ "" ∧ '\x7d' ∉ suffix.toList := by
    cases format <;> decide
  obtain ⟨hempty, hbrace⟩ := hformat _ (List.contains_iff_mem.1 h)
  exact hlower.elim hempty hbrace

/-- The text of a path up to its first slash. -/
def start (s : String) : String := String.ofList (s.toList.takeWhile (· ≠ '/'))

/-- A path that starts with a name. -/
theorem ofText_eq_of_start {s : String} (hempty : start s ≠ "") (hpoint : start s ≠ ".") :
    ∃ parts, ofText s = ⟨"", start s :: parts⟩ := by
  obtain ⟨ps, hps⟩ := Text.exists_pieces_eq_cons '/' s.toList
  have hlist : ∀ cs, start s ≠ String.ofList cs → s.toList.takeWhile (· ≠ '/') ≠ cs :=
    fun cs hne h => hne (by rw [start, h])
  have hroot : rootOf s.toList = "" := by
    cases hs : s.toList with
    | nil => rfl
    | cons c cs =>
      have hc : c ≠ '/' := fun hc => hlist [] hempty <| by
        rw [hs, List.takeWhile_cons_of_neg (by simpa using hc)]
      rw [rootOf, List.takeWhile_cons_of_neg (by simpa using hc)]
  have hkept : (!(s.toList.takeWhile (· ≠ '/')).isEmpty
      && decide (s.toList.takeWhile (· ≠ '/') ≠ ['.'])) = true := by
    rw [List.isEmpty_eq_false_iff.2 (hlist [] hempty), decide_eq_true (hlist ['.'] hpoint)]
    rfl
  rw [ofText, hroot, hps]
  simp only [List.filter_cons, hkept, if_true, List.map_cons]
  exact ⟨_, rfl⟩

end Path

namespace FileTable

/-- The current directory without files. -/
def empty : FileTable := ⟨[]⟩

/-- Whether a path is too long to be looked up where its first part is not there: it is too long as
a whole, or its first part is. -/
def IsTooLong (s : String) : Prop :=
  longestPath ≤ (Path.ofText s).text.utf8ByteSize ∨ longestPart < (Path.start s).utf8ByteSize

instance (s : String) : Decidable (IsTooLong s) := inferInstanceAs (Decidable (_ ∨ _))

/-- Without files, a path that starts with a name leads nowhere. -/
theorem find_empty {s : String} (hnull : '\x00' ∉ s.toList) (hempty : Path.start s ≠ "")
    (hpoint : Path.start s ≠ ".") (hparent : Path.start s ≠ "..") :
    empty.files.find (.ofText s) = .error (if IsTooLong s then .nameTooLong else .absent) := by
  have htext : '\x00' ∉ (Path.ofText s).text.toList := fun h => by
    obtain h | h | h := Path.mem_text h
    · exact hnull h
    · exact absurd h (by decide)
    · exact absurd h (by decide)
  obtain ⟨parts, hpath⟩ := Path.ofText_eq_of_start hempty hpoint
  have henter : empty.enter (.inside []) (Path.start s)
      = .error (if longestPart < (Path.start s).utf8ByteSize then .nameTooLong else .absent) := by
    rw [enter, if_neg hparent]
    split <;> rfl
  have hfollow : empty.follow (.ofText s)
      = .error (if IsTooLong s then .nameTooLong else .absent) := by
    rw [follow, if_neg (by simpa using htext)]
    by_cases hlong : longestPath ≤ (Path.ofText s).text.utf8ByteSize
    · rw [if_pos hlong, if_pos (.inl hlong)]
    · rw [if_neg hlong, hpath, if_pos (by simp), List.foldlM_cons, henter]
      simp only [IsTooLong, hlong, false_or]
      rfl
  simp only [files, hfollow]
  rfl

end FileTable

namespace Format

/-- A JSON text that is read as a mapping is the text of an object. -/
theorem exists_object_of_decode {stack : Stack} {t : String} {entries : List (Value × Value)}
    (h : json.decode stack t = .ok (.tree (.mapping entries))) :
    ∃ members, Json.decode stack.json t = .ok (.object members) := by
  rw [decode, mapError_eq_ok_iff] at h
  cases hj : Json.decode stack.json t with
  | error fault =>
    rw [hj] at h
    cases h
  | ok j =>
    rw [hj] at h
    cases j with
    | object members => exact ⟨members, rfl⟩
    | _ => cases Decoded.tree.inj (Except.ok.inj h)

end Format

namespace Source

/-- What is read from a text that has no suffix of a format and is not the path of a file. -/
theorem read_text_empty {format : Format} {t : String}
    (hsuffix : format.isSuffixOf (.ofText t) = false) (hnull : '\x00' ∉ t.toList)
    (hempty : Path.start t ≠ "") (hpoint : Path.start t ≠ ".") (hparent : Path.start t ≠ "..") :
    read FileTable.empty.files format (.text t)
      = if ('/' ∈ t.toList ∨ '\\' ∈ t.toList) ∧ FileTable.IsTooLong t then
          .error (.breakdown (.access (.ofText t) .nameTooLong))
        else .ok t := by
  have hpath : (text t).mayBePath = decide ('/' ∈ t.toList ∨ '\\' ∈ t.toList) := by
    rw [Bool.eq_iff_iff, mayBePath_text_iff, decide_eq_true_iff]
  have hfind := FileTable.find_empty hnull hempty hpoint hparent
  unfold read
  rw [hpath, show (text t).namesFile format = false from hsuffix, Bool.false_or]
  by_cases hslash : '/' ∈ t.toList ∨ '\\' ∈ t.toList
  · by_cases hlong : FileTable.IsTooLong t
    · rw [if_pos hlong] at hfind
      simp [hslash, hlong, Files.readText, Files.readBytes, toPath, hfind]
    · rw [if_neg hlong] at hfind
      simp [hslash, hlong, Files.readText, Files.readBytes, toPath, hfind, shown]
  · simp [hslash, shown]

end Source

namespace Matcher

variable {stack : Stack}

/-- What loading an inline object gives in a directory without files. -/
theorem load_inline_eq {t : String} {entries : List (Value × Value)} {m : Matcher}
    (hdecode : Format.json.decode stack t = .ok (.tree (.mapping entries)))
    (hm : ofDecoded stack (.tree (.mapping entries)) = .ok m) :
    load stack FileTable.empty.files .json (.text t)
      = if ('/' ∈ t.toList ∨ '\\' ∈ t.toList) ∧ FileTable.IsTooLong t then
          .error (.breakdown (.access (.ofText t) .nameTooLong))
        else .ok m := by
  obtain ⟨members, hobject⟩ := Format.exists_object_of_decode hdecode
  obtain ⟨front, inside, back, htext, hfront, hinside, hback⟩ := Json.decode_object hobject
  -- The brace in front makes the part up to the first slash a name, not a dot or two.
  have hstart : '\x7b' ∈ (Path.start t).toList := by
    rw [Path.start, String.toList_ofList, htext, List.takeWhile_append_of_pos fun c hc => ?_]
    · exact List.mem_append_right _ (.head _)
    · exact decide_eq_true fun h => absurd (hfront c hc) (h ▸ by decide)
  have hname : ∀ name : String, '\x7b' ∉ name.toList → Path.start t ≠ name :=
    fun name hbrace h => hbrace (h ▸ hstart)
  have hnull : '\x00' ∉ t.toList := by
    rw [htext, List.mem_append, List.mem_cons, List.mem_append, List.mem_cons]
    rintro (h | h | h | h | h)
    · exact absurd (hfront _ h) (by decide)
    · exact absurd h (by decide)
    · exact (hinside _ h).elim (by decide) (by decide)
    · exact absurd h (by decide)
    · exact absurd (hback _ h) (by decide)
  have hbrace : t.toList = (front ++ '\x7b' :: inside) ++ '\x7d' :: back := by
    rw [htext, List.append_assoc, List.cons_append]
  have hsuffix := Path.not_isSuffixOf_of_brace hback .json hbrace
  rw [load, Source.read_text_empty hsuffix hnull (hname _ (by decide)) (hname _ (by decide))
    (hname _ (by decide))]
  split
  · rfl
  · exact (show ofText stack .json t = .ok m by rw [ofText, hdecode]; exact hm)

/-- **An inline object is loaded as itself** when the system can look its text up as a path: that is
so if it has no slash and no backslash, or if neither its part up to the first slash nor the path as
a whole is too long. Otherwise loading it breaks down. -/
theorem load_inline_iff {t : String} {document : Value} {m : Matcher}
    (hdecode : Format.json.decode stack t = .ok (.tree document))
    (hm : ofDecoded stack (.tree document) = .ok m) :
    document = .mapping m.description ∧
      (load stack FileTable.empty.files .json (.text t) = .ok m
        ↔ '/' ∉ t.toList ∧ '\\' ∉ t.toList ∨ ¬FileTable.IsTooLong t) ∧
      (¬('/' ∉ t.toList ∧ '\\' ∉ t.toList ∨ ¬FileTable.IsTooLong t) →
        load stack FileTable.empty.files .json (.text t)
          = .error (.breakdown (.access (.ofText t) .nameTooLong))) := by
  obtain ⟨entries, rfl, -, hdescription⟩ := ofDocument_eq_ok_iff.1 (ofDocument_of_ofDecoded hm)
  have hload := load_inline_eq hdecode hm
  have hcases : ('/' ∈ t.toList ∨ '\\' ∈ t.toList) ∧ FileTable.IsTooLong t
      ↔ ¬('/' ∉ t.toList ∧ '\\' ∉ t.toList ∨ ¬FileTable.IsTooLong t) := by
    rw [not_or, not_and_or, not_not, not_not, not_not]
  obtain ⟨rfl, -⟩ := ofDescription_mapping hdescription
  refine ⟨rfl, ?_, fun h => ?_⟩
  · rw [hload, ← not_iff_not, ← hcases]
    split
    · exact iff_of_true (fun h => by cases h) ‹_›
    · exact iff_of_false (fun h => h rfl) ‹_›
  · rw [hload, if_pos (hcases.2 h)]

/-- A document with a slash in a key is no file, and is loaded. -/
theorem load_slash :
    let t := "\x7b\"a/b\": \"integer\"\x7d"
    ∃ m, Format.json.decode .usual t = .ok (.tree (.mapping m.description)) ∧
      ofDecoded .usual (.tree (.mapping m.description)) = .ok m ∧
      load .usual FileTable.empty.files .json (.text t) = .ok m := by
  intro t
  have hdecode : Format.json.decode .usual t
      = .ok (.tree (.mapping [(.text "a/b", .text "integer")])) := by
    let j : Json := .object [("a/b", .text "integer")]
    have ht : t = Json.encode .oneLine j := rfl
    have hj : j.HasNoNumber := ⟨trivial, trivial⟩
    rw [ht, Format.decode_json_encode .oneLine hj (by decide)]
    rfl
  obtain ⟨m, hm⟩ : ∃ m, ofDecoded .usual (.tree (.mapping [(.text "a/b", .text "integer")]))
      = .ok m := ⟨_, rfl⟩
  have hpath : Path.ofText t = ⟨"", ["\x7b\"a", "b\": \"integer\"\x7d"]⟩ := by decide +kernel
  have hshort : ¬FileTable.IsTooLong t := by
    rw [FileTable.IsTooLong, hpath]
    decide +kernel
  obtain ⟨hself, hload, -⟩ := load_inline_iff hdecode hm
  exact ⟨m, hself ▸ hdecode, hself ▸ hm, hload.2 (.inr hshort)⟩

/-- The same document behind 256 spaces is not: its part up to the slash is too long a name. -/
theorem load_indentedSlash :
    let t := String.ofList (List.replicate 256 ' ' ++ "\x7b\"a/b\": \"integer\"\x7d".toList)
    ∃ m, Format.json.decode .usual t = .ok (.tree (.mapping m.description)) ∧
      ofDecoded .usual (.tree (.mapping m.description)) = .ok m ∧
      load .usual FileTable.empty.files .json (.text t)
        = .error (.breakdown (.access (.ofText t) .nameTooLong)) := by
  intro t
  have hdecode : Format.json.decode .usual t
      = .ok (.tree (.mapping [(.text "a/b", .text "integer")])) := by
    have hfront : ∀ c ∈ List.replicate 256 ' ', Json.isSpace c = true :=
      fun c hc => List.eq_of_mem_replicate hc ▸ rfl
    have hobject : Json.decode Stack.usual.json "\x7b\"a/b\": \"integer\"\x7d"
        = .ok (.object [("a/b", .text "integer")]) := by
      let j : Json := .object [("a/b", .text "integer")]
      have hj : j.HasNoNumber := ⟨trivial, trivial⟩
      have hdecode : Json.decode Stack.usual.json (Json.encode .oneLine j) = .ok j :=
        Json.decode_encode .oneLine hj (by decide)
      rwa [show Json.encode .oneLine j = "\x7b\"a/b\": \"integer\"\x7d" from rfl] at hdecode
    rw [Format.decode, Json.decode_spaces_append hfront hobject]
    rfl
  obtain ⟨root, hm⟩ : ∃ root,
      ofDecoded .usual (.tree (.mapping [(.text "a/b", .text "integer")]))
        = .ok ⟨[(.text "a/b", .text "integer")], root⟩ := ⟨_, rfl⟩
  have hslash : '/' ∈ t.toList := by
    rw [String.toList_ofList]
    exact List.mem_append_right _ (by decide)
  have hlong : FileTable.longestPart < (Path.start t).utf8ByteSize := by
    refine Nat.lt_of_lt_of_le ?_ (Text.length_le_utf8ByteSize _)
    rw [String.toList_ofList]
    decide +kernel
  have hload := load_inline_eq hdecode hm
  rw [if_pos ⟨.inl hslash, .inr hlong⟩] at hload
  exact ⟨⟨_, root⟩, hdecode, hm, hload⟩

end Matcher

end TreeSchema
