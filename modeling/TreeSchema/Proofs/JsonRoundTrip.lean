import TreeSchema.Format
import TreeSchema.Json.Encode
import TreeSchema.Proofs.JsonText

/-!
# Documents that read back

A written document reads back to itself, whatever its layout, as long as the layout consists of
spaces (`Layout.IsBlank`), no numbers stand in the document (`HasNoNumber`), and there is room for
its levels (`levels`). **Reading undoes writing** is `decode_encode`.

Two things carry the proof. The escape of a character is read to the units of the character, in
front of whatever is read after it (`scanString_escapeChar`), so the escapes of a text are read to
the units of the text, and these join to the text again. And each part of a document leaves exactly
the rest of the text (`Reads`), so that the parts of an array or of an object are read one after the
other: the spaces between them are skipped, and no part begins with a space.

A document is written in one recursion and read in another. The recursion of writing is the one that
is followed (`reads_chars`), because it knows what comes next, and each of its equations is met by a
small lemma on the reader of the same part (`reads_items`, `reads_members` and the like), which says
what the reader does when its parts have been read. What follows a part decides how the reader goes
on: the bracket that closes, or a comma (`Continues`). In this way the rest of the text, which may
be anything, is only carried along.

Numbers are left out for two reasons. A number that is read goes on as long as its characters do, so
that it depends on what follows it, where everything else ends by itself. And the documents that are
written here have none, being made of texts.

Room is asked for by levels: an array or an object takes one, and what is inside of it has one less.
No more than that is needed, as the reader goes down exactly as far as the document does.
-/

namespace TreeSchema

namespace Json

/-! ## Spaces -/

/-- **The layouts that an indentation asks for**: none at all, a number of spaces, or a text of
spaces. -/
inductive Layout.IsBlank : Layout → Prop
  | oneLine : IsBlank .oneLine
  | spaces (n : Int) : IsBlank (.spaces n)
  | lines {unit : String} (h : ∀ c ∈ unit.toList, isSpace c = true) : IsBlank (.lines unit)

/-- Spaces in front are skipped. -/
theorem skipSpaces_append {front : List Char} (h : ∀ c ∈ front, isSpace c = true)
    (cs : List Char) : skipSpaces (front ++ cs) = skipSpaces cs :=
  List.dropWhile_append_of_pos h

/-- Anything else is not. -/
theorem skipSpaces_cons {c : Char} (h : isSpace c = false) (cs : List Char) :
    skipSpaces (c :: cs) = c :: cs :=
  List.dropWhile_cons_of_neg (Bool.eq_false_iff.1 h)

namespace Layout

variable {l : Layout}

/-- A line begins with a line feed and with spaces. -/
theorem isSpace_of_mem_lines {unit : String} (h : ∀ c ∈ unit.toList, isSpace c = true) {depth : Nat}
    {c : Char} (hc : c ∈ (Layout.lines unit).lineStart depth) : isSpace c = true := by
  obtain rfl | hc := List.mem_cons.1 hc
  · rfl
  · obtain ⟨cs, hcs, hc⟩ := List.mem_flatten.1 hc
    rw [List.eq_of_mem_replicate hcs] at hc
    exact h c hc

/-- The start of a line has spaces only, in every layout. -/
theorem IsBlank.isSpace_of_mem (hl : l.IsBlank) {depth : Nat} {c : Char}
    (hc : c ∈ l.lineStart depth) : isSpace c = true := by
  cases hl with
  | oneLine => cases hc
  | lines h => exact isSpace_of_mem_lines h hc
  | spaces n =>
    refine isSpace_of_mem_lines (fun c hc => ?_) hc
    rw [String.toList_ofList] at hc
    rw [List.eq_of_mem_replicate hc]
    rfl

/-- The start of a line is skipped. -/
theorem IsBlank.skipSpaces_lineStart (hl : l.IsBlank) (depth : Nat) (cs : List Char) :
    skipSpaces (l.lineStart depth ++ cs) = skipSpaces cs :=
  skipSpaces_append (fun _ => hl.isSpace_of_mem) cs

/-- Between two parts stands a comma, with a space after it or none. -/
theorem skipSpaces_separator (l : Layout) (cs : List Char) :
    ∃ r, skipSpaces (l.separator ++ cs) = ',' :: r ∧ skipSpaces r = skipSpaces cs := by
  cases l with
  | oneLine =>
    have hspace : ∀ c ∈ [' '], isSpace c = true := List.all_eq_true.1 rfl
    exact ⟨' ' :: cs, skipSpaces_cons rfl _, skipSpaces_append hspace cs⟩
  | lines unit => exact ⟨cs, skipSpaces_cons rfl _, rfl⟩

end Layout

/-! ## Strings

A string is scanned to units of sixteen bits, of which two may belong to one character, and the
units are joined at its end. The lemmas say what one escape is scanned to, in front of a string that
is scanned already; so a text is an induction from its end. -/

section Strings

variable {start r rest : List Char} {us : List Nat}

/-- The closing quote at least is there to be read. -/
theorem ne_nil_of_scanString (h : scanString start r = .ok (us, rest)) : r ≠ [] := by
  rintro rfl
  cases h

/-- A letter after a backslash is read to the character that it stands for. -/
theorem scanString_short {e c : Char} (hc : shortEscape? e = some c)
    (h : scanString start r = .ok (us, rest)) :
    scanString start ('\\' :: e :: r) = .ok (c.toNat :: us, rest) := by
  have hu : e ≠ 'u' := by
    rintro rfl
    cases hc
  rw [scanString, hc]
  · show pushCode c.toNat (scanString start r) = _
    rw [h]
    rfl
  · exact fun _ _ _ _ _ heq => absurd heq hu
  · exact hu

/-- Four digits after a backslash and a letter are read to the unit that they spell. -/
theorem scanString_unit {u : Nat} (hu : u < 0x10000) (h : scanString start r = .ok (us, rest)) :
    scanString start ('\\' :: 'u' :: Text.hexDigits 4 u ++ r) = .ok (u :: us, rest) := by
  obtain ⟨a, b, c, d, hdigits⟩ : ∃ a b c d, Text.hexDigits 4 u = [a, b, c, d] :=
    ⟨_, _, _, _, rfl⟩
  have hvalue : Text.hexNumber? [a, b, c, d] = some u := by
    rw [← hdigits, Text.hexNumber?_hexDigits]
    exact congrArg some (Nat.mod_eq_of_lt hu)
  have hr : r.isEmpty = false := by
    rw [List.isEmpty_eq_false_iff]
    exact ne_nil_of_scanString h
  show scanString start ('\\' :: 'u' :: (Text.hexDigits 4 u ++ r)) = _
  rw [hdigits]
  show scanString start ('\\' :: 'u' :: a :: b :: c :: d :: r) = _
  rw [scanString, hvalue]
  show (if r.isEmpty then _ else pushCode u (scanString start r)) = _
  rw [hr, h]
  rfl

/-- A character that needs no escape is read to itself. -/
theorem scanString_plain {c : Char} (hquote : c ≠ '"') (hslash : c ≠ '\\') (hc : 0x20 ≤ c.toNat)
    (h : scanString start r = .ok (us, rest)) :
    scanString start (c :: r) = .ok (c.toNat :: us, rest) := by
  rw [scanString, if_neg (Nat.not_lt.2 hc), h]
  · rfl
  · exact hquote
  · exact fun heq _ => hslash heq
  · exact fun _ _ _ _ _ heq _ => hslash heq
  · exact fun _ heq _ => hslash heq
  · exact fun _ _ heq _ => hslash heq

/-- The escapes of units are read to the units. -/
theorem scanString_units {ws : List Nat} (hws : ∀ u ∈ ws, u < 0x10000)
    (h : scanString start r = .ok (us, rest)) :
    scanString start (ws.flatMap (fun u => '\\' :: 'u' :: Text.hexDigits 4 u) ++ r)
      = .ok (ws ++ us, rest) := by
  induction ws with
  | nil => exact h
  | cons w ws ih =>
    rw [List.flatMap_cons, List.append_assoc]
    exact scanString_unit (hws w (.head _)) (ih fun u hu => hws u (.tail _ hu))

/-- **The escape of a character** is read to the units of the character, in front of what is read
after it. -/
theorem scanString_escapeChar (c : Char) (h : scanString start r = .ok (us, rest)) :
    scanString start (escapeChar c ++ r) = .ok (Text.units c ++ us, rest) := by
  unfold escapeChar
  -- Seven characters are escaped by a letter.
  iterate 7
    split
    · rename_i hc
      subst hc
      exact scanString_short rfl h
  rename_i hquote hslash _ _ _ _ _
  split
  · rename_i hc
    rw [Bool.and_eq_true, decide_eq_true_eq, decide_eq_true_eq] at hc
    rw [Text.units, if_pos (by omega)]
    exact scanString_plain hquote hslash hc.1 h
  · exact scanString_units (fun u hu => Text.lt_of_mem_units hu) h

/-- The escapes of a text are read to its units, up to the closing quote. -/
theorem scanString_flatMap_escapeChar (start : List Char) (cs rest : List Char) :
    scanString start (cs.flatMap escapeChar ++ '"' :: rest)
      = .ok (cs.flatMap Text.units, rest) := by
  induction cs with
  | nil => rw [List.flatMap_nil, List.nil_append, scanString, List.flatMap_nil]
  | cons c cs ih =>
    rw [List.flatMap_cons, List.append_assoc, List.flatMap_cons]
    exact scanString_escapeChar c ih

end Strings

/-! ## What the readers read

A reader takes a proof along that the rest is shorter than the text. `Reads` leaves it out: what is
said is that there is a result, its value and its rest. -/

/-- **A reader reads a value** from the start of a text, and leaves the rest of the text. -/
def Reads {α : Type} {cs : List Char} (result : Except Stop (Read α cs)) (a : α)
    (rest : List Char) : Prop :=
  ∃ p, result = .ok p ∧ p.value = a ∧ p.rest = rest

/-- A string reads back from its escapes. -/
theorem reads_string (start : List Char) (s : String) (rest : List Char) :
    Reads (readString start (s.toList.flatMap escapeChar ++ '"' :: rest)) s rest := by
  have hscan := scanString_flatMap_escapeChar start s.toList rest
  unfold readString
  split
  · rename_i us rest' h
    cases h.symm.trans hscan
    refine ⟨_, rfl, ?_, rfl⟩
    show String.ofList (Text.ofUnits (s.toList.flatMap Text.units)) = s
    rw [Text.ofUnits_units, String.ofList_toList]
  · rename_i h
    cases h.symm.trans hscan

/-- A written string between its quotes. -/
theorem stringChars_append (s : String) (rest : List Char) :
    stringChars s ++ rest = '"' :: (s.toList.flatMap escapeChar ++ '"' :: rest) := by
  simp only [stringChars, List.cons_append, List.append_assoc, List.nil_append]

/-- A written string is read as a value. -/
theorem reads_stringChars (room : Room) (s : String) (rest : List Char) :
    Reads (readValue room (stringChars s ++ rest)) (.text s) rest := by
  rw [stringChars_append, readValue]
  obtain ⟨p, hp, hvalue, hrest⟩ := reads_string _ s rest
  rw [hp]
  exact ⟨_, rfl, congrArg Json.text hvalue, hrest⟩

/-- A word is read to its value, whatever follows it. -/
theorem reads_word {room : Room} {w : String × Json} {cs : List Char} (hw : word? cs = some w)
    (hcs : cs.head? ≠ some '"' ∧ cs.head? ≠ some '[' ∧ cs.head? ≠ some '\x7b') :
    Reads (readValue room cs) w.2 (cs.drop w.1.length) := by
  unfold readValue
  split
  · exact absurd rfl hcs.1
  · exact absurd rfl hcs.2.1
  · exact absurd rfl hcs.2.2
  · split
    · rename_i w' h
      cases h.symm.trans hw
      exact ⟨_, rfl, rfl, rfl⟩
    · rename_i h
      cases h.symm.trans hw

/-- **What follows a part** of an array or of an object: the closing bracket, or a comma and the
other parts. -/
inductive Continues {α : Type} (bracket : Char)
    (read : (cs : List Char) → Except Stop (Read (List α) cs)) (t : List Char) :
    List α → List Char → Prop
  | close {rest : List Char} (h : skipSpaces t = bracket :: rest) : Continues bracket read t [] rest
  | comma {r rest : List Char} {more : List α} (h : skipSpaces t = ',' :: r)
    (hmore : Reads (read (skipSpaces r)) more rest) : Continues bracket read t more rest

/-! ### Arrays -/

section Arrays

variable {room inner : Room} {cs t rest : List Char} {j : Json} {js : List Json}

/-- An array is read behind its bracket, one level down. -/
theorem reads_value_array (hroom : room.enter Stop.tooDeep = .ok inner)
    (h : Reads (readArray inner cs) js rest) :
    Reads (readValue room ('[' :: cs)) (.array js) rest := by
  obtain ⟨p, hp, hvalue, hrest⟩ := h
  rw [readValue, hroom]
  dsimp only [bind, Except.bind]
  rw [hp]
  exact ⟨_, rfl, congrArg Json.array hvalue, hrest⟩

/-- An array without items. -/
theorem reads_array_nil (h : skipSpaces cs = ']' :: rest) :
    Reads (readArray room cs) [] rest := by
  unfold readArray
  dsimp only
  split
  · rename_i r hr
    cases hr.symm.trans h
    exact ⟨_, rfl, rfl, rfl⟩
  · rename_i hne
    exact absurd h (hne rest)

/-- An array is read by its items where no bracket closes it at once. -/
theorem reads_array (hne : ∀ r, skipSpaces cs ≠ ']' :: r)
    (h : Reads (readItems room (skipSpaces cs)) js rest) : Reads (readArray room cs) js rest := by
  obtain ⟨p, hp, hvalue, hrest⟩ := h
  unfold readArray
  dsimp only
  split
  · rename_i r hr
    exact absurd hr (hne r)
  · rw [hp]
    exact ⟨_, rfl, hvalue, hrest⟩

/-- An item is read, and then what follows it. -/
theorem reads_items (hj : Reads (readValue room cs) j t)
    (ht : Continues ']' (readItems room) t js rest) :
    Reads (readItems room cs) (j :: js) rest := by
  obtain ⟨p, hp, rfl, rfl⟩ := hj
  unfold readItems
  rw [hp]
  dsimp only [bind, Except.bind]
  split
  · rename_i r hr
    cases ht with
    | close h =>
      cases hr.symm.trans h
      exact ⟨_, rfl, rfl, rfl⟩
    | comma h _ => cases hr.symm.trans h
  · rename_i r hr
    cases ht with
    | close h => cases hr.symm.trans h
    | comma h hmore =>
      cases hr.symm.trans h
      obtain ⟨q, hq, rfl, rfl⟩ := hmore
      rw [hq]
      exact ⟨_, rfl, rfl, rfl⟩
  · rename_i hclose hcomma
    cases ht with
    | close h => exact absurd h (hclose _)
    | comma h _ => exact absurd h (hcomma _)

end Arrays

/-! ### Objects -/

section Objects

variable {room inner : Room} {cs r₁ r₂ t rest : List Char} {name : String} {j : Json}
  {ms : List (String × Json)}

/-- An object is read behind its brace, one level down. -/
theorem reads_value_object (hroom : room.enter Stop.tooDeep = .ok inner)
    (h : Reads (readObject inner cs) ms rest) :
    Reads (readValue room ('\x7b' :: cs)) (.object ms) rest := by
  obtain ⟨p, hp, hvalue, hrest⟩ := h
  rw [readValue, hroom]
  dsimp only [bind, Except.bind]
  rw [hp]
  exact ⟨_, rfl, congrArg Json.object hvalue, hrest⟩

/-- An object without members. -/
theorem reads_object_nil (h : skipSpaces cs = '\x7d' :: rest) :
    Reads (readObject room cs) [] rest := by
  unfold readObject
  dsimp only
  split
  · rename_i r hr
    cases hr.symm.trans h
    exact ⟨_, rfl, rfl, rfl⟩
  · rename_i hne
    exact absurd h (hne rest)

/-- An object is read by its members where no brace closes it at once. -/
theorem reads_object (hne : ∀ r, skipSpaces cs ≠ '\x7d' :: r)
    (h : Reads (readMembers room (skipSpaces cs)) ms rest) :
    Reads (readObject room cs) ms rest := by
  obtain ⟨p, hp, hvalue, hrest⟩ := h
  unfold readObject
  dsimp only
  split
  · rename_i r hr
    exact absurd hr (hne r)
  · rw [hp]
    exact ⟨_, rfl, hvalue, hrest⟩

/-- A name is read, the colon, the value, and then what follows. -/
theorem reads_members (hname : Reads (readString ('"' :: cs) cs) name r₁)
    (hcolon : skipSpaces r₁ = ':' :: r₂) (hj : Reads (readValue room (skipSpaces r₂)) j t)
    (ht : Continues '\x7d' (readMembers room) t ms rest) :
    Reads (readMembers room ('"' :: cs)) ((name, j) :: ms) rest := by
  obtain ⟨n, hn, rfl, rfl⟩ := hname
  rw [readMembers, hn]
  dsimp only [bind, Except.bind]
  split
  · rename_i r' hr
    cases hr.symm.trans hcolon
    obtain ⟨p, hp, rfl, rfl⟩ := hj
    rw [hp]
    dsimp only
    split
    · rename_i r hr
      cases ht with
      | close h =>
        cases hr.symm.trans h
        exact ⟨_, rfl, rfl, rfl⟩
      | comma h _ => cases hr.symm.trans h
    · rename_i r hr
      cases ht with
      | close h => cases hr.symm.trans h
      | comma h hmore =>
        cases hr.symm.trans h
        obtain ⟨q, hq, rfl, rfl⟩ := hmore
        rw [hq]
        exact ⟨_, rfl, rfl, rfl⟩
    · rename_i hclose hcomma
      cases ht with
      | close h => exact absurd h (hclose _)
      | comma h _ => exact absurd h (hcomma _)
  · rename_i hne
    exact absurd hcolon (hne r₂)

end Objects

/-! ## Documents

What is written begins with one of a few characters, of which none is a space or a closing bracket.
So the reader, having skipped what stands in front, comes to the part itself. -/

mutual

/-- Whether no number stands in a document. -/
def HasNoNumber : Json → Prop
  | int _ | real _ => False
  | null | bool _ | text _ => True
  | array js => HaveNoNumber js
  | object ms => HasNoNumberInside ms

/-- Whether no number stands in the items of an array. -/
def HaveNoNumber : List Json → Prop
  | [] => True
  | j :: js => j.HasNoNumber ∧ HaveNoNumber js

/-- Whether no number stands in the members of an object. -/
def HasNoNumberInside : List (String × Json) → Prop
  | [] => True
  | (_, j) :: ms => j.HasNoNumber ∧ HasNoNumberInside ms

end

/-- The characters that a document without numbers begins with. -/
def beginnings : List Char := ['n', 't', 'f', '"', '[', '\x7b']

/-- A written document begins with one of them. -/
theorem exists_chars_eq_cons (l : Layout) (depth : Nat) {j : Json} (hj : j.HasNoNumber) :
    ∃ c ∈ beginnings, ∃ cs, chars l depth j = c :: cs := by
  cases j with
  | null => exact ⟨'n', by decide, _, rfl⟩
  | bool b =>
    cases b with
    | true => exact ⟨'t', by decide, _, rfl⟩
    | false => exact ⟨'f', by decide, _, rfl⟩
  | int n => exact hj.elim
  | real x => exact hj.elim
  | text s => exact ⟨'"', by decide, _, rfl⟩
  | array js => cases js <;> exact ⟨'[', by decide, _, rfl⟩
  | object ms => cases ms <;> exact ⟨'\x7b', by decide, _, rfl⟩

/-- No spaces are skipped in front of a document. -/
theorem skipSpaces_chars (l : Layout) (depth : Nat) {j : Json} (hj : j.HasNoNumber)
    (rest : List Char) : skipSpaces (chars l depth j ++ rest) = chars l depth j ++ rest := by
  have hspace : ∀ c ∈ beginnings, (!isSpace c) = true := List.all_eq_true.1 rfl
  obtain ⟨c, hc, cs, hcs⟩ := exists_chars_eq_cons l depth hj
  rw [hcs]
  exact skipSpaces_cons (by simpa using hspace c hc) _

/-- It does not begin with a closing bracket. -/
theorem chars_append_ne_bracket (l : Layout) (depth : Nat) {j : Json} (hj : j.HasNoNumber)
    (cs r : List Char) : chars l depth j ++ cs ≠ ']' :: r := by
  obtain ⟨c, hc, cs', hcs⟩ := exists_chars_eq_cons l depth hj
  rw [hcs]
  rintro ⟨⟩
  exact absurd hc (by decide)

/-- No spaces are skipped in front of a string. -/
theorem skipSpaces_stringChars (s : String) (rest : List Char) :
    skipSpaces (stringChars s ++ rest) = stringChars s ++ rest := by
  rw [stringChars_append]
  exact skipSpaces_cons rfl _

/-- How an array with an item is written. -/
theorem chars_array_append (l : Layout) (depth : Nat) (j : Json) (js : List Json)
    (rest : List Char) :
    chars l depth (.array (j :: js)) ++ rest
      = '[' :: (l.lineStart (depth + 1) ++ (chars l (depth + 1) j ++
          (itemChars l (depth + 1) js ++ (l.lineStart depth ++ ']' :: rest)))) := by
  simp only [chars, List.cons_append, List.append_assoc, List.nil_append]

/-- How an object with a member is written. -/
theorem chars_object_append (l : Layout) (depth : Nat) (name : String) (j : Json)
    (ms : List (String × Json)) (rest : List Char) :
    chars l depth (.object ((name, j) :: ms)) ++ rest
      = '\x7b' :: (l.lineStart (depth + 1) ++ (stringChars name ++ (':' :: ' ' ::
          (chars l (depth + 1) j ++ (memberChars l (depth + 1) ms ++
            (l.lineStart depth ++ '\x7d' :: rest)))))) := by
  simp only [chars, List.cons_append, List.append_assoc, List.nil_append]

/-- A written member is read to its name and its value, together with those that follow it. -/
theorem reads_members_chars (l : Layout) (depth : Nat) (name : String) {j : Json}
    (hnum : j.HasNoNumber) {room : Room} {t cs rest : List Char} {ms : List (String × Json)}
    (hj : Reads (readValue room (chars l depth j ++ cs)) j t)
    (ht : Continues '\x7d' (readMembers room) t ms rest) :
    Reads (readMembers room (stringChars name ++ (':' :: ' ' :: (chars l depth j ++ cs))))
      ((name, j) :: ms) rest := by
  rw [stringChars_append]
  refine reads_members (reads_string _ name _) (skipSpaces_cons rfl _) ?_ ht
  show Reads (readValue room (skipSpaces (chars l depth j ++ cs))) j t
  rwa [skipSpaces_chars l depth hnum]

mutual

/-- **How many levels a document goes down**: one for an array or an object, and those of what is
in it. -/
def levels : Json → Nat
  | array items => itemLevels items + 1
  | object members => memberLevels members + 1
  | _ => 0

/-- How many levels the items of an array go down. -/
def itemLevels : List Json → Nat
  | [] => 0
  | j :: js => max j.levels (itemLevels js)

/-- How many levels the members of an object go down. -/
def memberLevels : List (String × Json) → Nat
  | [] => 0
  | (_, j) :: ms => max j.levels (memberLevels ms)

end

section Layouts

variable {l : Layout}

-- The recursion is the one that writes a document; what is read first is at the front of the text.
mutual

/-- A written document is read to itself if there is room for it, and what follows it is left. -/
theorem reads_chars (hl : l.IsBlank) (depth : Nat) : ∀ {room : Room} {j : Json}, j.HasNoNumber →
    room.Fits j.levels → ∀ rest, Reads (readValue room (chars l depth j ++ rest)) j rest
  | _, .null, _, _, rest => reads_word (w := ("null", .null)) rfl (by simp [chars])
  | _, .bool true, _, _, rest => reads_word (w := ("true", .bool true)) rfl (by simp [chars])
  | _, .bool false, _, _, rest => reads_word (w := ("false", .bool false)) rfl (by simp [chars])
  | _, .text s, _, _, rest => reads_stringChars _ s rest
  | _, .array [], _, hroom, rest => by
    obtain ⟨inner, henter, -⟩ := hroom.exists_enter Stop.tooDeep
    exact reads_value_array henter (reads_array_nil (skipSpaces_cons rfl rest))
  -- What follows an element or a member is read from where its own text ends, so the text behind it
  -- is arbitrary in every statement here.
  | _, .array (j :: js), hj, hroom, rest => by
    obtain ⟨inner, henter, hinner⟩ := hroom.exists_enter Stop.tooDeep
    have htail : skipSpaces (l.lineStart depth ++ ']' :: rest) = ']' :: rest :=
      (hl.skipSpaces_lineStart depth _).trans (skipSpaces_cons rfl rest)
    have hitems := reads_items
      (reads_chars hl (depth + 1) hj.1 (hinner.mono (Nat.le_max_left _ _)) _)
      (continues_itemChars hl (depth + 1) hj.2 (hinner.mono (Nat.le_max_right _ _)) htail)
    rw [chars_array_append]
    refine reads_value_array henter (reads_array (fun r => ?_) ?_)
    · rw [hl.skipSpaces_lineStart, skipSpaces_chars l (depth + 1) hj.1]
      exact chars_append_ne_bracket l (depth + 1) hj.1 _ r
    · rwa [hl.skipSpaces_lineStart, skipSpaces_chars l (depth + 1) hj.1]
  | _, .object [], _, hroom, rest => by
    obtain ⟨inner, henter, -⟩ := hroom.exists_enter Stop.tooDeep
    exact reads_value_object henter (reads_object_nil (skipSpaces_cons rfl rest))
  | _, .object ((name, j) :: ms), hj, hroom, rest => by
    obtain ⟨inner, henter, hinner⟩ := hroom.exists_enter Stop.tooDeep
    have htail : skipSpaces (l.lineStart depth ++ '\x7d' :: rest) = '\x7d' :: rest :=
      (hl.skipSpaces_lineStart depth _).trans (skipSpaces_cons rfl rest)
    have hmembers := reads_members_chars l (depth + 1) name hj.1
      (reads_chars hl (depth + 1) hj.1 (hinner.mono (Nat.le_max_left _ _)) _)
      (continues_memberChars hl (depth + 1) hj.2 (hinner.mono (Nat.le_max_right _ _)) htail)
    rw [chars_object_append]
    refine reads_value_object henter (reads_object (fun r => ?_) ?_)
    · rw [hl.skipSpaces_lineStart, skipSpaces_stringChars, stringChars_append]
      exact fun heq => absurd (List.cons.inj heq).1 (by decide)
    · rwa [hl.skipSpaces_lineStart, skipSpaces_stringChars]

/-- The items after the first one are read as they are written, up to the bracket. -/
theorem continues_itemChars (hl : l.IsBlank) (depth : Nat) : ∀ {room : Room} {js : List Json},
    HaveNoNumber js → room.Fits (itemLevels js) →
      ∀ {tail rest : List Char}, skipSpaces tail = ']' :: rest →
        Continues ']' (readItems room) (itemChars l depth js ++ tail) js rest
  | _, [], _, _, tail, rest, ht => .close ht
  | _, j :: js, hjs, hroom, tail, rest, ht => by
    simp only [itemChars, List.append_assoc]
    obtain ⟨r, hcomma, hr⟩ := l.skipSpaces_separator _
    refine .comma hcomma ?_
    rw [hr, hl.skipSpaces_lineStart, skipSpaces_chars l depth hjs.1]
    exact reads_items (reads_chars hl depth hjs.1 (hroom.mono (Nat.le_max_left _ _)) _)
      (continues_itemChars hl depth hjs.2 (hroom.mono (Nat.le_max_right _ _)) ht)

/-- The members after the first one are read as they are written, up to the brace. -/
theorem continues_memberChars (hl : l.IsBlank) (depth : Nat) : ∀ {room : Room}
    {ms : List (String × Json)}, HasNoNumberInside ms → room.Fits (memberLevels ms) →
      ∀ {tail rest : List Char}, skipSpaces tail = '\x7d' :: rest →
        Continues '\x7d' (readMembers room) (memberChars l depth ms ++ tail) ms rest
  | _, [], _, _, tail, rest, ht => .close ht
  | _, (name, j) :: ms, hms, hroom, tail, rest, ht => by
    simp only [memberChars, List.append_assoc]
    obtain ⟨r, hcomma, hr⟩ := l.skipSpaces_separator _
    refine .comma hcomma ?_
    rw [hr, hl.skipSpaces_lineStart, skipSpaces_stringChars]
    exact reads_members_chars l depth name hms.1
      (reads_chars hl depth hms.1 (hroom.mono (Nat.le_max_left _ _)) _)
      (continues_memberChars hl depth hms.2 (hroom.mono (Nat.le_max_right _ _)) ht)

end

/-- A text is read to a document that stands between spaces. -/
theorem readDocument_eq_ok {room : Room} {cs t : List Char} {j : Json}
    (hcs : cs.head? ≠ some '\uFEFF') (hj : Reads (readValue room (skipSpaces cs)) j t)
    (ht : skipSpaces t = []) : readDocument room cs = .ok j := by
  obtain ⟨p, hp, rfl, rfl⟩ := hj
  unfold readDocument
  rw [if_neg hcs, hp]
  dsimp only [bind, Except.bind, pure, Except.pure]
  rw [ht]

/-- **Reading undoes writing**: a document without numbers reads back from its text, in every layout
that consists of spaces and on every stack that has room for its levels. -/
theorem decode_encode (hl : l.IsBlank) {room : Room} {j : Json} (hj : j.HasNoNumber)
    (hroom : room.Fits j.levels) : decode room (encode l j) = .ok j := by
  rw [decode_eq_ok_iff, encode, String.toList_ofList]
  have hread := reads_chars hl 0 hj hroom []
  rw [← skipSpaces_chars l 0 hj, List.append_nil] at hread
  refine readDocument_eq_ok ?_ hread rfl
  obtain ⟨c, hc, cs, hcs⟩ := exists_chars_eq_cons l 0 hj
  rw [hcs]
  rintro ⟨⟩
  exact absurd hc (by decide)

end Layouts

end Json

/-- What is decoded from the text of a document is its data tree. -/
theorem Format.decode_json_encode {l : Json.Layout} (hl : l.IsBlank) {j : Json}
    (hj : j.HasNoNumber) {stack : Stack} (hroom : stack.json.Fits j.levels) :
    Format.json.decode stack (Json.encode l j) = .ok (.tree j.toValue) := by
  rw [decode, Json.decode_encode hl hj hroom]
  rfl

end TreeSchema
