import TreeSchema.Json.Decode
import TreeSchema.Proofs.Description

/-!
# The characters of a JSON text

A reader of documents goes through a text from its start, and what it used is the part in front of
the rest that it gives back. All the characters that it can use are spaces or no control characters
(`Json.Uses`), since strings refuse any other and everything else is spelled in ASCII. So the whole
text of a document is made of such characters, and the text of an object begins with a brace and
ends with one, apart from the spaces around it (`Json.decode_object`).

This is a statement about texts that are read, made without knowing to what. It is used where a text
is taken for something else first: a document that is handed over as a text may be the path of a
file, and whether it can be is a question about its characters alone.

There is one lemma for each of the readers, and they are put together in the order in which a reader
calls the others. What is used is composed: after one reader the next one goes on from the rest
(`Json.Uses.trans`), and a character that a reader takes by itself stands in front
(`Json.Uses.ascii`). The readers of arrays and of objects call the reader of values and are called
by it, so their lemmas are one mutual recursion, with the measure of the readers.
-/

namespace TreeSchema.Json

/-- Whether a character may stand in a document: a space, or any that is no control character. -/
def IsTextChar (c : Char) : Prop := isSpace c = true ∨ 0x20 ≤ c.toNat

/-- **What a reader used of a text**, down to the rest, is made of characters that may stand in a
document. -/
def Uses (cs rest : List Char) : Prop := ∃ used, cs = used ++ rest ∧ ∀ c ∈ used, IsTextChar c

namespace Uses

variable {cs ds es : List Char}

/-- Nothing is used. -/
theorem refl (cs : List Char) : Uses cs cs := ⟨[], rfl, List.forall_mem_nil _⟩

/-- One reader goes on from the rest of another one. -/
theorem trans (h : Uses cs ds) (h' : Uses ds es) : Uses cs es := by
  obtain ⟨used, rfl, hused⟩ := h
  obtain ⟨more, rfl, hmore⟩ := h'
  exact ⟨used ++ more, (List.append_assoc _ _ _).symm, List.forall_mem_append.2 ⟨hused, hmore⟩⟩

/-- A character more is used in front. -/
theorem cons {c : Char} (hc : IsTextChar c) (h : Uses cs ds) : Uses (c :: cs) ds := by
  obtain ⟨used, rfl, hused⟩ := h
  exact ⟨c :: used, rfl, List.forall_mem_cons.2 ⟨hc, hused⟩⟩

/-- A run of characters is used. -/
theorem of_append {used : List Char} (h : ∀ c ∈ used, IsTextChar c) (rest : List Char) :
    Uses (used ++ rest) rest :=
  ⟨used, rfl, h⟩

/-- A character of ASCII that is used by itself. -/
theorem ascii {c : Char} (h : Uses cs ds) (hc : 0x20 ≤ c.toNat := by decide) : Uses (c :: cs) ds :=
  h.cons (.inr hc)

/-- What passes a test is used if the test lets through no control characters. -/
theorem takeWhile {p : Char → Bool} (hp : ∀ c, p c = true → IsTextChar c) (cs : List Char) :
    Uses cs (cs.drop (cs.takeWhile p).length) := by
  refine ⟨cs.takeWhile p, ?_, fun c hc => hp c (List.all_eq_true.1 List.all_takeWhile c hc)⟩
  have hdrop : (cs.takeWhile p ++ cs.dropWhile p).drop (cs.takeWhile p).length = cs.dropWhile p :=
    List.drop_left
  rw [List.takeWhile_append_dropWhile] at hdrop
  rw [hdrop, List.takeWhile_append_dropWhile]

end Uses

/-- Where nothing is left but spaces, there have been spaces only. -/
theorem forall_isSpace_of_skipSpaces {cs : List Char} (h : skipSpaces cs = []) :
    ∀ c ∈ cs, isSpace c = true := by
  have hall : cs.takeWhile isSpace = cs := by
    have hsplit := List.takeWhile_append_dropWhile (p := isSpace) (l := cs)
    rwa [show cs.dropWhile isSpace = [] from h, List.append_nil] at hsplit
  rw [← hall]
  exact List.all_eq_true.1 List.all_takeWhile

/-- Spaces are used. -/
theorem uses_skipSpaces (cs : List Char) : Uses cs (skipSpaces cs) :=
  ⟨cs.takeWhile isSpace, List.takeWhile_append_dropWhile.symm,
    fun c hc => .inl (List.all_eq_true.1 List.all_takeWhile c hc)⟩

/-- A mark that comes next is used, so that what comes behind it is shorter. -/
theorem length_skipSpaces_of_mark {cs r : List Char} {mark : Char} (h : skipSpaces cs = mark :: r) :
    (skipSpaces r).length < cs.length := by
  have hle := length_skipSpaces_le cs
  rw [h, List.length_cons] at hle
  exact Nat.lt_of_le_of_lt (length_skipSpaces_le r) hle

/-! ## Strings

Inside of a string every character may stand that is no control character; behind a backslash only
some of ASCII may. -/

/-- The letters of escapes are in ASCII. -/
theorem isTextChar_of_shortEscape? {e c : Char} (h : shortEscape? e = some c) : IsTextChar e := by
  unfold shortEscape? at h
  split at h
  case h_9 => cases h
  all_goals exact .inr (by decide)

/-- So are the digits of numbers in base sixteen. -/
theorem isTextChar_of_hexValue? {c : Char} {n : Nat} (h : Text.hexValue? c = some n) :
    IsTextChar c := by
  -- The least digit of any kind is the zero.
  have hle : ∀ {d : Char}, '0' ≤ d → d ≤ c → IsTextChar c :=
    fun hd hc => .inr (Nat.le_trans (by decide) (Nat.le_trans hd hc))
  simp only [Text.hexValue?, Bool.and_eq_true, decide_eq_true_eq] at h
  split at h
  · rename_i hc
    exact hle (Nat.le_refl _) hc.1
  · split at h
    · rename_i hc
      exact hle (by decide) hc.1
    · split at h
      · rename_i hc
        exact hle (by decide) hc.1
      · cases h

/-- A number in base sixteen consists of such digits. -/
theorem isTextChar_of_hexNumber? {cs : List Char} {n : Nat} (h : Text.hexNumber? cs = some n) :
    ∀ c ∈ cs, IsTextChar c := by
  unfold Text.hexNumber? at h
  generalize 0 = k at h
  induction cs generalizing k with
  | nil => exact List.forall_mem_nil _
  | cons c cs ih =>
    rw [List.foldlM_cons, Option.bind_eq_bind, Option.bind_eq_some_iff] at h
    obtain ⟨m, hm, h⟩ := h
    obtain ⟨d, hd, -⟩ := Option.map_eq_some_iff.1 hm
    exact List.forall_mem_cons.2 ⟨isTextChar_of_hexValue? hd, ih m h⟩

/-- A string is used up to its closing quote: an escape is spelled in ASCII, and a control character
is refused. -/
theorem uses_scanString {start cs : List Char} {us : List Nat} {rest : List Char}
    (h : scanString start cs = .ok (us, rest)) : Uses cs rest := by
  fun_induction scanString start cs generalizing us rest with
  | case2 r =>
    cases h
    exact (Uses.refl r).ascii
  | case5 a b c d r u hu hr ih =>
    obtain ⟨vs, hs, rfl⟩ := pushCode_eq_ok_iff.1 h
    exact ((Uses.of_append (isTextChar_of_hexNumber? hu) r).trans (ih hs)).ascii.ascii
  | case8 e r _ _ c he ih =>
    obtain ⟨vs, hs, rfl⟩ := pushCode_eq_ok_iff.1 h
    exact ((ih hs).cons (isTextChar_of_shortEscape? he)).ascii
  | case11 c r _ _ _ _ _ hc ih =>
    obtain ⟨vs, hs, rfl⟩ := pushCode_eq_ok_iff.1 h
    exact (ih hs).cons (.inr (Nat.not_lt.1 hc))
  | case1 | case3 | case4 | case6 | case7 | case9 | case10 => cases h

/-- A string is used up to its closing quote, whatever its units join to. -/
theorem uses_readString {start cs : List Char} {p : Read String cs}
    (h : readString start cs = .ok p) : Uses cs p.rest := by
  unfold readString at h
  split at h
  · rename_i us rest hscan
    cases h
    exact uses_scanString hscan
  · cases h

/-! ## Numbers and words

A number is cut off the text by its parts: digits, a point with digits behind it, an exponent. A
part that is not there uses nothing. -/

/-- Digits are in ASCII. -/
theorem isTextChar_of_isDigit {c : Char} (h : isDigit c = true) : IsTextChar c := by
  rw [isDigit, Bool.and_eq_true, decide_eq_true_eq, decide_eq_true_eq] at h
  exact .inr (Nat.le_trans (by decide) h.1)

/-- The digits in front of the point are used. -/
theorem uses_wholeDigits (cs : List Char) : Uses cs (cs.drop (wholeDigits cs).length) := by
  unfold wholeDigits
  split
  · exact (Uses.refl _).ascii
  · exact .takeWhile (fun _ => isTextChar_of_isDigit) cs

/-- The digits behind the point are used, and the point with them. -/
theorem uses_placeDigits (cs : List Char) :
    Uses cs (if (placeDigits cs).isEmpty then cs else cs.drop ((placeDigits cs).length + 1)) := by
  unfold placeDigits
  split
  · split
    · exact .refl _
    · exact (Uses.takeWhile (fun _ => isTextChar_of_isDigit) _).ascii
  · exact .refl cs

/-- The exponent is used with its letter. -/
theorem uses_exponentChars (cs : List Char) :
    Uses cs
      (if (exponentChars cs).isEmpty then cs else cs.drop ((exponentChars cs).length + 1)) := by
  split
  · exact .refl cs
  · rename_i hne
    revert hne
    unfold exponentChars
    split
    · rename_i c r
      split
      · rename_i hc
        have hmark : 0x20 ≤ c.toNat := by obtain rfl | rfl := hc <;> decide
        split
        · rename_i s t
          split
          · rename_i hs
            have hsign : 0x20 ≤ s.toNat := by obtain rfl | rfl := hs <;> decide
            split
            · exact fun hne => absurd rfl hne
            · exact fun _ => ((Uses.takeWhile (fun _ => isTextChar_of_isDigit) t).ascii hsign).ascii
                hmark
          · exact fun _ => (Uses.takeWhile (fun _ => isTextChar_of_isDigit) _).ascii hmark
        · exact fun hne => absurd rfl hne
      · exact fun hne => absurd rfl hne
    · exact fun hne => absurd rfl hne

/-- A number is used with all its parts. -/
theorem uses_readNumber {cs : List Char} {p : Read Json cs} (h : readNumber cs = .ok p) :
    Uses cs p.rest := by
  unfold readNumber at h
  extract_lets negative body whole at h
  have hsign : Uses cs body := by
    unfold body negative
    cases cs with
    | nil => exact .refl _
    | cons c cs =>
      split
      · rename_i hc
        obtain rfl : c = '-' := by simpa using hc
        exact (Uses.refl cs).ascii
      · exact .refl _
  split at h
  · cases h
  · extract_lets hrest at h
    rename_i afterWhole places afterPlaces exponent rest _ _
    have hall : Uses cs rest := ((hsign.trans (uses_wholeDigits body)).trans
      (uses_placeDigits afterWhole)).trans (uses_exponentChars afterPlaces)
    split at h
    · split at h
      · cases h
        exact hall
      · cases h
    · cases h
      exact hall

/-- A word is used by itself. -/
theorem uses_word {cs : List Char} {w : String × Json} (h : word? cs = some w) :
    Uses cs (cs.drop w.1.length) := by
  have hp : w.1.toList.isPrefixOf cs = true := by
    have := List.find?_some h
    simpa using this
  have hwords : ∀ w ∈ words, w.1.toList.all (fun c => 0x20 ≤ c.toNat) = true :=
    List.all_eq_true.1 rfl
  have hw := List.all_eq_true.1 (hwords w (List.mem_of_find?_eq_some h))
  obtain ⟨rest, rfl⟩ := List.isPrefixOf_iff_prefix.1 hp
  rw [← String.length_toList, List.drop_left]
  exact .of_append (fun c hc => .inr (of_decide_eq_true (hw c hc))) rest

/-! ## Documents

A value is used by the reader of its kind. Of an object the closing brace is kept apart, as it is
what the text of an object ends with. -/

mutual

/-- A value of any kind. -/
theorem uses_readValue {room : Room} {cs : List Char} {p : Read Json cs}
    (h : readValue room cs = .ok p) : Uses cs p.rest := by
  unfold readValue at h
  split at h
  · obtain ⟨q, hq, h⟩ := bind_eq_ok_iff.1 h
    cases h
    exact (uses_readString hq).ascii
  · obtain ⟨inner, -, h⟩ := bind_eq_ok_iff.1 h
    obtain ⟨q, hq, h⟩ := bind_eq_ok_iff.1 h
    cases h
    exact (uses_readArray hq).ascii
  · obtain ⟨inner, -, h⟩ := bind_eq_ok_iff.1 h
    obtain ⟨q, hq, h⟩ := bind_eq_ok_iff.1 h
    cases h
    exact ((uses_readObject hq).trans (Uses.refl _).ascii).ascii
  · split at h
    · rename_i w hw
      cases h
      exact uses_word hw
    · exact uses_readNumber h
termination_by (cs.length, 0)

/-- An array behind its opening bracket. -/
theorem uses_readArray {room : Room} {cs : List Char} {p : Read (List Json) cs}
    (h : readArray room cs = .ok p) : Uses cs p.rest := by
  have hle := length_skipSpaces_le cs
  have hspaces := uses_skipSpaces cs
  unfold readArray at h
  dsimp only at h
  split at h
  · rename_i rest hs
    cases h
    rw [hs] at hspaces
    exact hspaces.trans (Uses.refl rest).ascii
  · obtain ⟨q, hq, h⟩ := bind_eq_ok_iff.1 h
    cases h
    exact hspaces.trans (uses_readItems hq)
termination_by (cs.length, 2)
decreasing_by
  rw [Prod.lex_def]
  omega

/-- The items of an array, up to the closing bracket. -/
theorem uses_readItems {room : Room} {cs : List Char} {p : Read (List Json) cs}
    (h : readItems room cs = .ok p) : Uses cs p.rest := by
  unfold readItems at h
  obtain ⟨v, hv, h⟩ := bind_eq_ok_iff.1 h
  have hspaces := (uses_readValue hv).trans (uses_skipSpaces v.rest)
  dsimp only at h
  split at h
  · rename_i rest hs
    cases h
    rw [hs] at hspaces
    exact hspaces.trans (Uses.refl rest).ascii
  · rename_i r hs
    have hshort := Nat.lt_trans (length_skipSpaces_of_mark hs) v.shorter
    rw [hs] at hspaces
    obtain ⟨q, hq, h⟩ := bind_eq_ok_iff.1 h
    have hrest := uses_readItems hq
    cases h
    exact hspaces.trans ((uses_skipSpaces r).trans hrest).ascii
  · cases h
termination_by (cs.length, 1)
decreasing_by
  all_goals
    rw [Prod.lex_def]
    omega

/-- The members of an object end with the closing brace. -/
theorem uses_readObject {room : Room} {cs : List Char} {p : Read (List (String × Json)) cs}
    (h : readObject room cs = .ok p) : Uses cs ('\x7d' :: p.rest) := by
  have hle := length_skipSpaces_le cs
  have hspaces := uses_skipSpaces cs
  unfold readObject at h
  dsimp only at h
  split at h
  · rename_i rest hs
    cases h
    rw [hs] at hspaces
    exact hspaces
  · obtain ⟨q, hq, h⟩ := bind_eq_ok_iff.1 h
    cases h
    exact hspaces.trans (uses_readMembers hq)
termination_by (cs.length, 2)
decreasing_by
  rw [Prod.lex_def]
  omega

/-- The members of an object end with the closing brace, however many they are. -/
theorem uses_readMembers {room : Room} {cs : List Char} {p : Read (List (String × Json)) cs}
    (h : readMembers room cs = .ok p) : Uses cs ('\x7d' :: p.rest) := by
  unfold readMembers at h
  split at h
  · rename_i r
    obtain ⟨name, hname, h⟩ := bind_eq_ok_iff.1 h
    have hspaces : Uses ('"' :: r) (skipSpaces name.rest) :=
      ((uses_readString hname).trans (uses_skipSpaces name.rest)).ascii
    dsimp only at h
    split at h
    · rename_i r' hs
      have hshort := Nat.lt_trans (length_skipSpaces_of_mark hs) name.shorter
      rw [hs] at hspaces
      obtain ⟨v, hv, h⟩ := bind_eq_ok_iff.1 h
      have hvalue := hspaces.trans (((uses_skipSpaces r').trans (uses_readValue hv)).trans
        (uses_skipSpaces v.rest)).ascii
      split at h
      · rename_i rest ht
        cases h
        rw [ht] at hvalue
        exact hvalue
      · rename_i r'' ht
        have hshort' := Nat.lt_trans (length_skipSpaces_of_mark ht)
          (Nat.lt_trans v.shorter hshort)
        rw [ht] at hvalue
        obtain ⟨q, hq, h⟩ := bind_eq_ok_iff.1 h
        have hrest := uses_readMembers hq
        cases h
        exact hvalue.trans ((uses_skipSpaces r'').trans hrest).ascii
      · cases h
    · cases h
  · cases h
termination_by (cs.length, 1)
decreasing_by
  all_goals
    subst_vars
    rw [Prod.lex_def, List.length_cons]
    omega

end

/-! ## Objects

That a text was read to an object says which reader has read it, and so how it begins and ends. -/

/-- No word is an object. -/
theorem word_ne_object {cs : List Char} {w : String × Json} (h : word? cs = some w)
    (members : List (String × Json)) : w.2 ≠ .object members := by
  have hm : w ∈ words := List.mem_of_find?_eq_some h
  simp only [words, List.mem_cons, List.not_mem_nil, or_false] at hm
  obtain rfl | rfl | rfl | rfl | rfl | rfl := hm <;> exact fun h => by cases h

/-- No number is an object. -/
theorem readNumber_ne_object {cs : List Char} {p : Read Json cs} (h : readNumber cs = .ok p)
    (members : List (String × Json)) : p.value ≠ .object members := by
  unfold readNumber at h
  extract_lets at h
  split at h
  · cases h
  · extract_lets at h
    split at h
    · split at h <;> cases h
      exact fun h => by cases h
    · cases h
      exact fun h => by cases h

/-- What is read to an object begins with a brace, and a brace is the last that is used of it. -/
theorem readValue_object {room : Room} {cs : List Char} {p : Read Json cs}
    (h : readValue room cs = .ok p) {members : List (String × Json)}
    (hp : p.value = .object members) :
    ∃ r, cs = '\x7b' :: r ∧ Uses r ('\x7d' :: p.rest) := by
  unfold readValue at h
  split at h
  · obtain ⟨q, hq, h⟩ := bind_eq_ok_iff.1 h
    cases h
    cases hp
  · obtain ⟨inner, -, h⟩ := bind_eq_ok_iff.1 h
    obtain ⟨q, hq, h⟩ := bind_eq_ok_iff.1 h
    cases h
    cases hp
  · rename_i r
    obtain ⟨inner, -, h⟩ := bind_eq_ok_iff.1 h
    obtain ⟨q, hq, h⟩ := bind_eq_ok_iff.1 h
    cases h
    exact ⟨r, rfl, uses_readObject hq⟩
  · split at h
    · rename_i w hw
      cases h
      exact absurd hp (word_ne_object hw members)
    · exact absurd hp (readNumber_ne_object h members)

/-- The position of a problem has no part in what a text is decoded to. -/
theorem decode_eq_ok_iff {room : Room} {text : String} {j : Json} :
    decode room text = .ok j ↔ readDocument room text.toList = .ok j := by
  unfold decode
  dsimp only
  cases readDocument room text.toList with
  | error stop => exact iff_of_false (fun h => by cases h) fun h => by cases h
  | ok j => exact ⟨fun h => congrArg _ (Except.ok.inj h), fun h => congrArg _ (Except.ok.inj h)⟩

/-- Spaces in front of a document do not count. -/
theorem decode_spaces_append {room : Room} {front : List Char}
    (hfront : ∀ c ∈ front, isSpace c = true) {text : String} {j : Json}
    (h : decode room text = .ok j) :
    decode room (String.ofList (front ++ text.toList)) = .ok j := by
  rw [decode_eq_ok_iff] at h ⊢
  rw [String.toList_ofList]
  cases front with
  | nil => exact h
  | cons c front =>
    have hc : c ≠ '\uFEFF' := fun hc => absurd (hfront c (.head _)) (hc ▸ by decide)
    have hskip : skipSpaces (c :: front ++ text.toList) = skipSpaces text.toList :=
      List.dropWhile_append_of_pos hfront
    have hhead : (c :: front ++ text.toList).head? ≠ some '\uFEFF' :=
      fun hhead => hc (Option.some.inj hhead)
    unfold readDocument at h ⊢
    rw [hskip, if_neg hhead]
    split at h
    · cases h
    · exact h

/-- **The text of an object** is one between braces, with spaces around it, and there are no control
characters between the braces apart from spaces. -/
theorem decode_object {room : Room} {text : String} {members : List (String × Json)}
    (h : decode room text = .ok (.object members)) :
    ∃ front inside back, text.toList = front ++ '\x7b' :: (inside ++ '\x7d' :: back) ∧
      (∀ c ∈ front, isSpace c = true) ∧ (∀ c ∈ inside, IsTextChar c) ∧
      ∀ c ∈ back, isSpace c = true := by
  have hread := decode_eq_ok_iff.1 h
  unfold readDocument at hread
  split at hread
  · cases hread
  obtain ⟨p, hp, hread⟩ := bind_eq_ok_iff.1 hread
  split at hread
  · rename_i hback
    obtain ⟨r, hr, inside, hinside, hall⟩ := readValue_object hp (Except.ok.inj hread)
    refine ⟨text.toList.takeWhile isSpace, inside, p.rest, ?_,
      List.all_eq_true.1 List.all_takeWhile, hall, forall_isSpace_of_skipSpaces hback⟩
    rw [← hinside, ← hr]
    exact List.takeWhile_append_dropWhile.symm
  · cases hread

end TreeSchema.Json
