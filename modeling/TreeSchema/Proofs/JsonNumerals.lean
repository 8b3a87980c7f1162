import TreeSchema.Proofs.DistinctKeys
import TreeSchema.Proofs.JsonText
import TreeSchema.Proofs.Numerals
import TreeSchema.Proofs.Shape

/-!
# What stops a reader of JSON

A text of JSON is malformed, or it is read to a document, or a numeral in it is refused, or it is
too deep. A numeral is refused for the number of its digits only, and these digits stand in the text
one after the other; and a text is too deep only if it has more opening brackets than there is room
for (`Json.StopsIn`). What a numeral within the limit is read to is within the limit itself, so all
integers of a document that was read can be written again. So a text without such a run of digits
and with few brackets is never refused, and what it is read to can be quoted
(`Format.comesTo_decode_json`).

Three things shape the work. Both refusals are told by what stands in the text that is left, and
what is left of a text is always a part of it (`Uses.part`), so a refusal in a part is one in the
whole (`StopsIn.mono`). A bracket that is read takes a level of the room and a bracket from the
text, which keeps the two in step (`StopsIn.of_isBelow`). And what the fault does not tell is told
by the result: as its integers are short, nothing can go wrong with them later.
-/

namespace TreeSchema

/-- **The mapping that assignments build has short integers** if all the keys and values have. -/
theorem Value.hasShortIntegers_ofAssignments {entries : List (Value × Value)}
    (h : ∀ e ∈ entries, e.1.HasShortIntegers ∧ e.2.HasShortIntegers) :
    (ofAssignments entries).HasShortIntegers := by
  have hfold : ∀ m : List (Value × Value),
      (∀ e ∈ m, e.1.HasShortIntegers ∧ e.2.HasShortIntegers) →
        ∀ e ∈ entries.foldl (fun m e => assign m e.1 e.2) m,
          e.1.HasShortIntegers ∧ e.2.HasShortIntegers := by
    induction entries with
    | nil => exact fun m hm => hm
    | cons e entries ih =>
      obtain ⟨⟨hkey, hvalue⟩, hrest⟩ := List.forall_mem_cons.1 h
      refine fun m hm => ih hrest _ fun f hf => ⟨?_, ?_⟩
      · obtain hkeys | ⟨-, hkeys⟩ :=
          Assoc.map_fst_alter_cases e.1.sameKey e.1 (fun _ => e.2) m
        all_goals have hmem := hkeys ▸ List.mem_map_of_mem (f := Prod.fst) hf
        · obtain ⟨f', hf', heq⟩ := List.mem_map.1 hmem
          exact heq ▸ (hm f' hf').1
        · obtain hmem | hmem := List.mem_append.1 hmem
          · obtain ⟨f', hf', heq⟩ := List.mem_map.1 hmem
            exact heq ▸ (hm f' hf').1
          · exact List.mem_singleton.1 hmem ▸ hkey
      · obtain hf | hf := Assoc.mem_alter hf
        · exact (hm f hf).2
        · exact hf ▸ hvalue
  rw [ofAssignments, HasShortIntegers]
  exact hfold [] (List.forall_mem_nil _)

namespace Json

/-! ## What readers come to

A fault of a reader is related to the characters that the reader had in front of it. The relation
allows more than can happen, as it does not say where in the text the fault is; what it says is
enough to tell that a text has no such fault. -/

/-- **How many collections begin in a text** at most: the number of its opening brackets. -/
def openings (cs : List Char) : Nat := cs.countP fun c => c = '[' || c = '\x7b'

/-- A bracket in front counts. -/
theorem openings_cons {c : Char} (h : c = '[' ∨ c = '\x7b') (cs : List Char) :
    openings (c :: cs) = openings cs + 1 :=
  List.countP_cons_of_pos (by simpa using h)

/-- **What stops a reader of a text**: a malformed place, a run of digits in the text that is beyond
the limit, or more brackets than there is room for. -/
inductive StopsIn (room : Room) (cs : List Char) : Stop → Prop
  | malformed (problem : Problem) (rest : List Char) : StopsIn room cs (.malformed problem rest)
  | long {run : List Char} (h : IsLongRun run cs) :
    StopsIn room cs (.numeral (.tooLongToRead run.length))
  | tooDeep (h : ¬ room.Fits (openings cs)) : StopsIn room cs .tooDeep

variable {room : Room}

/-- What stands in a part of a text stands in the text. -/
theorem StopsIn.mono {cs cs' : List Char} (hpart : cs <:+: cs') {stop : Stop}
    (h : StopsIn room cs stop) : StopsIn room cs' stop := by
  cases h with
  | malformed problem rest => exact .malformed problem rest
  | long h => exact .long ⟨h.part.trans hpart, h.digits, h.long⟩
  | tooDeep h => exact .tooDeep fun hfits => h (hfits.mono hpart.sublist.countP_le)

/-- What stops a reader one level down stops it before the bracket. -/
theorem StopsIn.of_isBelow {inner : Room} (hbelow : inner.IsBelow room) {c : Char}
    (hc : c = '[' ∨ c = '\x7b') {cs : List Char} {stop : Stop} (h : StopsIn inner cs stop) :
    StopsIn room (c :: cs) stop := by
  cases h with
  | malformed problem rest => exact .malformed problem rest
  | long h => exact .long ⟨h.part.trans (List.suffix_cons _ _).isInfix, h.digits, h.long⟩
  | tooDeep h =>
    rw [hbelow, ← openings_cons hc] at h
    exact .tooDeep h

/-- **A bracket takes the reader one level down**, or there is no room for what it opens. -/
theorem comesTo_enter {α : Type} {good : α → Prop} {c : Char} (hc : c = '[' ∨ c = '\x7b')
    {cs : List Char} {read : Room → Except Stop α}
    (hread : ∀ inner, ComesTo (StopsIn inner cs) good (read inner)) :
    ComesTo (StopsIn room (c :: cs)) good (room.enter Stop.tooDeep >>= read) := by
  refine ((room.comesTo_enter Stop.tooDeep).mono ?_).bind fun inner hbelow =>
    (hread inner).mono fun _ => .of_isBelow hbelow hc
  rintro _ ⟨rfl, hnone⟩
  exact .tooDeep (openings_cons hc cs ▸ hnone (openings cs))

/-- What is left of a text is a part of it. -/
theorem Uses.part {cs rest : List Char} (h : Uses cs rest) : rest <:+: cs := by
  obtain ⟨used, rfl, -⟩ := h
  exact (List.suffix_append _ _).isInfix

/-- What comes behind a mark that is left of a text is a part of the text. -/
theorem Uses.part_of_mark {cs r : List Char} {mark : Char} (h : Uses cs (mark :: r)) :
    skipSpaces r <:+: cs :=
  (uses_skipSpaces r).part.trans ((List.suffix_cons _ _).isInfix.trans h.part)

/-! ## Strings, numbers and words

Only numbers can be refused although they are well-formed, and only for their whole digits: those
behind the point and in the exponent are rounded. -/

/-- **A string stops a reader** only where it is malformed. -/
theorem exists_malformed_of_scanString {start cs : List Char} {stop : Stop}
    (h : scanString start cs = .error stop) : ∃ problem rest, stop = .malformed problem rest := by
  have hpush : ∀ {u scan}, pushCode u scan = .error stop → scan = .error stop := by
    intro u scan h
    unfold pushCode at h
    split at h
    · cases h
    · exact h
  fun_induction scanString start cs with
  | case5 _ _ _ _ _ _ _ _ ih | case8 _ _ _ _ _ _ ih | case11 _ _ _ _ _ _ _ _ ih =>
    exact ih (hpush h)
  | case2 => cases h
  | case1 | case3 | case4 | case6 | case7 | case9 | case10 =>
    cases h
    exact ⟨_, _, rfl⟩

/-- A string is read, or is malformed. -/
theorem comesTo_readString (room : Room) (start cs : List Char) :
    ComesTo (StopsIn room cs) (fun _ => True) (readString start cs) := by
  unfold readString
  split
  · exact .ok trivial
  · rename_i stop hstop
    obtain ⟨problem, rest, rfl⟩ := exists_malformed_of_scanString hstop
    exact .error (.malformed problem rest)

/-- The digits of a number stand in the text. -/
theorem part_wholeDigits (cs : List Char) : wholeDigits cs <:+: cs := by
  unfold wholeDigits
  split
  · exact ⟨[], _, rfl⟩
  · exact (List.takeWhile_prefix _).isInfix

/-- They are digits of ASCII. -/
theorem digits_wholeDigits (cs : List Char) : ∀ c ∈ wholeDigits cs, '0' ≤ c ∧ c ≤ '9' := by
  unfold wholeDigits
  split
  · exact List.forall_mem_singleton.2 (by decide)
  · intro c hc
    have hdigit : isDigit c = true := List.all_eq_true.1 List.all_takeWhile c hc
    rw [isDigit, Bool.and_eq_true, decide_eq_true_eq, decide_eq_true_eq] at hdigit
    exact hdigit

/-- **A number is refused for its digits only.** -/
theorem comesTo_readNumber (cs : List Char) :
    ComesTo (StopsIn room cs) (fun p => p.value.toValue.HasShortIntegers) (readNumber cs) := by
  unfold readNumber
  extract_lets negative body whole
  have hbody : body <:+: cs := by
    unfold body
    split
    · exact (List.drop_suffix _ _).isInfix
    · exact List.infix_rfl
  split
  · exact .error (.malformed _ _)
  · extract_lets
    split
    · split
      · rename_i n hn
        refine .ok ?_
        have hnatAbs : (if negative then -(n : Int) else n).natAbs = n := by
          split
          · rw [Int.natAbs_neg, Int.natAbs_natCast]
          · exact Int.natAbs_natCast n
        rw [toValue, Value.HasShortIntegers, hnatAbs]
        exact length_decimalDigits_of_readDecimal hn
      · rename_i fault hfault
        obtain ⟨hlong, rfl⟩ := (comesTo_readDecimal whole).of_eq_error hfault
        exact .error (.long ⟨(part_wholeDigits body).trans hbody, digits_wholeDigits body, hlong⟩)
    · refine .ok ?_
      rw [toValue]
      simp [Value.HasShortIntegers]

/-- There are no integers among the words. -/
theorem hasShortIntegers_of_word {cs : List Char} {w : String × Json} (h : word? cs = some w) :
    w.2.toValue.HasShortIntegers := by
  have hm : w ∈ words := List.mem_of_find?_eq_some h
  simp only [words, List.mem_cons, List.not_mem_nil, or_false] at hm
  obtain rfl | rfl | rfl | rfl | rfl | rfl := hm <;> simp [toValue, Value.HasShortIntegers]

/-! ## Documents

The recursion is that of the readers. At each bracket one level of the room is taken, and at most as
many are taken in all as there are brackets. -/

mutual

/-- A value of any kind. -/
theorem comesTo_readValue (room : Room) (cs : List Char) :
    ComesTo (StopsIn room cs) (fun p => p.value.toValue.HasShortIntegers)
      (readValue room cs) := by
  unfold readValue
  split
  · rename_i r
    have hread := (comesTo_readString room ('"' :: r) r).mono fun _ =>
      StopsIn.mono (List.suffix_cons '"' r).isInfix
    refine hread.bind fun p _ => .ok ?_
    simp [toValue, Value.HasShortIntegers]
  · rename_i r
    refine comesTo_enter (.inl rfl) fun inner => (comesTo_readArray inner r).bind fun p hp => .ok ?_
    rw [toValue, Value.HasShortIntegers]
    exact hp
  · rename_i r
    refine comesTo_enter (.inr rfl) fun inner =>
      (comesTo_readObject inner r).bind fun p hp => .ok ?_
    rw [toValue]
    exact Value.hasShortIntegers_ofAssignments hp
  · split
    · rename_i w hw
      exact .ok (hasShortIntegers_of_word hw)
    · exact comesTo_readNumber _
termination_by (cs.length, 0)

/-- An array behind its bracket. -/
theorem comesTo_readArray (room : Room) (cs : List Char) :
    ComesTo (StopsIn room cs) (fun p => ∀ v ∈ toValues p.value, v.HasShortIntegers)
      (readArray room cs) := by
  have hle := length_skipSpaces_le cs
  unfold readArray
  dsimp only
  split
  · exact .ok (List.forall_mem_nil _)
  · have hread := (comesTo_readItems room (skipSpaces cs)).mono fun _ =>
      StopsIn.mono (uses_skipSpaces cs).part
    exact hread.bind fun p hp => .ok hp
termination_by (cs.length, 2)
decreasing_by
  rw [Prod.lex_def]
  omega

/-- The items of an array. -/
theorem comesTo_readItems (room : Room) (cs : List Char) :
    ComesTo (StopsIn room cs) (fun p => ∀ v ∈ toValues p.value, v.HasShortIntegers)
      (readItems room cs) := by
  unfold readItems
  refine (comesTo_readValue room cs).bind_eq fun v hv hgood => ?_
  have hspaces := (uses_readValue hv).trans (uses_skipSpaces v.rest)
  dsimp only
  split
  · exact .ok (List.forall_mem_singleton.2 hgood)
  · rename_i r hs
    have hshort := Nat.lt_trans (length_skipSpaces_of_mark hs) v.shorter
    rw [hs] at hspaces
    have hread := (comesTo_readItems room (skipSpaces r)).mono fun _ =>
      StopsIn.mono hspaces.part_of_mark
    refine hread.bind fun q hq => .ok ?_
    exact List.forall_mem_cons.2 ⟨hgood, hq⟩
  · exact .error (.malformed _ _)
termination_by (cs.length, 1)
decreasing_by
  all_goals
    rw [Prod.lex_def]
    omega

/-- An object behind its brace: the keys of its members are texts, so only the values count. -/
theorem comesTo_readObject (room : Room) (cs : List Char) :
    ComesTo (StopsIn room cs)
      (fun p => ∀ e ∈ toEntries p.value, e.1.HasShortIntegers ∧ e.2.HasShortIntegers)
      (readObject room cs) := by
  have hle := length_skipSpaces_le cs
  unfold readObject
  dsimp only
  split
  · exact .ok (List.forall_mem_nil _)
  · have hread := (comesTo_readMembers room (skipSpaces cs)).mono fun _ =>
      StopsIn.mono (uses_skipSpaces cs).part
    exact hread.bind fun p hp => .ok hp
termination_by (cs.length, 2)
decreasing_by
  rw [Prod.lex_def]
  omega

/-- The members of an object. -/
theorem comesTo_readMembers (room : Room) (cs : List Char) :
    ComesTo (StopsIn room cs)
      (fun p => ∀ e ∈ toEntries p.value, e.1.HasShortIntegers ∧ e.2.HasShortIntegers)
      (readMembers room cs) := by
  unfold readMembers
  split
  · rename_i r
    have hr : r <:+: '"' :: r := (List.suffix_cons _ _).isInfix
    have hread := (comesTo_readString room ('"' :: r) r).mono fun _ => StopsIn.mono hr
    -- The name, the value and the rest of the members are read from ends of the same text, and what
    -- a fault of any of them says is said of that text.
    refine hread.bind_eq fun name hname _ => ?_
    have hkey : (Value.text name.value).HasShortIntegers := by simp [Value.HasShortIntegers]
    have hspaces := (uses_readString hname).trans (uses_skipSpaces name.rest)
    dsimp only
    split
    · rename_i r' hs
      have hshort := Nat.lt_trans (length_skipSpaces_of_mark hs) name.shorter
      rw [hs] at hspaces
      have hstart : skipSpaces r' <:+: r := hspaces.part_of_mark
      have hvalue := (comesTo_readValue room (skipSpaces r')).mono fun _ =>
        StopsIn.mono (hstart.trans hr)
      refine hvalue.bind_eq fun v hv hgood => ?_
      have hmore := (uses_readValue hv).trans (uses_skipSpaces v.rest)
      split
      · exact .ok (List.forall_mem_singleton.2 ⟨hkey, hgood⟩)
      · rename_i r'' ht
        have hshort' := Nat.lt_trans (length_skipSpaces_of_mark ht)
          (Nat.lt_trans v.shorter hshort)
        rw [ht] at hmore
        have hread := (comesTo_readMembers room (skipSpaces r'')).mono fun _ =>
          StopsIn.mono (hmore.part_of_mark.trans (hstart.trans hr))
        refine hread.bind fun q hq => .ok ?_
        exact List.forall_mem_cons.2 ⟨⟨hkey, hgood⟩, hq⟩
      · exact .error (.malformed _ _)
    · exact .error (.malformed _ _)
  · exact .error (.malformed _ _)
termination_by (cs.length, 1)
decreasing_by
  all_goals
    subst_vars
    rw [Prod.lex_def, List.length_cons]
    omega

end

/-- A document with the spaces around it. -/
theorem comesTo_readDocument (room : Room) (cs : List Char) :
    ComesTo (StopsIn room cs) (fun j => j.toValue.HasShortIntegers) (readDocument room cs) := by
  unfold readDocument
  split
  · exact .error (.malformed _ _)
  · have hread := (comesTo_readValue room (skipSpaces cs)).mono fun _ =>
      StopsIn.mono (uses_skipSpaces cs).part
    refine hread.bind fun p hp => ?_
    split
    · exact .ok hp
    · exact .error (.malformed _ _)

end Json

/-- **What keeps a text of JSON from being read** although it is not malformed: a run of digits that
is beyond the limit, or more opening brackets than there is room for. -/
inductive Json.Obstacle (room : Room) (text : String) : Fault → Prop
  | long {run : List Char} (h : IsLongRun run text.toList) :
    Obstacle room text (.numeral (.tooLongToRead run.length))
  | tooDeep (h : ¬ room.Fits (openings text.toList)) : Obstacle room text .tooDeep

/-- **What a text of JSON comes to**: a data tree whose integers are short, a malformed place, or an
obstacle. -/
theorem Format.comesTo_decode_json (stack : Stack) (text : String) :
    ComesTo
      (fun fault => fault.isMalformed = true ∨
        ∃ obstacle, Json.Obstacle stack.json text obstacle ∧ fault = .json obstacle)
      (fun document => ∃ j, document = .tree (Json.toValue j) ∧ (Json.toValue j).HasShortIntegers)
      (json.decode stack text) := by
  have hread := Json.comesTo_readDocument stack.json text.toList
  rw [Format.decode, Json.decode]
  generalize Json.readDocument stack.json text.toList = x at hread
  cases hread with
  | ok hj => exact .ok ⟨_, rfl, hj⟩
  | error hstop =>
    cases hstop with
    | malformed problem rest => exact .error (.inl rfl)
    | long hrun => exact .error (.inr ⟨_, .long hrun, rfl⟩)
    | tooDeep hdeep => exact .error (.inr ⟨_, .tooDeep hdeep, rfl⟩)

end TreeSchema
