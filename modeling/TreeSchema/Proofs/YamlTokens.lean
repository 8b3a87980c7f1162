import TreeSchema.Proofs.Numerals
import TreeSchema.Yaml.Lexer

/-!
# Where a text of YAML becomes unreadable

Cutting a text into tokens goes from its start to its end, and no step of it goes back: every place
that is come to has an end of the text before it (`Cursor.IsIn`). A step is stopped by something
that is malformed, by a version of too many digits, or by an escape beyond the last character
(`Unreadable`), and what stops it stands in the text. These are the only reasons that a last token
can give (`unreadable_of_mem_tokens`).

There is one lemma for each reader of the lexer, and it says two things at once (`ComesTo`): a fault
of the reader is one that makes the text unreadable, and where it gives a result, the place that it
leaves off at is still one of the text. The second is what the next reader needs, so the lemma of a
reader that calls others is composed of theirs in the order of the calls, and no reader is opened
twice. Readers that cannot fail have the second half only, as lemmas on places. Most of them are not
recursive. The few that are go through lines, and their lemmas follow their recursion.

Two faults need more than the place. That a version is a long run of digits comes from how it was
cut out of the text. That a code beyond the last character was written with eight digits is
arithmetic: with two or with four there is no such number (`Scalar.eq_of_codeWidth?`).

The lexer adds tokens to a queue and can put some in front of others later, when a colon turns what
was read into a key. So its invariant is about all the tokens of the queue and not about the last
one (`Lexer.IsIn`). The token that says why a text ends early is not put there by a step, it is the
answer to a step that failed, which is why none of the queue is of this kind.
-/

namespace TreeSchema.Yaml

/-- **What makes a text unreadable**: a malformed place, the number of a version with too many
digits, or an escape of a code that no character has. -/
inductive Unreadable (cs : List Char) : Fault → Prop
  | malformed (problem : Problem) : Unreadable cs (.malformed problem)
  | version {run : List Char} (h : IsLongRun run cs) :
    Unreadable cs (.numeral (.tooLongToRead run.length))
  | code {digits : List Char} {code : Nat} (hpart : '\\' :: 'U' :: digits <:+: cs)
    (hcode : Text.hexNumber? digits = some code) (hrange : 0x110000 ≤ code) :
    Unreadable cs (.codeRange code)

/-! ## Places

Moving on by some characters, to the end of a run, or behind a line break, keeps to the text. -/

/-- **Whether a place is one of a text**: what stands from it on is an end of the text. -/
def Cursor.IsIn (cur : Cursor) (cs : List Char) : Prop := cur.rest <:+ cs

namespace Cursor.IsIn

variable {cur after : Cursor} {cs : List Char}

/-- Moving on by characters keeps to the text. -/
theorem advance (h : cur.IsIn cs) (n : Nat) : (cur.advance n).IsIn cs := by
  rw [Cursor.IsIn, rest_advance]
  exact (List.drop_suffix n _).trans h

/-- Moving on by one character keeps to the text. -/
theorem next (h : cur.IsIn cs) : cur.next.IsIn cs := h.advance 1

/-- A run of characters ends at a place of the text. -/
theorem takeWhile (h : cur.IsIn cs) (p : Char → Bool) : (cur.takeWhile p).2.IsIn cs := h.advance _

/-- Spaces end at a place of the text. -/
theorem skipSpaces (h : cur.IsIn cs) : cur.skipSpaces.IsIn cs := h.takeWhile _

/-- A comment ends at a place of the text. -/
theorem skipComment (h : cur.IsIn cs) : cur.skipComment.IsIn cs := by
  unfold Cursor.skipComment
  split
  · exact h.takeWhile _
  · exact h

/-- A line break ends at a place of the text. -/
theorem of_lineBreak? (h : cur.IsIn cs) {c : Char} (hbreak : cur.lineBreak? = some (c, after)) :
    after.IsIn cs := by
  unfold Cursor.lineBreak? at hbreak
  split at hbreak
  · cases hbreak
    exact h.advance 2
  · split at hbreak
    · cases hbreak
      exact h.next
    · split at hbreak
      · cases hbreak
        exact h.next
      · cases hbreak
  · cases hbreak

/-- Whether there is a line break or not, reading goes on at a place of the text. -/
theorem skipLineBreak (h : cur.IsIn cs) : cur.skipLineBreak.IsIn cs := by
  unfold Cursor.skipLineBreak
  split
  · exact h.of_lineBreak? ‹_›
  · exact h

/-- The line of a directive or of a header ends at a place of the text. -/
theorem of_endHeader? (h : cur.IsIn cs) (hend : cur.endHeader? = some after) : after.IsIn cs := by
  unfold Cursor.endHeader? at hend
  dsimp only at hend
  split at hend
  · cases hend
    exact h.skipSpaces.skipComment.skipLineBreak
  · cases hend

end Cursor.IsIn

variable {cur : Cursor} {cs : List Char}

/-! ## Names, tags and directives

All that can be wrong here is malformed, with one exception: a directive gives a version as two
numbers, and a number can have too many digits. -/

/-- A word is read, or there is none. -/
theorem comesTo_readWord (h : cur.IsIn cs) (problem : Problem) :
    ComesTo (Unreadable cs) (fun r => r.2.IsIn cs) (readWord problem cur) := by
  unfold readWord
  dsimp only
  split
  · exact .error (.malformed _)
  · exact .ok (h.takeWhile _)

/-- A name is read, or it is empty, or it does not end where a name may. -/
theorem comesTo_readName (h : cur.IsIn cs) :
    ComesTo (Unreadable cs) (fun r => r.2.IsIn cs) (readName cur) := by
  unfold readName
  refine (comesTo_readWord h _).bind fun r hr => ?_
  dsimp only
  split
  · exact .ok hr
  · exact .error (.malformed _)

/-- A run of escapes in a tag is read byte by byte, or one of them is no number. -/
theorem comesTo_tagEscapes (h : cur.IsIn cs) :
    ComesTo (Unreadable cs) (fun r => r.2.IsIn cs) (tagEscapes cur) := by
  fun_induction tagEscapes cur with
  | case1 | case3 => exact .error (.malformed _)
  | case2 _ _ _ _ _ _ _ _ ih => exact (ih (h.advance 3)).bind fun r hr => .ok hr
  | case4 => exact .ok h

/-- The characters of a tag are read, with runs of escapes between them that are UTF-8. -/
theorem comesTo_tagChars {cur : Cursor} (h : cur.IsIn cs) :
    ComesTo (Unreadable cs) (fun r => r.2.IsIn cs) (tagChars cur) := by
  unfold tagChars
  dsimp only
  split
  · exact .ok (h.takeWhile _)
  · refine (comesTo_tagEscapes (h.takeWhile _)).bind fun r hr => ?_
    split
    · exact .error (.malformed _)
    · split
      · exact (comesTo_tagChars hr).bind fun q hq => .ok hq
      · exact .error (.malformed _)
termination_by cur.rest.length

/-- The end of a tag is read, and it is not empty. -/
theorem comesTo_readTagEnd (h : cur.IsIn cs) :
    ComesTo (Unreadable cs) (fun r => r.2.IsIn cs) (readTagEnd cur) := by
  unfold readTagEnd
  split
  · exact .error (.malformed _)
  · exact (comesTo_tagChars h).bind fun r hr => .ok hr

/-- The handle of a tag is read between its marks. -/
theorem comesTo_readHandle (h : cur.IsIn cs) :
    ComesTo (Unreadable cs) (fun r => r.2.IsIn cs) (readHandle cur) := by
  unfold readHandle
  dsimp only
  split
  · exact .error (.malformed _)
  · split
    · exact .ok h.next
    · split
      · exact .error (.malformed _)
      · exact .ok (h.next.takeWhile _).next

/-- A token that the text can be read at. -/
def Token.IsReadable : Token → Prop
  | .unreadable _ => False
  | _ => True

/-- A tag is read in each of its forms: in angle brackets, by its mark alone, with a handle, or
without one. -/
theorem comesTo_readTag (h : cur.IsIn cs) :
    ComesTo (Unreadable cs) (fun r => r.1.IsReadable ∧ r.2.IsIn cs) (readTag cur) := by
  unfold readTag
  extract_lets finish
  have hfinish : ∀ r : Token × Cursor, r.1.IsReadable → r.2.IsIn cs →
      ComesTo (Unreadable cs) (fun r => r.1.IsReadable ∧ r.2.IsIn cs) (finish r) := by
    intro r htoken hr
    unfold finish
    dsimp only
    split
    · exact .ok ⟨htoken, hr⟩
    · exact .error (.malformed _)
  split
  · refine (comesTo_readTagEnd (h.advance 2)).bind fun r hr => ?_
    dsimp only
    split
    · exact .error (.malformed _)
    · exact hfinish (.tag none r.1, r.2.next) trivial hr.next
  · split
    · exact hfinish (.tag none "!", cur.next) trivial h.next
    · rename_i readEnd _ _
      have hreadEnd : ∀ r : String × Cursor, r.2.IsIn cs →
          ComesTo (Unreadable cs) (fun r => r.1.IsReadable ∧ r.2.IsIn cs) (readEnd r) :=
        fun r hr => (comesTo_readTagEnd hr).bind fun q hq =>
          hfinish (.tag (some r.1) q.1, q.2) trivial hq
      split
      · exact (comesTo_readHandle h).bind hreadEnd
      · exact hreadEnd ("!", cur.next) h.next

/-- A number of a version is read, or the run of its digits is beyond the limit. -/
theorem comesTo_readVersionNumber (h : cur.IsIn cs) :
    ComesTo (Unreadable cs) (fun r => r.2.IsIn cs) (readVersionNumber cur) := by
  unfold readVersionNumber
  dsimp only
  split
  · exact .error (.malformed _)
  · have hnumber : ComesTo (Unreadable cs) (fun _ => True) ((readDecimal (cur.takeWhile fun c =>
        '0' ≤ c && c ≤ '9').1).mapError .numeral) := by
      refine ((comesTo_readDecimal _).mono ?_).mapError
      rintro _ ⟨hlong, rfl⟩
      refine .version ⟨(List.takeWhile_prefix _).isInfix.trans h.isInfix, fun c hc => ?_, hlong⟩
      have hdigit := List.all_eq_true.1 List.all_takeWhile c hc
      simpa using hdigit
    exact hnumber.bind fun n _ => .ok (h.takeWhile _)

/-- A version is read as two numbers. -/
theorem comesTo_readVersion (h : cur.IsIn cs) :
    ComesTo (Unreadable cs) (fun r => r.2.IsIn cs) (readVersion cur) := by
  unfold readVersion
  refine (comesTo_readVersionNumber h.skipSpaces).bind fun r hr => ?_
  dsimp only
  split
  · exact .error (.malformed _)
  · refine (comesTo_readVersionNumber hr.next).bind fun q hq => ?_
    split
    · exact .ok hq
    · exact .error (.malformed _)

/-- A handle is declared with what it stands for. -/
theorem comesTo_readHandleDirective (h : cur.IsIn cs) :
    ComesTo (Unreadable cs) (fun r => r.2.IsIn cs) (readHandleDirective cur) := by
  unfold readHandleDirective
  refine (comesTo_readHandle h.skipSpaces).bind fun r hr => ?_
  dsimp only
  split
  · exact .error (.malformed _)
  · refine (comesTo_readTagEnd hr.skipSpaces).bind fun q hq => ?_
    split
    · exact .ok hq
    · exact .error (.malformed _)

/-- A directive is read to the end of its line. One that is not known is skipped. -/
theorem comesTo_readDirective (h : cur.IsIn cs) :
    ComesTo (Unreadable cs) (fun r => r.2.IsIn cs) (readDirective cur) := by
  unfold readDirective
  refine (comesTo_readWord h _).bind fun r hr => ?_
  dsimp -zeta only
  extract_lets finish directive
  have hfinish : ∀ q, q.2.IsIn cs →
      ComesTo (Unreadable cs) (fun r => r.2.IsIn cs) (finish q) := by
    intro q hq
    dsimp only [finish]
    split
    · exact .ok (hq.of_endHeader? ‹_›)
    · exact .error (.malformed _)
  refine .ite (.error (.malformed _)) ?_
  dsimp only [directive]
  split
  · exact (comesTo_readVersion hr).bind hfinish
  · split
    · exact (comesTo_readHandleDirective hr).bind hfinish
    · exact hfinish _ (hr.takeWhile _)

/-! ## Scalars

A plain scalar is read without a fault, whatever it is, and so are the lines of a block. The header
of a block can be malformed, and a quoted scalar can be without an end or have an escape that is
refused. -/

namespace Scalar

/-- Line breaks and the spaces in front of lines end at a place of the text. -/
theorem isIn_breaksAndSpaces (h : cur.IsIn cs) : (breaksAndSpaces cur).2.1.IsIn cs := by
  fun_induction breaksAndSpaces cur with
  | case1 => exact h
  | case2 => exact h.skipSpaces
  | case3 cur hno start c after hbreak hlt more last separated hmore ih =>
    rw [hmore] at ih
    exact ih (h.skipSpaces.of_lineBreak? hbreak)

/-- A gap in a plain scalar ends at a place of the text. -/
theorem isIn_plainGap (h : cur.IsIn cs) : (plainGap cur).after.IsIn cs := by
  unfold plainGap
  dsimp only
  split
  · exact h.takeWhile _
  · exact isIn_breaksAndSpaces ((h.takeWhile _).of_lineBreak? ‹_›)

/-- A plain scalar ends at a place of the text. -/
theorem isIn_plain {flow : Bool} {indent : Int} (h : cur.IsIn cs) :
    (plain flow indent cur).after.IsIn cs := by
  fun_induction plain flow indent cur with
  | case1 | case2 => exact isIn_plainGap (h.advance _)
  | case3 cur piece gap outside hsome hgoes hlt more ih =>
    exact ih (isIn_plainGap (h.advance _))

/-- Line breaks in a quoted scalar are read, unless a mark of a document stands in them. -/
theorem comesTo_quotedBreaks (h : cur.IsIn cs) :
    ComesTo (Unreadable cs) (fun r => r.1.2.IsIn cs) (quotedBreaks cur) := by
  fun_induction quotedBreaks cur with
  | case1 => exact .error (.malformed _)
  | case2 => exact .ok (h.takeWhile _)
  | case3 cur hno start hs c after hbreak ha ih =>
    exact (ih ((h.takeWhile _).of_lineBreak? hbreak)).bind fun r hr => .ok hr

/-- A gap in a quoted scalar is read. -/
theorem comesTo_quotedGap (h : cur.IsIn cs) :
    ComesTo (Unreadable cs) (fun r => r.2.IsIn cs) (quotedGap cur) := by
  unfold quotedGap
  dsimp only
  split
  · exact .ok (h.takeWhile _)
  · exact (comesTo_quotedBreaks ((h.takeWhile _).of_lineBreak? ‹_›)).bind fun r hr => .ok hr

/-- A code of eight digits only can be beyond the last character. -/
theorem eq_of_codeWidth? {c : Char} {width : Nat} (hwidth : codeWidth? c = some width)
    {digits : List Char} (hdigits : digits.length ≤ width) {code : Nat}
    (hcode : Text.hexNumber? digits = some code) (hrange : 0x110000 ≤ code) : c = 'U' := by
  have hlt : 0x110000 < Nat.pow 16 width :=
    Nat.lt_of_le_of_lt hrange (Nat.lt_of_lt_of_le (Text.hexNumber?_lt hcode)
      (Nat.pow_le_pow_right (by decide) hdigits))
  unfold codeWidth? at hwidth
  split at hwidth
  · cases hwidth
    exact absurd hlt (by decide)
  · cases hwidth
    exact absurd hlt (by decide)
  · rfl
  · cases hwidth

/-- **An escape** is refused for what stands after the backslash. -/
theorem comesTo_escape (h : '\\' :: cur.rest <:+ cs) :
    ComesTo (Unreadable cs) (fun r => r.2.IsIn cs) (escape cur) := by
  have hin : cur.IsIn cs := (List.suffix_cons _ _).trans h
  unfold escape
  split
  · exact .error (.malformed _)
  · rename_i c hc
    split
    · exact .ok hin.next
    · rename_i width _ hwidth
      split
      · exact .error (.malformed _)
      · rename_i code hcode
        split
        · exact .error (.malformed _)
        · split
          · rename_i hrange
            obtain rfl := eq_of_codeWidth? hwidth (List.length_take_le _ _) hcode hrange
            obtain ⟨r, hr⟩ := List.head?_eq_some_iff.1 hc
            rw [hr] at h
            rw [Cursor.rest_next, hr] at hcode
            have hpart : '\\' :: 'U' :: (r.take width) <:+: '\\' :: 'U' :: r :=
              (List.take_prefix (width + 2) ('\\' :: 'U' :: r)).isInfix
            exact .error (.code (hpart.trans h.isInfix) hcode hrange)
          · exact .ok (hin.next.advance width)
    · exact (comesTo_quotedBreaks (hin.of_lineBreak? ‹_›)).bind fun r hr => .ok hr
    · exact .error (.malformed _)

/-- A part of a quoted scalar is read: a gap, a run of characters or an escape. Where there is none,
the scalar has ended. -/
theorem comesTo_quotedPart (quote : Char) (h : cur.IsIn cs) :
    ComesTo (Unreadable cs) (fun r => r.elim (·.IsIn cs) fun t => t.2.IsIn cs)
      (quotedPart quote cur) := by
  unfold quotedPart
  split
  · exact .error (.malformed _)
  · rename_i c r hr
    split
    · exact (comesTo_quotedGap h).map fun t ht => ht
    · split
      · split
        · exact .ok (h.advance 2)
        · exact .ok h.next
      · split
        · rename_i hescape
          refine (comesTo_escape ?_).map fun t ht => ht
          rw [Cursor.rest_next, hr, ← hescape.1]
          rwa [Cursor.IsIn, hr] at h
        · exact .ok h.next

/-- A quoted scalar is read part by part to its end. -/
theorem comesTo_quotedBody (quote : Char) {cur : Cursor} (h : cur.IsIn cs) :
    ComesTo (Unreadable cs) (fun r => r.2.IsIn cs) (quotedBody quote cur) := by
  have hpart := comesTo_quotedPart quote h
  unfold quotedBody
  split
  · exact .error (hpart.of_eq_error ‹_›)
  · rename_i after hend
    exact .ok (hpart.of_eq_ok hend)
  · rename_i more after hmore
    have hlt := length_of_quotedPart hmore
    exact (comesTo_quotedBody quote (hpart.of_eq_ok hmore)).bind fun r hr => .ok hr
termination_by cur.rest.length

/-- The header of a block is read, with its two marks in either order. -/
theorem comesTo_blockHeader (h : cur.IsIn cs) :
    ComesTo (Unreadable cs) (fun r => r.2.2.IsIn cs) (blockHeader cur) := by
  unfold blockHeader
  split
  rename_i chomping increment after hread
  have hafter : after.IsIn cs := by
    split at hread
    · split at hread
      · cases hread
        exact h.advance 2
      · cases hread
        exact h.next
    · split at hread
      · split at hread
        · cases hread
          exact h.advance 2
        · cases hread
          exact h.next
      · cases hread
        exact h
  dsimp only
  split
  · exact .error (.malformed _)
  · split
    · exact .ok (hafter.of_endHeader? ‹_›)
    · exact .error (.malformed _)

/-- The blank lines before a block end at a place of the text. -/
theorem isIn_leadingLines (h : cur.IsIn cs) : (leadingLines cur).2.2.IsIn cs := by
  fun_induction leadingLines cur with
  | case1 => exact h.skipSpaces
  | case2 cur start reached c after hbreak hlt more most last hmore ih =>
    rw [hmore] at ih
    exact ih (h.skipSpaces.of_lineBreak? hbreak)

/-- The indentation of a line ends at a place of the text. -/
theorem isIn_skipTo (column : Nat) (h : cur.IsIn cs) : (skipTo column cur).IsIn cs := h.advance _

/-- Blank lines in a block end at a place of the text. -/
theorem isIn_blankLines (column : Nat) (h : cur.IsIn cs) : (blankLines column cur).2.IsIn cs := by
  fun_induction blankLines column cur with
  | case1 => exact isIn_skipTo column h
  | case2 cur start c after hbreak hlt more last hmore ih =>
    rw [hmore] at ih
    exact ih ((isIn_skipTo column h).of_lineBreak? hbreak)

/-- The lines of a block end at a place of the text. -/
theorem isIn_blockLines (folded : Bool) (column : Nat) (h : cur.IsIn cs) :
    (blockLines folded column cur).2.2.2.IsIn cs := by
  fun_induction blockLines folded column cur with
  | case1 => exact h.takeWhile _
  | case2 cur line c next hbreak blank hlt hgoes joint more lastBreak lastBreaks last hmore ih =>
    rw [hmore] at ih
    exact ih (isIn_blankLines column ((h.takeWhile _).of_lineBreak? hbreak))
  | case3 cur line c next hbreak =>
    exact isIn_blankLines column ((h.takeWhile _).of_lineBreak? hbreak)

/-- A block is read, whether its indentation is given or found out. -/
theorem comesTo_block (folded : Bool) (indent : Int) (h : cur.IsIn cs) :
    ComesTo (Unreadable cs) (fun r => r.2.IsIn cs) (block folded indent cur) := by
  unfold block
  refine (comesTo_blockHeader h).bind fun r hr => ?_
  split
  extract_lets least
  split
  rename_i column breaks first hlines
  have hfirst : first.IsIn cs := by
    split at hlines
    · cases hlines
      exact isIn_leadingLines hr
    · cases hlines
      exact isIn_blankLines _ hr
  split
  rename_i text lastBreak lastBreaks last hlast
  refine .ok ?_
  split at hlast
  · cases hlast
    exact isIn_blockLines folded _ hfirst
  · cases hlast
    exact hfirst

end Scalar

/-! ## The lexer

A step of the lexer reads one token, and may add tokens before it: those that open and close blocks,
and those that turn what stood before a colon into a key. What is added is known beforehand, so a
step is stopped for what it reads, or for a key that stands where it may not. -/

namespace Lexer

variable {s : Lexer}

/-- **What every step of the lexer keeps**: its place is one of the text, and the text could be read
at all tokens so far. -/
structure IsIn (s : Lexer) (cs : List Char) : Prop where
  cursor : s.cursor.IsIn cs
  tokens : ∀ t ∈ s.tokens, t.IsReadable

namespace IsIn

/-- Tokens and place are all that counts. -/
theorem of_eq {s' : Lexer} (h : s.IsIn cs) (hcursor : s'.cursor = s.cursor)
    (htokens : s'.tokens = s.tokens) : s'.IsIn cs :=
  ⟨hcursor ▸ h.cursor, htokens ▸ h.tokens⟩

/-- A token is put at the end of the queue. -/
theorem push (h : s.IsIn cs) {t : Token} (ht : t.IsReadable) : (s.push t).IsIn cs :=
  ⟨h.cursor, List.forall_mem_cons.2 ⟨ht, h.tokens⟩⟩

/-- Blocks are closed for an indentation that ends them. -/
theorem unwindTo (h : s.IsIn cs) (column : Int) : (s.unwindTo column).IsIn cs := by
  unfold Lexer.unwindTo
  split
  · exact h
  · refine ⟨h.cursor, List.forall_mem_append.2 ⟨fun t ht => ?_, h.tokens⟩⟩
    rw [List.eq_of_mem_replicate ht]
    trivial

/-- An indentation is noted, which is no change of the tokens. -/
theorem indentTo (h : s.IsIn cs) (column : Nat) : (s.indentTo column).2.IsIn cs := by
  unfold Lexer.indentTo
  split
  · exact h.of_eq rfl rfl
  · exact h

/-- A block is opened where an entry is indented further. -/
theorem openBlock (h : s.IsIn cs) {t : Token} (ht : t.IsReadable) : (s.openBlock t).IsIn cs := by
  unfold Lexer.openBlock
  split
  · exact h
  · have hindent := h.indentTo s.cursor.column
    dsimp only
    split
    · exact hindent.push ht
    · exact hindent

/-- Tokens are put in between. -/
theorem insertAt (h : s.IsIn cs) (position : Nat) {ts : List Token}
    (hts : ∀ t ∈ ts, t.IsReadable) : (s.insertAt position ts).IsIn cs := by
  refine ⟨h.cursor, List.forall_mem_append.2 ⟨List.forall_mem_append.2 ⟨?_, ?_⟩, ?_⟩⟩
  · exact fun t ht => h.tokens t (List.mem_of_mem_take ht)
  · exact fun t ht => hts t (List.mem_reverse.1 ht)
  · exact fun t ht => h.tokens t (List.mem_of_mem_drop ht)

/-- What is between two tokens is skipped: spaces, comments and line breaks. -/
theorem skipGap (h : s.IsIn cs) : s.skipGap.IsIn cs := by
  fun_induction Lexer.skipGap s with
  | case1 => exact ⟨h.cursor.skipSpaces.skipComment, h.tokens⟩
  | case2 s start c after hbreak hlt ih =>
    exact ih ⟨h.cursor.skipSpaces.skipComment.of_lineBreak? hbreak, h.tokens⟩

/-- What was read is made a key, and its mapping is opened in front of it. -/
theorem valueOfSimple (h : s.IsIn cs) (key : SimpleKey) : (s.valueOfSimple key).IsIn cs := by
  unfold Lexer.valueOfSimple
  split
  rename_i isNew opened hopened
  have hin : opened.IsIn cs := by
    split at hopened
    · cases hopened
      exact h
    · have hindent := h.indentTo key.column
      rw [hopened] at hindent
      exact hindent
  have hstarts : ∀ t ∈ (if isNew then [.mappingStart, .key] else [.key] : List Token),
      t.IsReadable := by
    cases isNew <;> simp [Token.IsReadable]
  have hinsert := hin.insertAt key.position hstarts
  exact ⟨hinsert.cursor.next, List.forall_mem_cons.2 ⟨trivial, hinsert.tokens⟩⟩

end IsIn

/-- A token is added after the place has been moved on. -/
theorem comesTo_push {s' : Lexer} {t : Token} (h : s.IsIn cs) (hcursor : s'.cursor.IsIn cs)
    (htokens : s'.tokens = s.tokens) (ht : t.IsReadable) :
    ComesTo (Unreadable cs) (·.IsIn cs) (pure (s'.push t)) :=
  .ok (IsIn.push ⟨hcursor, htokens ▸ h.tokens⟩ ht)

/-- A place that was noted is forgotten, unless a key has to begin there. -/
theorem comesTo_forget (key : Option SimpleKey) :
    ComesTo (Unreadable cs) (fun _ => True) (forget key) := by
  unfold forget
  split
  · split
    · exact .error (.malformed _)
    · exact .ok trivial
  · exact .ok trivial

/-- A place is forgotten when it is too far behind. -/
theorem comesTo_forgetStale (s : Lexer) (key : Option SimpleKey) :
    ComesTo (Unreadable cs) (fun _ => True) (s.forgetStale key) := by
  unfold forgetStale
  split
  · exact comesTo_forget key
  · exact .ok trivial

/-- The places are forgotten that are too far behind. -/
theorem comesTo_dropStale (h : s.IsIn cs) : ComesTo (Unreadable cs) (·.IsIn cs) s.dropStale :=
  (ComesTo.mapM fun key _ => s.comesTo_forgetStale key).bind fun _ _ =>
    (s.comesTo_forgetStale _).bind fun _ _ => .ok (h.of_eq rfl rfl)

/-- The place of the innermost level is forgotten. -/
theorem comesTo_dropKey (h : s.IsIn cs) : ComesTo (Unreadable cs) (·.IsIn cs) s.dropKey :=
  (comesTo_forget _).bind fun _ _ => .ok (h.of_eq rfl rfl)

/-- A place is noted where a key may have begun. -/
theorem comesTo_noteKey (h : s.IsIn cs) : ComesTo (Unreadable cs) (·.IsIn cs) s.noteKey := by
  unfold noteKey
  split
  · exact .ok h
  · exact (comesTo_dropKey h).bind fun s hs => .ok (hs.of_eq rfl rfl)

/-- The end of the text is read. -/
theorem comesTo_endStream (h : s.IsIn cs) : ComesTo (Unreadable cs) (·.IsIn cs) s.endStream :=
  (comesTo_dropKey (h.unwindTo _)).bind fun _ hs => .ok (hs.of_eq rfl rfl)

/-- A directive is read where a line begins. -/
theorem comesTo_directive (h : s.IsIn cs) : ComesTo (Unreadable cs) (·.IsIn cs) s.directive :=
  (comesTo_dropKey (h.unwindTo _)).bind fun _ hs =>
    (comesTo_readDirective hs.cursor.next).bind fun _ hr =>
      comesTo_push hs hr rfl trivial

/-- The start or the end of a document is read. -/
theorem comesTo_documentMark (h : s.IsIn cs) {t : Token} (ht : t.IsReadable) :
    ComesTo (Unreadable cs) (·.IsIn cs) (s.documentMark t) :=
  (comesTo_dropKey (h.unwindTo _)).bind fun _ hs =>
    comesTo_push hs (hs.cursor.advance 3) rfl ht

/-- An opening bracket is read. -/
theorem comesTo_openFlow (h : s.IsIn cs) {t : Token} (ht : t.IsReadable) :
    ComesTo (Unreadable cs) (·.IsIn cs) (s.openFlow t) :=
  (comesTo_noteKey h).bind fun _ hs => comesTo_push hs hs.cursor.next rfl ht

/-- A closing bracket is read, if there is one to close. -/
theorem comesTo_closeFlow (h : s.IsIn cs) {t : Token} (ht : t.IsReadable) :
    ComesTo (Unreadable cs) (·.IsIn cs) (s.closeFlow t) := by
  refine (comesTo_dropKey h).bind fun s hs => ?_
  split
  · exact .error (.malformed _)
  · exact comesTo_push hs hs.cursor.next rfl ht

/-- A comma is read. -/
theorem comesTo_flowEntry (h : s.IsIn cs) : ComesTo (Unreadable cs) (·.IsIn cs) s.flowEntry :=
  (comesTo_dropKey h).bind fun _ hs => comesTo_push hs hs.cursor.next rfl trivial

/-- A dash is read, where an entry may stand. -/
theorem comesTo_blockEntry (h : s.IsIn cs) : ComesTo (Unreadable cs) (·.IsIn cs) s.blockEntry := by
  unfold blockEntry
  dsimp only
  split
  · exact .error (.malformed _)
  · exact (comesTo_dropKey (h.openBlock (t := .sequenceStart) trivial)).bind fun _ hs =>
      comesTo_push hs hs.cursor.next rfl trivial

/-- A question mark is read, where a key may stand. -/
theorem comesTo_explicitKey (h : s.IsIn cs) :
    ComesTo (Unreadable cs) (·.IsIn cs) s.explicitKey := by
  unfold explicitKey
  dsimp only
  split
  · exact .error (.malformed _)
  · exact (comesTo_dropKey (h.openBlock (t := .mappingStart) trivial)).bind fun _ hs =>
      comesTo_push hs hs.cursor.next rfl trivial

/-- A colon is read: for what was noted as a key, or where a value may stand. -/
theorem comesTo_value (h : s.IsIn cs) : ComesTo (Unreadable cs) (·.IsIn cs) s.value := by
  unfold value
  split
  · exact .ok (h.valueOfSimple _)
  · dsimp only
    split
    · exact .error (.malformed _)
    · exact (comesTo_dropKey (h.openBlock (t := .mappingStart) trivial)).bind fun _ hs =>
        comesTo_push hs hs.cursor.next rfl trivial

/-- What is read in one piece is read: an alias, an anchor or a tag. -/
theorem comesTo_atom (h : s.IsIn cs) {read : Cursor → Except Fault (Token × Cursor)}
    (hread : ∀ cur : Cursor, cur.IsIn cs →
      ComesTo (Unreadable cs) (fun r => r.1.IsReadable ∧ r.2.IsIn cs) (read cur)) :
    ComesTo (Unreadable cs) (·.IsIn cs) (s.atom read) :=
  (comesTo_noteKey h).bind fun _ hs => (hread _ hs.cursor).bind fun _ hr =>
    comesTo_push hs hr.2 rfl hr.1

/-- A quoted scalar is read as a token. -/
theorem comesTo_quoted (h : s.IsIn cs) (quote : Char) :
    ComesTo (Unreadable cs) (·.IsIn cs) (s.quoted quote) :=
  comesTo_atom h fun _ hcur => (Scalar.comesTo_quotedBody quote hcur.next).bind fun _ hr =>
    .ok ⟨trivial, hr⟩

/-- A block is read as a token. -/
theorem comesTo_blockScalar (h : s.IsIn cs) (folded : Bool) :
    ComesTo (Unreadable cs) (·.IsIn cs) (s.blockScalar folded) :=
  (comesTo_dropKey h).bind fun s hs =>
    (Scalar.comesTo_block folded s.indent hs.cursor.next).bind fun _ hr =>
      comesTo_push hs hr rfl trivial

/-- A plain scalar is read as a token. -/
theorem comesTo_plain (h : s.IsIn cs) : ComesTo (Unreadable cs) (·.IsIn cs) s.plain :=
  (comesTo_noteKey h).bind fun _ hs =>
    comesTo_push hs (Scalar.isIn_plain hs.cursor) rfl trivial

/-- **Every kind of token** is read from the text. -/
theorem comesTo_token (h : s.IsIn cs) (c : Char) :
    ComesTo (Unreadable cs) (·.IsIn cs) (s.token c) := by
  unfold token
  extract_lets atStart spaced
  refine .ite (comesTo_directive h) ?_
  refine .ite (comesTo_documentMark h trivial) ?_
  refine .ite (comesTo_documentMark h trivial) ?_
  refine .ite (comesTo_openFlow h trivial) ?_
  refine .ite (comesTo_openFlow h trivial) ?_
  refine .ite (comesTo_closeFlow h trivial) ?_
  refine .ite (comesTo_closeFlow h trivial) ?_
  refine .ite (comesTo_flowEntry h) ?_
  refine .ite (comesTo_blockEntry h) ?_
  refine .ite (comesTo_explicitKey h) ?_
  refine .ite (comesTo_value h) ?_
  refine .ite (comesTo_atom h fun _ hcur =>
    (comesTo_readName hcur.next).bind fun _ hr => .ok ⟨trivial, hr⟩) ?_
  refine .ite (comesTo_atom h fun _ hcur =>
    (comesTo_readName hcur.next).bind fun _ hr => .ok ⟨trivial, hr⟩) ?_
  refine .ite (comesTo_atom h fun _ hcur => comesTo_readTag hcur) ?_
  refine .ite (comesTo_blockScalar h false) ?_
  refine .ite (comesTo_blockScalar h true) ?_
  refine .ite (comesTo_quoted h c) ?_
  refine .ite (comesTo_plain h) ?_
  exact .error (.malformed _)

/-- **A step of the lexer** keeps to the text. -/
theorem comesTo_step (h : s.IsIn cs) : ComesTo (Unreadable cs) (·.IsIn cs) s.step := by
  refine (comesTo_dropStale h.skipGap).bind fun s hs => ?_
  dsimp only
  split
  · exact comesTo_endStream (hs.unwindTo _)
  · exact comesTo_token (hs.unwindTo _) _

/-- The tokens that are settled are among those so far. -/
theorem mem_of_mem_settled {t : Token} (h : t ∈ s.settled) : t ∈ s.tokens :=
  List.mem_of_mem_drop (List.mem_reverse.1 h)

/-- **The tokens of a run** are readable but for the last one, which says what the text holds. -/
theorem unreadable_of_mem_run (steps : Nat) (h : s.IsIn cs) {fault : Fault}
    (hmem : .unreadable fault ∈ run steps s) : Unreadable cs fault := by
  have hstop : ∀ {s : Lexer} {other}, s.IsIn cs → Unreadable cs other →
      .unreadable fault ∈ s.stopAt other → Unreadable cs fault := by
    intro s other hs hother hmem
    obtain hmem | hmem := List.mem_append.1 hmem
    · exact (hs.tokens _ (mem_of_mem_settled hmem)).elim
    · cases List.mem_singleton.1 hmem
      exact hother
  induction steps generalizing s with
  | zero => exact hstop h (.malformed _) hmem
  | succ steps ih =>
    have hcomes := comesTo_step h
    rw [run] at hmem
    split at hmem
    · exact hstop h (hcomes.of_eq_error ‹_›) hmem
    · rename_i after hafter
      have hin := hcomes.of_eq_ok hafter
      split at hmem
      · exact (hin.tokens _ (List.mem_reverse.1 hmem)).elim
      · exact ih hin hmem

end Lexer

/-- **Where the tokens of a text end unreadable**, the text holds the reason. -/
theorem unreadable_of_mem_tokens {text : String} {fault : Fault}
    (h : .unreadable fault ∈ tokens text) : Unreadable text.toList fault := by
  unfold tokens at h
  dsimp only at h
  split at h
  · refine Lexer.unreadable_of_mem_run _ ⟨?_, List.forall_mem_nil _⟩ h
    have hstart : Cursor.IsIn { rest := text.toList } text.toList := List.suffix_rfl
    split
    · exact hstart.next
    · exact hstart
  · cases List.mem_singleton.1 h
    exact .malformed _

end TreeSchema.Yaml
