import TreeSchema.Yaml.Basic

/-!
# Places in a text

A cursor is a place in a text: the characters from it on, and how many characters, lines and columns
lie before it. The byte order mark takes no column. Moving on drops characters (`rest_advance`), and
each reader of this library moves a cursor on, never back.
-/

namespace TreeSchema.Yaml

/-- A place in a text. -/
structure Cursor where
  rest : List Char
  index : Nat := 0
  line : Nat := 0
  column : Nat := 0

namespace Cursor

/-- The character at a cursor. -/
def peek (cur : Cursor) : Option Char := cur.rest.head?

/-- The character `n` places after a cursor. -/
def peekAt (cur : Cursor) (n : Nat) : Option Char := cur.rest[n]?

/-- The place after the next character. A carriage return breaks the line only if no line feed
follows it. -/
def next (cur : Cursor) : Cursor :=
  match cur.rest with
  | [] => cur
  | c :: r =>
    if isBreak c && !(c = '\r' && r.head? = some '\n') then ⟨r, cur.index + 1, cur.line + 1, 0⟩
    else ⟨r, cur.index + 1, cur.line, if c = '\uFEFF' then cur.column else cur.column + 1⟩

/-- The place after the next `n` characters. -/
def advance (cur : Cursor) : Nat → Cursor
  | 0 => cur
  | n + 1 => cur.next.advance n

@[simp] theorem rest_next (cur : Cursor) : cur.next.rest = cur.rest.drop 1 := by
  obtain ⟨rest, index, line, column⟩ := cur
  cases rest with
  | nil => rfl
  | cons c r => simp only [next]; split <;> rfl

@[simp] theorem rest_advance (cur : Cursor) (n : Nat) : (cur.advance n).rest = cur.rest.drop n := by
  induction n generalizing cur with
  | zero => simp [advance]
  | succ n ih => rw [advance, ih, rest_next, List.drop_drop, Nat.add_comm]

/-- The place after the characters in front that pass a test, and these characters. -/
def takeWhile (cur : Cursor) (p : Char → Bool) : List Char × Cursor :=
  let cs := cur.rest.takeWhile p
  (cs, cur.advance cs.length)

/-- What follows a run of characters is not longer. -/
theorem length_takeWhile_le (cur : Cursor) (p : Char → Bool) :
    (cur.takeWhile p).2.rest.length ≤ cur.rest.length := by
  simp [takeWhile]

/-- What follows a run that is not empty is shorter. -/
theorem length_takeWhile_lt {cur : Cursor} {p : Char → Bool} {c : Char} (hc : cur.peek = some c)
    (hp : p c = true) : (cur.takeWhile p).2.rest.length < cur.rest.length := by
  obtain ⟨r, hr⟩ := List.head?_eq_some_iff.1 hc
  simp only [takeWhile, rest_advance, hr, List.takeWhile_cons, hp, if_true, List.length_cons,
    List.drop_succ_cons, List.length_drop]
  omega

/-- The place after the spaces in front. -/
def skipSpaces (cur : Cursor) : Cursor := (cur.takeWhile (· = ' ')).2

/-- The place after a comment, if there is one. -/
def skipComment (cur : Cursor) : Cursor :=
  if cur.peek = some '#' then (cur.takeWhile fun c => !isBreak c).2 else cur

/-- What follows spaces is not longer. -/
theorem length_skipSpaces_le (cur : Cursor) : cur.skipSpaces.rest.length ≤ cur.rest.length :=
  length_takeWhile_le cur _

/-- What follows a comment is not longer. -/
theorem length_skipComment_le (cur : Cursor) : cur.skipComment.rest.length ≤ cur.rest.length := by
  unfold skipComment
  split
  · exact length_takeWhile_le cur _
  · exact Nat.le_refl _

/-- The line break at a cursor, as the text keeps it, and the place after it. The separators of
lines and paragraphs are kept, every other break is a line feed. -/
def lineBreak? (cur : Cursor) : Option (Char × Cursor) :=
  match cur.rest with
  | '\r' :: '\n' :: _ => some ('\n', cur.advance 2)
  | c :: _ =>
    if c = '\u2028' ∨ c = '\u2029' then some (c, cur.next)
    else if isBreak c then some ('\n', cur.next)
    else none
  | [] => none

/-- What follows a line break is shorter. -/
theorem length_of_lineBreak? {cur after : Cursor} {c : Char}
    (h : cur.lineBreak? = some (c, after)) : after.rest.length < cur.rest.length := by
  obtain ⟨rest, index, line, column⟩ := cur
  unfold lineBreak? at h
  split at h
  · simp only [Option.some.injEq, Prod.mk.injEq] at h
    obtain ⟨hc, rfl⟩ := h
    rename_i heq
    have hl := congrArg List.length heq
    simp only [List.length_cons] at hl
    simp only [rest_advance, List.length_drop]
    omega
  · split at h
    · simp only [Option.some.injEq, Prod.mk.injEq] at h
      obtain ⟨_, rfl⟩ := h
      simp_all
    · split at h
      · simp only [Option.some.injEq, Prod.mk.injEq] at h
        obtain ⟨_, rfl⟩ := h
        simp_all
      · cases h
  · cases h

/-- Where a character of a line break comes next, there is a line break. -/
theorem lineBreak?_isSome {cur : Cursor} {c : Char} (hc : cur.peek = some c)
    (hb : isBreak c = true) : cur.lineBreak?.isSome = true := by
  obtain ⟨r, hr⟩ := List.head?_eq_some_iff.1 hc
  unfold lineBreak?
  split
  · rfl
  · rename_i d s _ hd
    obtain ⟨rfl, rfl⟩ := List.cons.inj (hr.symm.trans hd)
    split
    · rfl
    · rfl
  · rename_i hn
    simp [hr] at hn

/-- The place after the line break at a cursor, if there is one. -/
def skipLineBreak (cur : Cursor) : Cursor :=
  match cur.lineBreak? with
  | some (_, after) => after
  | none => cur

/-- Whether three characters and a gap, the mark of a document, stand at a cursor. -/
def atMark (cur : Cursor) (mark : Char) : Bool :=
  cur.rest.take 3 = [mark, mark, mark] && isBlankGap (cur.peekAt 3)

/-- Whether a mark between documents stands at a cursor. -/
def atSeparator (cur : Cursor) : Bool := cur.atMark '-' || cur.atMark '.'

/-- The place after what may follow a header on its line: spaces, a comment and the line break. -/
def endHeader? (cur : Cursor) : Option Cursor :=
  let after := cur.skipSpaces.skipComment
  if endsLine after.peek then some after.skipLineBreak else none

end Cursor

end TreeSchema.Yaml
