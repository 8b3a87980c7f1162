import TreeSchema.Text.Surrogate
import TreeSchema.Yaml.Cursor

/-!
# Scalars of YAML

A scalar is plain, quoted or a block. Its text is folded: a single line break between two lines
counts as a space, and of more breaks the first one is dropped (`foldBreaks`). Each reader gives the
text of the scalar and the place after it.

The three kinds have little in common beyond this. A plain scalar ends where something else may
begin, which depends on whether it stands inside a flow collection and how far it is indented, and
nothing can be wrong with it. A quoted scalar ends at its quote and may have escapes between two
double quotes; its lines may begin anywhere, but not with the mark of a document. A block says in
its header what becomes of the line breaks at its end, and how far its lines are indented, or else
this is found out from the lines that it begins with.

Each reader is a recursion on the text that is left, and what it calls for a part of its work uses
up some of it. That the text gets shorter is said beside the definitions, in terms of the place
after what was read; the recursions end for this reason and for no other.
-/

namespace TreeSchema.Yaml.Scalar

/-- What a reader gives: the characters that it read and the place after them. -/
abbrev Taken := List Char × Cursor

/-- The line breaks after a first one, folded. -/
def foldBreaks (first : Char) (more : List Char) : List Char :=
  if first ≠ '\n' then first :: more
  else if more.isEmpty then [' ']
  else more

/-! ## Plain scalars -/

/-- Whether a plain scalar ends before the character `c`, which `r` follows. -/
def endsPlain (flow : Bool) (c : Char) (r : List Char) : Bool :=
  isBlankGap (some c) ||
    (c = ':' && (isBlankGap r.head? || (flow && r.head?.any isFlowMark))) ||
    (flow && (c = '?' || isFlowMark c))

/-- The characters of a plain scalar up to a gap. -/
def plainPiece (flow : Bool) : List Char → List Char
  | [] => []
  | c :: r => if endsPlain flow c r then [] else c :: plainPiece flow r

/-- The gap after a piece of a plain scalar: its folded characters, none if the scalar ends with it,
the place after the gap, and whether it spans a line break. -/
structure Gap where
  chars : List Char
  after : Cursor
  broken : Bool

/-- The spaces and line breaks at a cursor: the breaks, the place after them, and whether they lead
to a mark between documents. -/
def breaksAndSpaces (cur : Cursor) : List Char × Cursor × Bool :=
  if cur.atSeparator then ([], cur, true)
  else
    let start := cur.skipSpaces
    match h : start.lineBreak? with
    | none => ([], start, false)
    | some (c, after) =>
      have : after.rest.length < cur.rest.length :=
        Nat.lt_of_lt_of_le (Cursor.length_of_lineBreak? h) (Cursor.length_takeWhile_le cur _)
      let (more, last, separated) := breaksAndSpaces after
      (c :: more, last, separated)
termination_by cur.rest.length

/-- What follows line breaks is not longer. -/
theorem length_breaksAndSpaces_le (cur : Cursor) :
    (breaksAndSpaces cur).2.1.rest.length ≤ cur.rest.length := by
  fun_induction breaksAndSpaces cur with
  | case1 cur h => exact Nat.le_refl _
  | case2 cur h start hs => exact Cursor.length_skipSpaces_le cur
  | case3 cur h start c after hs hlt more last separated hr ih =>
    rw [hr] at ih
    exact Nat.le_trans ih (Nat.le_of_lt hlt)

/-- The gap at a cursor. -/
def plainGap (cur : Cursor) : Gap :=
  let (spaces, start) := cur.takeWhile (· = ' ')
  match start.lineBreak? with
  | none => ⟨spaces, start, false⟩
  | some (c, after) =>
    let (more, last, separated) := breaksAndSpaces after
    ⟨if separated then [] else foldBreaks c more, last, true⟩

/-- A gap that has characters moves the cursor on. -/
theorem length_of_plainGap {cur : Cursor} (h : (plainGap cur).chars.isEmpty = false) :
    (plainGap cur).after.rest.length < cur.rest.length := by
  unfold plainGap at h ⊢
  simp only at h ⊢
  split at h
  · rename_i hb
    simp only [Cursor.takeWhile] at h ⊢
    have hle := (List.takeWhile_sublist (l := cur.rest) (· = ' ')).length_le
    cases hsp : cur.rest.takeWhile (· = ' ') with
    | nil => simp [hsp] at h
    | cons a as =>
      simp only [hsp, List.length_cons] at hle ⊢
      simp only [Cursor.rest_advance, List.length_drop]
      omega
  · rename_i c after hb
    exact Nat.lt_of_le_of_lt (length_breaksAndSpaces_le after)
      (Nat.lt_of_lt_of_le (Cursor.length_of_lineBreak? hb) (Cursor.length_takeWhile_le cur _))

/-- A plain scalar as it was read, and whether it ended after a line break. -/
structure Plain where
  chars : List Char
  after : Cursor
  broken : Bool

/-- Reads a plain scalar. In block context its later lines are indented to the column `indent` at
least. A comment ends it. -/
def plain (flow : Bool) (indent : Int) (cur : Cursor) : Plain :=
  let piece := plainPiece flow cur.rest
  let gap := plainGap (cur.advance piece.length)
  let outside := !flow && (gap.after.column : Int) < indent
  if h : gap.chars.isEmpty = true then ⟨piece, gap.after, gap.broken⟩
  else if gap.after.peek = some '#' || outside || (plainPiece flow gap.after.rest).isEmpty then
    ⟨piece, gap.after, gap.broken⟩
  else
    have : gap.after.rest.length < cur.rest.length :=
      Nat.lt_of_lt_of_le (length_of_plainGap (Bool.eq_false_iff.2 h)) (by simp)
    let more := plain flow indent gap.after
    ⟨piece ++ gap.chars ++ more.chars, more.after, more.broken⟩
termination_by cur.rest.length

/-! ## Quoted scalars -/

/-- The character that a letter stands for after a backslash. -/
def shortEscape? (c : Char) : Option Char :=
  match c with
  | '0' => some '\x00'
  | 'a' => some '\x07'
  | 'b' => some '\x08'
  | 't' | '\t' => some '\t'
  | 'n' => some '\n'
  | 'v' => some '\x0b'
  | 'f' => some '\x0c'
  | 'r' => some '\r'
  | 'e' => some '\x1b'
  | ' ' | '"' | '\\' | '/' => some c
  | 'N' => some '\u0085'
  | '_' => some '\u00a0'
  | 'L' => some '\u2028'
  | 'P' => some '\u2029'
  | _ => none

/-- The number of digits of a code after a letter and a backslash. -/
def codeWidth? : Char → Option Nat
  | 'x' => some 2
  | 'u' => some 4
  | 'U' => some 8
  | _ => none

/-- The line breaks at a cursor with the blanks around them, in a quoted scalar. -/
def quotedBreaks (cur : Cursor) : Except Fault { t : Taken // t.2.rest.length ≤ cur.rest.length } :=
  if cur.atSeparator then .error (.malformed .separatorInScalar)
  else
    let start := (cur.takeWhile fun c => c = ' ' || c = '\t').2
    have hs := Cursor.length_takeWhile_le cur fun c => c = ' ' || c = '\t'
    match h : start.lineBreak? with
    | none => .ok ⟨([], start), hs⟩
    | some (c, after) =>
      have ha : after.rest.length < cur.rest.length :=
        Nat.lt_of_lt_of_le (Cursor.length_of_lineBreak? h) hs
      do
        let more ← quotedBreaks after
        return ⟨(c :: more.1.1, more.1.2), Nat.le_trans more.2 (Nat.le_of_lt ha)⟩
termination_by cur.rest.length

/-- The blanks and line breaks at a cursor, folded, in a quoted scalar. -/
def quotedGap (cur : Cursor) : Except Fault Taken := do
  let (blanks, start) := cur.takeWhile fun c => c = ' ' || c = '\t'
  match start.lineBreak? with
  | none => return (blanks, start)
  | some (c, after) =>
    let more ← quotedBreaks after
    return (foldBreaks c more.1.1, more.1.2)

/-- A gap moves the cursor on. -/
theorem length_of_quotedGap {cur : Cursor} {c : Char} {t : Taken} (hc : cur.peek = some c)
    (hg : isBlankGap (some c) = true) (h : quotedGap cur = .ok t) :
    t.2.rest.length < cur.rest.length := by
  unfold quotedGap at h
  simp only at h
  have hle := Cursor.length_takeWhile_le cur fun c => c = ' ' || c = '\t'
  split at h
  · rename_i hn
    obtain rfl := Except.ok.inj h
    by_cases hb : (c = ' ' || c = '\t') = true
    · exact Cursor.length_takeWhile_lt hc hb
    · exfalso
      obtain ⟨r, hr⟩ := List.head?_eq_some_iff.1 hc
      have hbreak : isBreak c = true := by
        simpa [isBlankGap, isBreak, hb] using hg
      have hsame : (cur.takeWhile fun c => c = ' ' || c = '\t').2 = cur := by
        simp [Cursor.takeWhile, hr, hb, Cursor.advance]
      rw [hsame] at hn
      simpa [hn] using Cursor.lineBreak?_isSome hc hbreak
  · rename_i d after hb
    cases hq : quotedBreaks after with
    | error e => simp [hq, bind, Except.bind] at h
    | ok more =>
      simp only [hq, bind, Except.bind] at h
      obtain rfl := Except.ok.inj h
      exact Nat.lt_of_le_of_lt more.2 (Nat.lt_of_lt_of_le (Cursor.length_of_lineBreak? hb) hle)

/-- The escape after a backslash: the characters that it stands for and the place after it. An
escaped line break stands for the breaks that follow it. -/
def escape (cur : Cursor) : Except Fault Taken :=
  match cur.peek with
  | none => .error (.malformed .badEscape)
  | some c =>
    match shortEscape? c, codeWidth? c, cur.lineBreak? with
    | some e, _, _ => .ok ([e], cur.next)
    | none, some width, _ =>
      match Text.hexNumber? (cur.next.rest.take width) with
      | none => .error (.malformed .badEscape)
      | some code =>
        if (cur.next.rest.take width).length < width then .error (.malformed .badEscape)
        else if 0x110000 ≤ code then .error (.codeRange code)
        else .ok ([Text.charOf code], cur.next.advance width)
    | none, none, some (_, after) => do return (← quotedBreaks after).1
    | none, none, none => .error (.malformed .badEscape)

/-- An escape does not move the cursor back. -/
theorem length_of_escape {cur : Cursor} {t : Taken} (h : escape cur = .ok t) :
    t.2.rest.length ≤ cur.rest.length := by
  unfold escape at h
  split at h
  · cases h
  · split at h
    · obtain rfl := Except.ok.inj h
      simp
    · split at h
      · cases h
      · split at h
        · cases h
        · split at h
          · cases h
          · obtain rfl := Except.ok.inj h
            simp only [Cursor.rest_advance, Cursor.rest_next, List.length_drop]
            omega
    · rename_i d after _ _ hb
      cases hq : quotedBreaks after with
      | error e => simp [hq, bind, Except.bind] at h
      | ok more =>
        simp only [hq, bind, Except.bind] at h
        obtain rfl := Except.ok.inj h
        exact Nat.le_trans more.2 (Nat.le_of_lt (Cursor.length_of_lineBreak? hb))
    · cases h

/-- What stands at a cursor inside a quoted scalar: its end, or characters and the place after
them. -/
def quotedPart (quote : Char) (cur : Cursor) : Except Fault (Cursor ⊕ Taken) :=
  match cur.rest with
  | [] => .error (.malformed .unexpectedEnd)
  | c :: r =>
    if isBlankGap (some c) then (quotedGap cur).map .inr
    else if c = quote then
      if quote = '\'' ∧ r.head? = some '\'' then .ok (.inr (['\''], cur.advance 2))
      else .ok (.inl cur.next)
    else if c = '\\' ∧ quote = '"' then (escape cur.next).map .inr
    else .ok (.inr ([c], cur.next))

/-- Every part of a quoted scalar has at least one character. -/
theorem length_of_quotedPart {quote : Char} {cur : Cursor} {t : Taken}
    (h : quotedPart quote cur = .ok (.inr t)) : t.2.rest.length < cur.rest.length := by
  unfold quotedPart at h
  split at h
  · cases h
  · rename_i c r hr
    have hc : cur.peek = some c := by simp [Cursor.peek, hr]
    have hnext : cur.next.rest.length < cur.rest.length := by simp [hr]
    split at h
    · rename_i hg
      cases hq : quotedGap cur with
      | error e => simp [hq, Except.map] at h
      | ok u =>
        simp only [hq, Except.map, Except.ok.injEq, Sum.inr.injEq] at h
        exact h ▸ length_of_quotedGap hc hg hq
    · split at h
      · split at h
        · obtain rfl := Sum.inr.inj (Except.ok.inj h)
          simp only [Cursor.rest_advance, List.length_drop, hr, List.length_cons]
          omega
        · cases h
      · split at h
        · cases hq : escape cur.next with
          | error e => simp [hq, Except.map] at h
          | ok u =>
            simp only [hq, Except.map, Except.ok.injEq, Sum.inr.injEq] at h
            exact h ▸ Nat.lt_of_le_of_lt (length_of_escape hq) hnext
        · obtain rfl := Sum.inr.inj (Except.ok.inj h)
          exact hnext

/-- Reads a quoted scalar after its opening quote. -/
def quotedBody (quote : Char) (cur : Cursor) : Except Fault Taken :=
  match h : quotedPart quote cur with
  | .error fault => .error fault
  | .ok (.inl after) => .ok ([], after)
  | .ok (.inr (cs, after)) =>
    have : after.rest.length < cur.rest.length := length_of_quotedPart h
    do
      let (more, last) ← quotedBody quote after
      return (cs ++ more, last)
termination_by cur.rest.length

/-! ## Block scalars -/

/-- What the last line breaks of a block scalar come to. -/
inductive Chomping where
  /-- All are dropped. -/
  | strip
  /-- The first one is kept. -/
  | clip
  /-- All are kept. -/
  | keep
  deriving DecidableEq

/-- The chomping that a sign stands for. -/
def chomping? : Option Char → Option Chomping
  | some '+' => some .keep
  | some '-' => some .strip
  | _ => none

/-- The indentation that a digit stands for. -/
def indentDigit? : Option Char → Option Nat
  | some c => if '0' ≤ c && c ≤ '9' then some (c.toNat - 48) else none
  | none => none

/-- The header of a block scalar: chomping, indentation if it is given, and the place after the
header. -/
def blockHeader (cur : Cursor) : Except Fault (Chomping × Option Nat × Cursor) := do
  let (chomping, increment, after) :=
    match chomping? cur.peek with
    | some chomping =>
      match indentDigit? cur.next.peek with
      | some n => (chomping, some n, cur.advance 2)
      | none => (chomping, none, cur.next)
    | none =>
      match indentDigit? cur.peek with
      | some n =>
        match chomping? cur.next.peek with
        | some chomping => (chomping, some n, cur.advance 2)
        | none => (.clip, some n, cur.next)
      | none => (.clip, none, cur)
  if increment = some 0 ∨ !isGap after.peek then throw (.malformed .badBlockHeader)
  match after.endHeader? with
  | some start => return (chomping, increment, start)
  | none => throw (.malformed .badBlockHeader)

/-- The blank lines in front of a block scalar: their breaks, the greatest column that their spaces
reach, and the place after them. -/
def leadingLines (cur : Cursor) : List Char × Nat × Cursor :=
  let start := cur.skipSpaces
  let reached := if cur.peek = some ' ' then start.column else 0
  match h : start.lineBreak? with
  | none => ([], reached, start)
  | some (c, after) =>
    have : after.rest.length < cur.rest.length :=
      Nat.lt_of_lt_of_le (Cursor.length_of_lineBreak? h) (Cursor.length_takeWhile_le cur _)
    let (more, most, last) := leadingLines after
    (c :: more, max reached most, last)
termination_by cur.rest.length

/-- The place after the spaces in front, up to a column. -/
def skipTo (column : Nat) (cur : Cursor) : Cursor :=
  cur.advance (min (cur.rest.takeWhile (· = ' ')).length (column - cur.column))

/-- What follows an indentation is not longer. -/
theorem length_skipTo_le (column : Nat) (cur : Cursor) :
    (skipTo column cur).rest.length ≤ cur.rest.length := by
  simp [skipTo]

/-- The blank lines at a cursor and the spaces up to a column after them. -/
def blankLines (column : Nat) (cur : Cursor) : Taken :=
  let start := skipTo column cur
  match h : start.lineBreak? with
  | none => ([], start)
  | some (c, after) =>
    have : after.rest.length < cur.rest.length :=
      Nat.lt_of_lt_of_le (Cursor.length_of_lineBreak? h) (length_skipTo_le column cur)
    let (more, last) := blankLines column after
    (c :: more, last)
termination_by cur.rest.length

/-- What follows blank lines is not longer. -/
theorem length_blankLines_le (column : Nat) (cur : Cursor) :
    (blankLines column cur).2.rest.length ≤ cur.rest.length := by
  fun_induction blankLines column cur with
  | case1 cur start hs => exact length_skipTo_le column cur
  | case2 cur start c after hs hlt more last hr ih =>
    rw [hr] at ih
    exact Nat.le_trans ih (Nat.le_of_lt hlt)

/-- Whether a line starts with a space or a tab. -/
def startsBlank (cur : Cursor) : Bool := cur.peek = some ' ' || cur.peek = some '\t'

/-- The lines of a block scalar at the column of its indentation: their characters, the last line
break and the breaks of the blank lines after it, and the place after them. -/
def blockLines (folded : Bool) (column : Nat) (cur : Cursor) :
    List Char × List Char × List Char × Cursor :=
  let line := cur.takeWhile fun c => !isBreak c
  match h : line.2.lineBreak? with
  | none => (line.1, [], [], line.2)
  | some (c, next) =>
    let blank := blankLines column next
    have : blank.2.rest.length < cur.rest.length :=
      Nat.lt_of_le_of_lt (length_blankLines_le column next)
        (Nat.lt_of_lt_of_le (Cursor.length_of_lineBreak? h) (Cursor.length_takeWhile_le cur _))
    if blank.2.column = column ∧ blank.2.peek.isSome then
      let joint :=
        if folded && c = '\n' && !startsBlank cur && !startsBlank blank.2 then
          if blank.1.isEmpty then [' '] else []
        else [c]
      let (more, lastBreak, lastBreaks, last) := blockLines folded column blank.2
      (line.1 ++ joint ++ blank.1 ++ more, lastBreak, lastBreaks, last)
    else (line.1, [c], blank.1, blank.2)
termination_by cur.rest.length

/-- Reads a block scalar after its indicator, where the enclosing block is indented to `indent`. -/
def block (folded : Bool) (indent : Int) (cur : Cursor) : Except Fault Taken := do
  let (chomping, increment, start) ← blockHeader cur
  let least := (max 1 (indent + 1)).toNat
  let (column, breaks, first) :=
    match increment with
    | none =>
      let (breaks, most, first) := leadingLines start
      (max least most, breaks, first)
    | some n =>
      let column := least + n - 1
      let (breaks, first) := blankLines column start
      (column, breaks, first)
  let (text, lastBreak, lastBreaks, last) :=
    if first.column = column ∧ first.peek.isSome then
      let (text, lastBreak, lastBreaks, last) := blockLines folded column first
      (breaks ++ text, lastBreak, lastBreaks, last)
    else ([], [], breaks, first)
  let tail :=
    match chomping with
    | .strip => []
    | .clip => lastBreak
    | .keep => lastBreak ++ lastBreaks
  return (text ++ tail, last)

end TreeSchema.Yaml.Scalar
