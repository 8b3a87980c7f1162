import TreeSchema.Json.Basic
import TreeSchema.Number.RealText
import TreeSchema.Stack
import TreeSchema.Text.Surrogate

/-!
# Reading JSON

The reader goes through the text once. Each of its functions takes the characters from its start on
and gives back those that follow what it read, with the fact that they are fewer. What stops a
reader (`Stop`) is a problem together with the rest of the text from the place of the problem on, so
that the position of the problem is known once the reader is back at the whole text
(`Json.decode`).

The bracket of an array or an object takes the reader one level down, before anything that follows
it is looked at. So a reader that runs out of room stops at the first bracket that is too deep, even
where the text would turn out to be malformed further on. In a room without bounds every text is
read to its end or to its first problem.
-/

namespace TreeSchema.Json

/-- What stops a reader. -/
inductive Stop where
  /-- The text is malformed where `rest` begins. -/
  | malformed (problem : Problem) (rest : List Char)
  /-- A number has too many digits. -/
  | numeral (fault : NumeralFault)
  /-- There is no room for one more collection inside the ones that are open. -/
  | tooDeep

/-- What a reader read, and the fewer characters that follow it. -/
structure Read (α : Type) (cs : List Char) where
  value : α
  rest : List Char
  shorter : rest.length < cs.length

/-- Whether a character may stand between the parts of a document. -/
def isSpace (c : Char) : Bool := c = ' ' || c = '\t' || c = '\n' || c = '\r'

/-- The characters after the spaces in front. -/
def skipSpaces (cs : List Char) : List Char := cs.dropWhile isSpace

/-- What follows spaces is not longer. -/
theorem length_skipSpaces_le (cs : List Char) : (skipSpaces cs).length ≤ cs.length :=
  (List.dropWhile_sublist _).length_le

/-! ## Strings -/

/-- The character that a letter stands for after a backslash. -/
def shortEscape? : Char → Option Char
  | '"' => some '"'
  | '\\' => some '\\'
  | '/' => some '/'
  | 'b' => some '\x08'
  | 'f' => some '\x0c'
  | 'n' => some '\n'
  | 'r' => some '\r'
  | 't' => some '\t'
  | _ => none

/-- The codes of a string, if it is well-formed, and the characters after it. -/
abbrev Scan := Except Stop (List Nat × List Char)

/-- Puts a code in front of the codes that are read after it. -/
def pushCode (u : Nat) (scan : Scan) : Scan :=
  match scan with
  | .ok (us, rest) => .ok (u :: us, rest)
  | .error e => .error e

/-- A unit is put in front of those that follow, if these are read. -/
theorem pushCode_eq_ok_iff {u : Nat} {scan : Scan} {us : List Nat} {rest : List Char} :
    pushCode u scan = .ok (us, rest) ↔ ∃ vs, scan = .ok (vs, rest) ∧ us = u :: vs := by
  cases scan with
  | error e => simp [pushCode]
  | ok p =>
    obtain ⟨vs, t⟩ := p
    simp only [pushCode, Except.ok.injEq, Prod.mk.injEq]
    constructor
    · rintro ⟨rfl, rfl⟩
      exact ⟨vs, ⟨rfl, rfl⟩, rfl⟩
    · rintro ⟨ws, ⟨rfl, rfl⟩, rfl⟩
      exact ⟨rfl, rfl⟩

/-- Reads a string up to its closing quote; its opening quote begins `start`. -/
def scanString (start : List Char) : List Char → Scan
  | [] => .error (.malformed .openString start)
  | '"' :: r => .ok ([], r)
  | ['\\'] => .error (.malformed .openString start)
  | '\\' :: 'u' :: a :: b :: c :: d :: r =>
    match Text.hexNumber? [a, b, c, d] with
    | some u =>
      if r.isEmpty then .error (.malformed .badCodeEscape ('u' :: a :: b :: c :: d :: r))
      else pushCode u (scanString start r)
    | none => .error (.malformed .badCodeEscape ('u' :: a :: b :: c :: d :: r))
  | '\\' :: 'u' :: r => .error (.malformed .badCodeEscape ('u' :: r))
  | '\\' :: e :: r =>
    match shortEscape? e with
    | some c => pushCode c.toNat (scanString start r)
    | none => .error (.malformed .badEscape ('\\' :: e :: r))
  | c :: r =>
    if c.toNat < 0x20 then .error (.malformed .controlCharacter (c :: r))
    else pushCode c.toNat (scanString start r)

/-- What follows a string is shorter than the string and what follows it. -/
theorem length_of_scanString {start cs : List Char} {us : List Nat} {rest : List Char}
    (h : scanString start cs = .ok (us, rest)) : rest.length < cs.length := by
  fun_induction scanString start cs generalizing us rest with
  | case2 => cases h; simp
  | case5 a b c d r u hu hr ih | case8 e r _ _ c _ ih | case11 c r _ _ _ _ _ _ ih =>
    obtain ⟨vs, hs, rfl⟩ := pushCode_eq_ok_iff.1 h
    have := ih hs
    simp only [List.length_cons]
    omega
  | case1 | case3 | case4 | case6 | case7 | case9 | case10 => cases h

/-- Reads a string whose opening quote has been read; the quote and the string begin `start`. -/
def readString (start cs : List Char) : Except Stop (Read String cs) :=
  match h : scanString start cs with
  | .ok (us, rest) => .ok ⟨String.ofList (Text.ofUnits us), rest, length_of_scanString h⟩
  | .error e => .error e

/-! ## Numbers -/

/-- Whether a character is a digit of a number. -/
def isDigit (c : Char) : Bool := '0' ≤ c && c ≤ '9'

/-- The digits before the point: a zero alone, or any number of digits without a leading zero. -/
def wholeDigits (cs : List Char) : List Char :=
  match cs with
  | '0' :: _ => ['0']
  | _ => cs.takeWhile isDigit

/-- The digits after a point, if at least one follows it. -/
def placeDigits (cs : List Char) : List Char :=
  match cs with
  | '.' :: r => r.takeWhile isDigit
  | _ => []

/-- The sign and the digits of an exponent, if at least one digit follows its mark. -/
def exponentChars (cs : List Char) : List Char :=
  match cs with
  | c :: r =>
    if c = 'e' ∨ c = 'E' then
      match r with
      | s :: t =>
        if s = '-' ∨ s = '+' then
          if (t.takeWhile isDigit).isEmpty then [] else s :: t.takeWhile isDigit
        else r.takeWhile isDigit
      | [] => []
    else []
  | [] => []

/-- Reads a number. A part that lacks its digits does not belong to it. -/
def readNumber (cs : List Char) : Except Stop (Read Json cs) :=
  let negative := cs.head? == some '-'
  let body := if negative then cs.drop 1 else cs
  let whole := wholeDigits body
  if hw : whole = [] then .error (.malformed .noValue cs)
  else
    let afterWhole := body.drop whole.length
    let places := placeDigits afterWhole
    let afterPlaces := if places.isEmpty then afterWhole else afterWhole.drop (places.length + 1)
    let exponent := exponentChars afterPlaces
    let rest := if exponent.isEmpty then afterPlaces else afterPlaces.drop (exponent.length + 1)
    have hrest : rest.length < cs.length := by
      have h1 : rest.length ≤ afterPlaces.length := by
        simp only [rest]; split <;> simp
      have h2 : afterPlaces.length ≤ afterWhole.length := by
        simp only [afterPlaces]; split <;> simp
      have h3 : afterWhole.length = body.length - whole.length := by simp [afterWhole]
      have h4 : body.length ≤ cs.length := by
        simp only [body]; split <;> simp
      have h5 : 0 < whole.length := List.length_pos_iff.2 hw
      have h6 : 0 < body.length := by
        cases hb : body with
        | nil => simp [whole, hb, wholeDigits] at hw
        | cons c t => simp
      omega
    if places.isEmpty && exponent.isEmpty then
      match readDecimal whole with
      | .ok n => .ok ⟨.int (if negative then -n else n), rest, hrest⟩
      | .error fault => .error (.numeral fault)
    else
      let numeral : RealNumeral := ⟨whole, places, RealNumeral.readExponent exponent⟩
      .ok ⟨.real (numeral.toFloat negative), rest, hrest⟩

/-! ## Documents -/

/-- The words that stand for a value, each with its value. -/
def words : List (String × Json) :=
  [("null", .null), ("true", .bool true), ("false", .bool false), ("NaN", .real notANumber),
    ("Infinity", .real (infinity false)), ("-Infinity", .real (infinity true))]

/-- The word that a text begins with. -/
def word? (cs : List Char) : Option (String × Json) :=
  words.find? fun w => w.1.toList.isPrefixOf cs

/-- What follows a word is shorter. -/
theorem length_drop_word {cs : List Char} {w : String × Json} (h : word? cs = some w) :
    (cs.drop w.1.length).length < cs.length := by
  have hp : w.1.toList.isPrefixOf cs = true := by
    have := List.find?_some h
    simpa using this
  have hm : w ∈ words := List.mem_of_find?_eq_some h
  have hl : 0 < w.1.length := by
    simp only [words, List.mem_cons, List.not_mem_nil, or_false] at hm
    rcases hm with rfl | rfl | rfl | rfl | rfl | rfl <;> decide
  have hle := (List.isPrefixOf_iff_prefix.1 hp).length_le
  rw [String.length_toList] at hle
  rw [List.length_drop]
  omega

mutual

/-- Reads a value that begins at once. -/
def readValue (room : Room) (cs : List Char) : Except Stop (Read Json cs) :=
  match cs with
  | '"' :: r => do
    let p ← readString ('"' :: r) r
    return ⟨.text p.value, p.rest, Nat.lt_succ_of_lt p.shorter⟩
  | '[' :: r => do
    let p ← readArray (← room.enter .tooDeep) r
    return ⟨.array p.value, p.rest, Nat.lt_succ_of_lt p.shorter⟩
  | '\x7b' :: r => do
    let p ← readObject (← room.enter .tooDeep) r
    return ⟨.object p.value, p.rest, Nat.lt_succ_of_lt p.shorter⟩
  | cs =>
    match h : word? cs with
    | some w => .ok ⟨w.2, cs.drop w.1.length, length_drop_word h⟩
    | none => readNumber cs
termination_by (cs.length, 0)

/-- Reads the items of an array whose bracket has been read. -/
def readArray (room : Room) (cs : List Char) : Except Stop (Read (List Json) cs) :=
  have hle := length_skipSpaces_le cs
  match hs : skipSpaces cs with
  | ']' :: rest => .ok ⟨[], rest, by simp [hs] at hle; omega⟩
  | start => do
    let p ← readItems room start
    return ⟨p.value, p.rest, by have := p.shorter; rw [hs] at hle; omega⟩
termination_by (cs.length, 2)
decreasing_by
  rw [hs] at hle
  rcases Nat.lt_or_eq_of_le hle with h | h
  · exact Prod.Lex.left _ _ h
  · rw [h]; exact Prod.Lex.right _ (by decide)

/-- Reads the items of an array from the start of one of them. -/
def readItems (room : Room) (cs : List Char) : Except Stop (Read (List Json) cs) := do
  let p ← readValue room cs
  have hp := p.shorter
  have hle := length_skipSpaces_le p.rest
  match hs : skipSpaces p.rest with
  | ']' :: rest => return ⟨[p.value], rest, by simp [hs] at hle; omega⟩
  | ',' :: r =>
    have hle' := length_skipSpaces_le r
    have : (skipSpaces r).length < cs.length := by simp [hs] at hle; omega
    let q ← readItems room (skipSpaces r)
    return ⟨p.value :: q.value, q.rest, Nat.lt_trans q.shorter this⟩
  | rest => .error (.malformed .noComma rest)
termination_by (cs.length, 1)
decreasing_by
  · exact Prod.Lex.right _ (by decide)
  · exact Prod.Lex.left _ _ this

/-- Reads the members of an object whose brace has been read. -/
def readObject (room : Room) (cs : List Char) : Except Stop (Read (List (String × Json)) cs) :=
  have hle := length_skipSpaces_le cs
  match hs : skipSpaces cs with
  | '\x7d' :: rest => .ok ⟨[], rest, by simp [hs] at hle; omega⟩
  | start => do
    let p ← readMembers room start
    return ⟨p.value, p.rest, by have := p.shorter; rw [hs] at hle; omega⟩
termination_by (cs.length, 2)
decreasing_by
  rw [hs] at hle
  rcases Nat.lt_or_eq_of_le hle with h | h
  · exact Prod.Lex.left _ _ h
  · rw [h]; exact Prod.Lex.right _ (by decide)

/-- Reads the members of an object from the start of a name. -/
def readMembers (room : Room) (cs : List Char) : Except Stop (Read (List (String × Json)) cs) :=
  match cs with
  | '"' :: r => do
    let name ← readString ('"' :: r) r
    have hn := name.shorter
    have hle := length_skipSpaces_le name.rest
    match hs : skipSpaces name.rest with
    | ':' :: r' =>
      have hle' := length_skipSpaces_le r'
      have hv : (skipSpaces r').length < r.length := by simp [hs] at hle; omega
      let p ← readValue room (skipSpaces r')
      have hp := p.shorter
      have hle'' := length_skipSpaces_le p.rest
      match ht : skipSpaces p.rest with
      | '\x7d' :: rest =>
        return ⟨[(name.value, p.value)], rest, by simp [ht] at hle''; simp; omega⟩
      | ',' :: r'' =>
        have hle3 := length_skipSpaces_le r''
        have hm : (skipSpaces r'').length < r.length := by simp [ht] at hle''; omega
        let q ← readMembers room (skipSpaces r'')
        return ⟨(name.value, p.value) :: q.value, q.rest, by have := q.shorter; simp; omega⟩
      | rest => .error (.malformed .noComma rest)
    | rest => .error (.malformed .noColon rest)
  | rest => .error (.malformed .noName rest)
termination_by (cs.length, 1)
decreasing_by
  · exact Prod.Lex.left _ _ (by simp; omega)
  · exact Prod.Lex.left _ _ (by simp; omega)

end

/-- Reads a document with spaces around it, and nothing else. -/
def readDocument (room : Room) (cs : List Char) : Except Stop Json := do
  if cs.head? = some '\uFEFF' then throw (.malformed .byteOrderMark cs)
  let p ← readValue room (skipSpaces cs)
  match skipSpaces p.rest with
  | [] => return p.value
  | rest => throw (.malformed .extraData rest)

/-- Reads the text of a document, with room for as many collections inside each other. -/
def decode (room : Room) (text : String) : Except Fault Json :=
  let cs := text.toList
  (readDocument room cs).mapError fun
    | .malformed problem rest =>
      .malformed problem (Text.Position.after (cs.take (cs.length - rest.length)))
    | .numeral fault => .numeral fault
    | .tooDeep => .tooDeep

end TreeSchema.Json
