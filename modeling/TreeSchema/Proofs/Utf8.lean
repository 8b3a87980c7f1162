import TreeSchema.Text.Surrogate
import TreeSchema.Text.Utf8

/-!
# Writing UTF-8

The bytes of a text are read as the text again (`decode_encode`). A character takes one byte, two,
three or four by the size of its code, and the first byte tells which. After some first bytes the
second one has a narrower range, where a shorter form would do or where the code would be that of a
surrogate or too large. No character has such a code, so every byte that is written is in its range.

Reading is a table of first bytes and a loop over the bytes after them, and the proof goes the same
way. A first byte that was written is found in its place of the table (`lead?_two` and the like);
the six bits that each byte after it has are put behind those that were read before
(`continueWith_more`, `continueWith_last`); and the two together say what a character of two, three
or four bytes is read to, in front of whatever follows (`decodeFrom_two` and the two after it).

What is written is given by the code in base 64. The digits of it are named there, with the bounds
that each of them has: it is these bounds, and that no code is the one of a surrogate, that the
narrower ranges come down to.

That the text reads back is asked for where a schema is loaded from a file: a text in a file is the
text that was written there, so that loading it is loading the text.
-/

namespace TreeSchema.Text.Utf8

/-- A number below 256 is the byte with that number. -/
theorem toNat_ofNat {n : Nat} (h : n < 256) : (UInt8.ofNat n).toNat = n :=
  UInt8.toNat_ofNat_of_lt' h

/-! ## First bytes -/

/-- A code below 128 is its own byte. -/
theorem lead?_one {n : Nat} (h : n < 0x80) :
    lead? (UInt8.ofNat n) = some (.inl (Char.ofNat n)) := by
  simp only [lead?, toNat_ofNat (Nat.lt_trans h (by decide))]
  rw [if_pos h]

/-- The first byte of two. The least ones are left out, since one byte would do. -/
theorem lead?_two {v : Nat} (hlow : 2 ≤ v) (hhigh : v < 0x20) :
    lead? (UInt8.ofNat (v + 0xC0)) = some (.inr ⟨v, 0x80, 0xBF, 0⟩) := by
  simp only [lead?, toNat_ofNat (show v + 0xC0 < 256 by omega)]
  rw [if_neg (by omega), if_neg (by omega), if_pos (by omega), Nat.add_sub_cancel]

/-- The first byte of three. After the least one a shorter form has to be kept out, and after the
fourteenth one the codes of surrogates. -/
theorem lead?_three {v : Nat} (h : v < 0x10) :
    lead? (UInt8.ofNat (v + 0xE0))
      = some (.inr ⟨v, if v = 0 then 0xA0 else 0x80, if v = 13 then 0x9F else 0xBF, 1⟩) := by
  have hfirst : v + 0xE0 = 0xE0 ↔ v = 0 := by omega
  have hlast : v + 0xE0 = 0xED ↔ v = 13 := by omega
  simp only [lead?, toNat_ofNat (show v + 0xE0 < 256 by omega), hfirst, hlast]
  rw [if_neg (by omega), if_neg (by omega), if_neg (by omega), if_pos (by omega),
    Nat.add_sub_cancel]

/-- The first byte of four. After the least one a shorter form has to be kept out, and after the
last one the codes that are too large. -/
theorem lead?_four {v : Nat} (h : v < 5) :
    lead? (UInt8.ofNat (v + 0xF0))
      = some (.inr ⟨v, if v = 0 then 0x90 else 0x80, if v = 4 then 0x8F else 0xBF, 2⟩) := by
  have hfirst : v + 0xF0 = 0xF0 ↔ v = 0 := by omega
  have hlast : v + 0xF0 = 0xF4 ↔ v = 4 := by omega
  simp only [lead?, toNat_ofNat (show v + 0xF0 < 256 by omega), hfirst, hlast]
  rw [if_neg (by omega), if_neg (by omega), if_neg (by omega), if_neg (by omega),
    if_pos (by omega), Nat.add_sub_cancel]

/-! ## Bytes after the first one -/

variable {value low high d : Nat} {bs rest : List UInt8}

/-- The last byte of a character. -/
theorem continueWith_last (hd : d < 0x40) (hlow : low ≤ d + 0x80) (hhigh : d + 0x80 ≤ high) :
    continueWith value low high 0 (UInt8.ofNat (d + 0x80) :: bs) = .ok (value * 64 + d, bs) := by
  have hbyte : (UInt8.ofNat (d + 0x80)).toNat = d + 0x80 := toNat_ofNat (by omega)
  rw [continueWith, hbyte, if_pos ⟨hlow, hhigh⟩, Nat.add_sub_cancel]

/-- A byte that others follow. -/
theorem continueWith_more {more code : Nat} (hd : d < 0x40) (hlow : low ≤ d + 0x80)
    (hhigh : d + 0x80 ≤ high)
    (h : continueWith (value * 64 + d) 0x80 0xBF more bs = .ok (code, rest)) :
    continueWith value low high (more + 1) (UInt8.ofNat (d + 0x80) :: bs) = .ok (code, rest) := by
  have hbyte : (UInt8.ofNat (d + 0x80)).toNat = d + 0x80 := toNat_ofNat (by omega)
  rw [continueWith, hbyte, if_pos ⟨hlow, hhigh⟩, Nat.add_sub_cancel]
  simp only [h]

/-! ## Characters -/

/-- A character of one byte. -/
theorem decodeFrom_of_char {b : UInt8} {c : Char} (h : lead? b = some (.inl c)) (position : Nat) :
    decodeFrom position (b :: bs) = do return c :: (← decodeFrom (position + 1) bs) := by
  rw [decodeFrom]
  simp only [h]

/-- A character of more bytes than one, when the bytes after the first one are in their ranges. -/
theorem decodeFrom_of_lead {b : UInt8} {more code : Nat}
    (h : lead? b = some (.inr ⟨value, low, high, more⟩))
    (hcode : continueWith value low high more bs = .ok (code, rest)) (position : Nat) :
    decodeFrom position (b :: bs)
      = do return Char.ofNat code :: (← decodeFrom (position + more + 2) rest) := by
  rw [decodeFrom]
  simp only [h]
  split
  · rename_i hcode'
    cases hcode.symm.trans hcode'
    rfl
  · rename_i hcode'
    cases hcode.symm.trans hcode'

section

variable {a b e : Nat} (position : Nat) (rest : List UInt8)

/-- Two bytes are no shorter form. -/
theorem decodeFrom_two (hlow : 2 ≤ a) (ha : a < 0x20) (hb : b < 0x40) :
    decodeFrom position (UInt8.ofNat (a + 0xC0) :: UInt8.ofNat (b + 0x80) :: rest)
      = do return Char.ofNat (a * 64 + b) :: (← decodeFrom (position + 2) rest) :=
  decodeFrom_of_lead (lead?_two hlow ha) (continueWith_last hb (by omega) (by omega)) position

/-- Three bytes are no shorter form, and no surrogate. -/
theorem decodeFrom_three (ha : a < 0x10) (hb : b < 0x40) (hd : d < 0x40)
    (hlong : a = 0 → 0x20 ≤ b) (hsurrogate : a = 13 → b < 0x20) :
    decodeFrom position
        (UInt8.ofNat (a + 0xE0) :: UInt8.ofNat (b + 0x80) :: UInt8.ofNat (d + 0x80) :: rest)
      = do return Char.ofNat ((a * 64 + b) * 64 + d) :: (← decodeFrom (position + 3) rest) :=
  decodeFrom_of_lead (lead?_three ha)
    (continueWith_more hb (by split <;> omega) (by split <;> omega)
      (continueWith_last hd (by omega) (by omega))) position

/-- Four bytes are no shorter form, and not too large. -/
theorem decodeFrom_four (ha : a < 5) (hb : b < 0x40) (hd : d < 0x40) (he : e < 0x40)
    (hlong : a = 0 → 0x10 ≤ b) (hlarge : a = 4 → b < 0x10) :
    decodeFrom position (UInt8.ofNat (a + 0xF0) :: UInt8.ofNat (b + 0x80) ::
        UInt8.ofNat (d + 0x80) :: UInt8.ofNat (e + 0x80) :: rest)
      = do return Char.ofNat (((a * 64 + b) * 64 + d) * 64 + e) ::
          (← decodeFrom (position + 4) rest) :=
  decodeFrom_of_lead (lead?_four ha)
    (continueWith_more hb (by split <;> omega) (by split <;> omega)
      (continueWith_more hd (by omega) (by omega)
        (continueWith_last he (by omega) (by omega)))) position

end

/-- **The bytes of a character** are read as the character. -/
theorem exists_decodeFrom_eq (c : Char) (position : Nat) (rest : List UInt8) :
    ∃ next, decodeFrom position (String.utf8EncodeChar c ++ rest)
      = do return c :: (← decodeFrom next rest) := by
  have hc : Char.ofNat c.toNat = c := c.ofNat_toNat
  have hsurrogate := not_surrogate c
  have hlarge := toNat_lt c
  unfold String.utf8EncodeChar
  rw [show c.val.toNat = c.toNat from rfl]
  -- The four lengths have one argument each: the digits that were packed are those of the code.
  generalize c.toNat = n at hc hsurrogate hlarge
  dsimp only
  by_cases hone : n ≤ 0x7F
  · rw [if_pos hone]
    have hlead := lead?_one (show n < 0x80 by omega)
    rw [hc] at hlead
    exact ⟨_, decodeFrom_of_char hlead position⟩
  rw [if_neg hone]
  by_cases htwo : n ≤ 0x7FF
  · have hcode : n / 64 % 32 * 64 + n % 64 = n := by omega
    rw [if_pos htwo]
    have hread := decodeFrom_two (a := n / 64 % 32) (b := n % 64) position rest
      (by omega) (by omega) (by omega)
    rw [hcode, hc] at hread
    exact ⟨_, hread⟩
  rw [if_neg htwo]
  by_cases hthree : n ≤ 0xFFFF
  · have hcode : (n / 4096 % 16 * 64 + n / 64 % 64) * 64 + n % 64 = n := by omega
    rw [if_pos hthree]
    have hread := decodeFrom_three (a := n / 4096 % 16) (b := n / 64 % 64) (d := n % 64)
      position rest (by omega) (by omega) (by omega) (by omega) (by omega)
    rw [hcode, hc] at hread
    exact ⟨_, hread⟩
  · have hcode : ((n / 262144 % 8 * 64 + n / 4096 % 64) * 64 + n / 64 % 64) * 64 + n % 64 = n := by
      omega
    rw [if_neg hthree]
    have hread := decodeFrom_four (a := n / 262144 % 8) (b := n / 4096 % 64) (d := n / 64 % 64)
      (e := n % 64) position rest (by omega) (by omega) (by omega) (by omega) (by omega)
      (by omega)
    rw [hcode, hc] at hread
    exact ⟨_, hread⟩

/-! ## Texts -/

/-- The bytes of characters, one after the other, are read as the characters. -/
theorem decodeFrom_flatMap (cs : List Char) (position : Nat) :
    decodeFrom position (cs.flatMap String.utf8EncodeChar) = .ok cs := by
  induction cs generalizing position with
  | nil => rw [List.flatMap_nil, decodeFrom]
  | cons c cs ih =>
    obtain ⟨next, hnext⟩ := exists_decodeFrom_eq c position (cs.flatMap String.utf8EncodeChar)
    rw [List.flatMap_cons, hnext, ih]
    rfl

/-- The bytes of an array, in order. -/
theorem toList_eq_data (bytes : ByteArray) : bytes.toList = bytes.data.toList := by
  have hloop : ∀ i taken, ByteArray.toList.loop bytes i taken
      = taken.reverse ++ bytes.data.toList.drop i := by
    intro i taken
    fun_induction ByteArray.toList.loop bytes i taken with
    | case1 i taken hlt ih =>
      have hlength : i < bytes.data.toList.length := by simpa using hlt
      have hget : bytes.get! i = bytes.data.toList[i] := getElem!_pos bytes.data i hlt
      rw [ih, List.drop_eq_getElem_cons hlength, hget, List.reverse_cons, List.append_assoc,
        List.singleton_append]
    | case2 i taken hge =>
      rw [List.drop_eq_nil_of_le (by simpa using hge), List.append_nil]
  rw [ByteArray.toList, hloop, List.reverse_nil, List.nil_append, List.drop_zero]

/-- **The bytes of a text** are read as the text. -/
theorem decode_encode (s : String) : decode (encode s) = .ok s := by
  have hbytes : encode s = s.toList.flatMap String.utf8EncodeChar := by
    rw [encode, toList_eq_data, String.toUTF8, ← String.utf8Encode_toList, List.utf8Encode,
      List.toList_data_toByteArray]
  rw [decode, hbytes, decodeFrom_flatMap]
  exact congrArg Except.ok String.ofList_toList

end TreeSchema.Text.Utf8
