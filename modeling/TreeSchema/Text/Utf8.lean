import TreeSchema.Text.Hexadecimal

/-!
# UTF-8

Reading UTF-8 strictly. The first byte of a character decides how many bytes belong to it and in
which range its second byte lies (`Lead`); the other bytes are continuation bytes. A fault covers
the bytes that still were the start of a character (`Utf8.Fault`).
-/

namespace TreeSchema.Text.Utf8

/-- Why bytes are not UTF-8. -/
inductive Reason where
  /-- No character starts with the byte. -/
  | start
  /-- The bytes start a character, but what follows them does not go on with it. -/
  | continuation
  /-- The text ends inside a character. -/
  | unexpectedEnd
  deriving DecidableEq

/-- The wording of a reason. -/
def Reason.message : Reason → String
  | start => "invalid start byte"
  | continuation => "invalid continuation byte"
  | unexpectedEnd => "unexpected end of data"

/-- Bytes that are not UTF-8: where they start, the bytes from the first one on, and how many of
them belong to the fault. -/
structure Fault where
  position : Nat
  first : UInt8
  length : Nat
  reason : Reason
  deriving DecidableEq

/-- The wording of bytes that are not UTF-8. -/
def Fault.message (f : Fault) : String :=
  let byte := String.ofList (hexDigits 2 f.first.toNat)
  let start := toString f.position
  let last := toString (f.position + f.length - 1)
  let place :=
    if f.length = 1 then s!"byte 0x{byte} in position {start}"
    else s!"bytes in position {start}-{last}"
  let reason := f.reason.message
  s!"'utf-8' codec can't decode {place}: {reason}"

/-- What a first byte says about its character: the value it contributes, the range of the second
byte, and the number of bytes after that. -/
structure Lead where
  value : Nat
  low : Nat
  high : Nat
  more : Nat

/-- The character that a byte is alone, or what it says about the bytes after it. -/
def lead? (b : UInt8) : Option (Char ⊕ Lead) :=
  let n := b.toNat
  if n < 0x80 then some (.inl (Char.ofNat n))
  else if n < 0xC2 then none
  else if n < 0xE0 then some (.inr ⟨n - 0xC0, 0x80, 0xBF, 0⟩)
  else if n < 0xF0 then
    some (.inr ⟨n - 0xE0, if n = 0xE0 then 0xA0 else 0x80, if n = 0xED then 0x9F else 0xBF, 1⟩)
  else if n < 0xF5 then
    some (.inr ⟨n - 0xF0, if n = 0xF0 then 0x90 else 0x80, if n = 0xF4 then 0x8F else 0xBF, 2⟩)
  else none

/-- Where the bytes of a character stop short of it: the number of bytes that belong to it, and
why. -/
abbrev Short := Nat × Reason

/-- Reads continuation bytes: the first in a range, then `more` of any value. Gives the code that
grows from `value` and the bytes left. -/
def continueWith (value low high : Nat) :
    (more : Nat) → List UInt8 → Except Short (Nat × List UInt8)
  | _, [] => .error (1, .unexpectedEnd)
  | more, b :: bs =>
    if low ≤ b.toNat ∧ b.toNat ≤ high then
      let grown := value * 64 + (b.toNat - 0x80)
      match more with
      | 0 => .ok (grown, bs)
      | more + 1 =>
        match continueWith grown 0x80 0xBF more bs with
        | .ok r => .ok r
        | .error (n, reason) => .error (n + 1, reason)
    else .error (1, .continuation)

/-- What follows the bytes of a character is shorter. -/
theorem length_of_continueWith {value low high more : Nat} {bs rest : List UInt8} {code : Nat}
    (h : continueWith value low high more bs = .ok (code, rest)) : rest.length < bs.length := by
  fun_induction continueWith value low high more bs with
  | case1 | case4 | case5 => cases h
  | case2 =>
    simp only [Except.ok.injEq, Prod.mk.injEq] at h
    simp [h.2]
  | case3 value low high b bs _ _ more r hr ih =>
    rw [Except.ok.injEq] at h
    have := ih (hr.trans (congrArg _ h))
    simp only [List.length_cons]
    omega

/-- Reads bytes from a position on. -/
def decodeFrom (position : Nat) (bytes : List UInt8) : Except Fault (List Char) :=
  match bytes with
  | [] => .ok []
  | b :: bs =>
    match lead? b with
    | none => .error ⟨position, b, 1, .start⟩
    | some (.inl c) => do return c :: (← decodeFrom (position + 1) bs)
    | some (.inr l) =>
      match h : continueWith l.value l.low l.high l.more bs with
      | .ok (code, rest) =>
        have := length_of_continueWith h
        do return Char.ofNat code :: (← decodeFrom (position + l.more + 2) rest)
      | .error (n, reason) => .error ⟨position, b, n, reason⟩
termination_by bytes.length

/-- Reads bytes as a text. -/
def decode (bytes : List UInt8) : Except Fault String :=
  (decodeFrom 0 bytes).map String.ofList

/-- The bytes of a text. -/
def encode (s : String) : List UInt8 := s.toUTF8.toList

end TreeSchema.Text.Utf8
