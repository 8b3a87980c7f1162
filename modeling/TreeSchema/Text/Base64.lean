/-!
# Base 64

Octets are written as digits of six bits, four digits for three octets, and a last group is filled
up with equals signs. Reading passes over every character that is no digit, and stops at the sign
that fills up a group; a group that is not filled up is refused.
-/

namespace TreeSchema.Text.Base64

/-- The value of a digit. -/
def digit? (c : Char) : Option Nat :=
  if 'A' ≤ c && c ≤ 'Z' then some (c.toNat - 65)
  else if 'a' ≤ c && c ≤ 'z' then some (c.toNat - 71)
  else if '0' ≤ c && c ≤ '9' then some (c.toNat + 4)
  else if c = '+' then some 62
  else if c = '/' then some 63
  else none

/-- Reads digits after `place` digits of a group that left the bits `carry`, and after `pads` signs
that fill up the group. -/
def decodeFrom (place carry pads : Nat) : List Char → Option (List UInt8)
  | [] => if place = 0 then some [] else none
  | c :: cs =>
    if c = '=' then
      if place < 2 then decodeFrom place carry pads cs
      else if place + pads + 1 < 4 then decodeFrom place carry (pads + 1) cs
      else some []
    else
      match digit? c with
      | none => decodeFrom place carry pads cs
      | some d =>
        match place with
        | 0 => decodeFrom 1 d 0 cs
        | 1 => (decodeFrom 2 (d % 16) 0 cs).map (UInt8.ofNat (carry * 4 + d / 16) :: ·)
        | 2 => (decodeFrom 3 (d % 4) 0 cs).map (UInt8.ofNat (carry * 16 + d / 4) :: ·)
        | _ => (decodeFrom 0 0 0 cs).map (UInt8.ofNat (carry * 64 + d) :: ·)

/-- The octets that a text in base 64 stands for. -/
def decode? (cs : List Char) : Option (List UInt8) := decodeFrom 0 0 0 cs

end TreeSchema.Text.Base64
