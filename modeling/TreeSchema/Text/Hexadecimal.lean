/-!
# Hexadecimal digits

Codes are written with a fixed number of small hexadecimal digits (`hexDigits`) and read with digits
of either case (`hexValue?`). `hexValue?_hexDigit` says that a written digit reads back.
-/

namespace TreeSchema.Text

/-- The small hexadecimal digit of a value below sixteen. -/
def hexDigit (n : Nat) : Char :=
  if n < 10 then Char.ofNat (n + 48) else Char.ofNat (n + 87)

/-- The value of a hexadecimal digit of either case. -/
def hexValue? (c : Char) : Option Nat :=
  if '0' ≤ c && c ≤ '9' then some (c.toNat - 48)
  else if 'a' ≤ c && c ≤ 'f' then some (c.toNat - 87)
  else if 'A' ≤ c && c ≤ 'F' then some (c.toNat - 55)
  else none

/-- A digit that was written is read as it was. -/
theorem hexValue?_hexDigit : ∀ n < 16, hexValue? (hexDigit n) = some n := by
  decide

/-- The last `width` hexadecimal digits of a number. -/
def hexDigits : (width : Nat) → Nat → List Char
  | 0, _ => []
  | width + 1, n => hexDigits width (n / 16) ++ [hexDigit (n % 16)]

/-- The number that hexadecimal digits spell, if they all are digits. -/
def hexNumber? (cs : List Char) : Option Nat :=
  cs.foldlM (fun n c => (hexValue? c).map (16 * n + ·)) 0

/-- Digits read back to the number they were written for, up to their width. -/
theorem hexNumber?_hexDigits (width n : Nat) :
    hexNumber? (hexDigits width n) = some (n % Nat.pow 16 width) := by
  induction width generalizing n with
  | zero => exact congrArg some (Nat.mod_one n).symm
  | succ width ih =>
    have hd := hexValue?_hexDigit (n % 16) (Nat.mod_lt _ (by decide))
    have hs := ih (n / 16)
    unfold hexNumber? at hs ⊢
    rw [hexDigits, List.foldlM_append, hs]
    simp only [bind, Option.bind_some, List.foldlM_cons, List.foldlM_nil, hd, Option.map_some, pure]
    have hm : n % (16 * Nat.pow 16 width) = n % 16 + 16 * (n / 16 % Nat.pow 16 width) := Nat.mod_mul
    have hp : Nat.pow 16 (width + 1) = 16 * Nat.pow 16 width := Nat.mul_comm (Nat.pow 16 width) 16
    rw [hp, hm]
    congr 1
    omega

end TreeSchema.Text
