import TreeSchema.Number.RealText
import TreeSchema.Value.Basic

/-!
# Values as text

The literal of a value (`Value.literal`) shows its kind: texts are quoted, containers are bracketed.
The text of a value (`Value.shown`) is the same for most values, but a text stands for itself and a
date is written as dates are. Only an integer beyond the digit limit has neither.
-/

namespace TreeSchema.Value

mutual

/-- The literal of a value. -/
def literal : Value → Except NumeralFault String
  | null => .ok "None"
  | bool b => .ok (if b then "True" else "False")
  | int n => decimal n
  | real x => .ok (realText .literal x)
  | text s => .ok (Text.quoted s)
  | list items => do return "[" ++ ", ".intercalate (← literals items) ++ "]"
  | tuple [] => .ok "()"
  | tuple [item] => do return "(" ++ (← literal item) ++ ",)"
  | tuple items => do return "(" ++ ", ".intercalate (← literals items) ++ ")"
  | mapping entries => do return "\x7b" ++ ", ".intercalate (← entryLiterals entries) ++ "\x7d"
  | bytes octets => .ok (Text.quotedOctets octets)
  | set [] => .ok "set()"
  | set items => do return "\x7b" ++ ", ".intercalate (← literals items) ++ "\x7d"
  | date d => .ok d.literal
  | moment m => .ok m.literal

/-- The literals of the items of a container. -/
def literals : List Value → Except NumeralFault (List String)
  | [] => .ok []
  | v :: vs => do return (← literal v) :: (← literals vs)

/-- The literals of the entries of a mapping. -/
def entryLiterals : List (Value × Value) → Except NumeralFault (List String)
  | [] => .ok []
  | (k, v) :: es => do return ((← literal k) ++ ": " ++ (← literal v)) :: (← entryLiterals es)

end

mutual

/-- How many values lie inside each other where the literal of a value is put together. The members
of a set are made a list first. -/
def levels : Value → Nat
  | list items | tuple items => itemLevels items + 1
  | set items => itemLevels items + 2
  | mapping entries => entryLevels entries + 1
  | _ => 1

/-- The levels of the items of a container. -/
def itemLevels : List Value → Nat
  | [] => 0
  | v :: vs => max v.levels (itemLevels vs)

/-- The levels of the entries of a mapping. -/
def entryLevels : List (Value × Value) → Nat
  | [] => 0
  | (k, v) :: es => max (max k.levels v.levels) (entryLevels es)

end

/-- A mapping has more levels than each of its values. -/
theorem levels_lt_of_mem {entries : List (Value × Value)} {e : Value × Value} (h : e ∈ entries) :
    e.2.levels < (mapping entries).levels := by
  rw [levels, Nat.lt_succ_iff]
  induction h with
  | head es => exact Nat.le_trans (Nat.le_max_right _ _) (Nat.le_max_left _ _)
  | tail f _ ih => exact Nat.le_trans ih (Nat.le_max_right _ _)

/-- The text of a value. -/
def shown : Value → Except NumeralFault String
  | text s => .ok s
  | date d => .ok d.text
  | moment m => .ok m.text
  | v => v.literal

end TreeSchema.Value
