/-!
# Room on the stack

Most of what reads and walks documents calls itself for every level that it goes down, and each call
takes a place on the stack. The stack is limited: a call for which there is no place left ends the
run with a fault that nobody handles, whatever the text or the value is that led so deep. A text of
two thousand opening brackets is enough for that, and so is a document that leads back to a part
that it lies in, which no stack has room for.

How many places are left when a recursion begins depends on the calls around it, and how many of
them a level takes depends on what recurs. Neither is a property of a document. So a run is given
the room that it has as a parameter (`Stack`), with a number of levels for each kind of recursion
(`Room`), and what is proved of a run is proved for every stack. On a stack without bounds
(`Stack.unbounded`) a document is told for what is in it alone.
-/

namespace TreeSchema

/-- How many levels a recursion has room for. -/
inductive Room where
  | unbounded
  | levels (n : Nat)
  deriving DecidableEq

namespace Room

variable {ε : Type} {fault fault' : ε} {room inner : Room} {m n : Nat}

/-- Goes down one level. A fault tells that there is no room for it. -/
def enter (fault : ε) : Room → Except ε Room
  | unbounded => .ok unbounded
  | levels 0 => .error fault
  | levels (n + 1) => .ok (levels n)

/-- Whether there is room for a number of levels. -/
def Fits (depth : Nat) : Room → Prop
  | unbounded => True
  | levels n => depth ≤ n

instance (depth : Nat) (room : Room) : Decidable (room.Fits depth) :=
  match room with
  | unbounded => isTrue trivial
  | levels n => inferInstanceAs (Decidable (depth ≤ n))

/-- The number of levels that there is room for, but not more than a bound. -/
def atMost (bound : Nat) : Room → Nat
  | unbounded => bound
  | levels n => min n bound

/-- Where there is room for more levels, there is room for fewer. -/
theorem Fits.mono (h : room.Fits n) (hle : m ≤ n) : room.Fits m := by
  cases room with
  | unbounded => trivial
  | levels k => exact Nat.le_trans hle h

/-- One level down there is room for one level less. -/
theorem fits_of_enter (h : room.enter fault = .ok inner) :
    inner.Fits n ↔ room.Fits (n + 1) := by
  match room, h with
  | unbounded, rfl => exact Iff.rfl
  | levels (k + 1), rfl => exact Nat.succ_le_succ_iff.symm

/-- Where there is room for a level, one can go down. -/
theorem Fits.exists_enter (h : room.Fits (n + 1)) (fault : ε) :
    ∃ inner, room.enter fault = .ok inner ∧ inner.Fits n := by
  match room, h with
  | unbounded, h => exact ⟨unbounded, rfl, h⟩
  | levels (k + 1), h => exact ⟨levels k, rfl, Nat.le_of_succ_le_succ h⟩

/-- The bound is not passed. -/
theorem atMost_le (bound : Nat) (room : Room) : room.atMost bound ≤ bound := by
  cases room with
  | unbounded => exact Nat.le_refl bound
  | levels n => exact Nat.min_le_right n bound

/-- Only a lack of room makes the number of levels smaller than the bound. -/
theorem not_fits_of_atMost_lt {bound : Nat} (h : room.atMost bound < bound) :
    ¬ room.Fits bound := by
  cases room with
  | unbounded => exact absurd h (Nat.lt_irrefl bound)
  | levels n => exact fun hfits => Nat.not_lt.2 (Nat.le_min.2 ⟨hfits, Nat.le_refl bound⟩) h

/-- Where one cannot go down, there is room for no level. -/
theorem not_fits_of_enter (h : room.enter fault = .error fault') :
    fault' = fault ∧ ∀ n, ¬ room.Fits (n + 1) := by
  match room, h with
  | levels 0, rfl => exact ⟨rfl, fun n => Nat.not_succ_le_zero n⟩

end Room

/-- The wording of a call for which there is no room. -/
def Room.exceeded : String := "maximum recursion depth exceeded"

/-- The room that a run has for each kind of recursion. -/
structure Stack where
  /-- For the collections of a text of JSON, one inside the other. -/
  json : Room := .unbounded
  /-- For the collections of a text of YAML, one inside the other. -/
  yaml : Room := .unbounded
  /-- For mappings that take over the entries of mappings that do the same. -/
  merge : Room := .unbounded
  /-- For mappings that stand for the value of a value key, which is such a mapping again. -/
  standIn : Room := .unbounded
  /-- For the mappings of a schema document whose shape is looked at, one inside the other. -/
  shape : Room := .unbounded
  /-- For the parts of a value that is quoted, one inside the other. -/
  quote : Room := .unbounded
  deriving DecidableEq

namespace Stack

/-- A stack that has room for everything that ends. -/
def unbounded : Stack := {}

/-- About the room that a run has under the default limit of a thousand calls, where a level takes
one call in most recursions, two in putting collections of YAML together and four in looking at the
shape of a schema document. -/
def usual : Stack where
  json := .levels 990
  yaml := .levels 490
  merge := .levels 980
  standIn := .levels 980
  shape := .levels 240
  quote := .levels 960

end Stack

end TreeSchema
