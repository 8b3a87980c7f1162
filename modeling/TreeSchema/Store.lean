/-!
# Shared values

A value that several parts of a program hold is kept in a store, and each part holds its handle.
Whoever has a handle sees what the others write there, so that two parts are independent of each
other only if they hold different handles. A copy is a new value with a handle of its own.
-/

namespace TreeSchema

/-- Stands for a value in a store: the number of values that were there before it. -/
abbrev Handle := Nat

/-- Values, each known by its handle. -/
structure Store (α : Type) where
  cells : Array α := #[]

namespace Store

variable {α : Type}

/-- The handle that the next new value gets. -/
def next (s : Store α) : Handle := s.cells.size

/-- Puts a new value into the store. -/
def add (s : Store α) (a : α) : Store α := ⟨s.cells.push a⟩

/-- Writes over the value of a handle. -/
def write (s : Store α) (h : Handle) (a : α) : Store α := ⟨s.cells.setIfInBounds h a⟩

/-- The value of a handle. -/
def read [Inhabited α] (s : Store α) (h : Handle) : α := s.cells[h]?.getD default

/-- Puts a copy of the value of a handle into the store. -/
def copy [Inhabited α] (s : Store α) (h : Handle) : Store α := s.add (s.read h)

/-- A new value gets the next handle. -/
theorem next_add (s : Store α) (a : α) : (s.add a).next = s.next + 1 :=
  Array.size_push a

/-- The handle of a new value is in the store. -/
theorem next_lt_next_add (s : Store α) (a : α) : s.next < (s.add a).next := by
  rw [next_add]
  exact Nat.lt_succ_self _

/-- A handle in the store stays there when a new value is added. -/
theorem lt_next_add (s : Store α) (a : α) {h : Handle} (hlt : h < s.next) :
    h < (s.add a).next := by
  rw [next_add]
  exact Nat.lt_succ_of_lt hlt

/-- Writing to a value hands out no handle. -/
theorem next_write (s : Store α) (h : Handle) (a : α) : (s.write h a).next = s.next :=
  Array.size_setIfInBounds

variable [Inhabited α]

/-- A new value is read at its handle. -/
theorem read_add_next (s : Store α) (a : α) : (s.add a).read s.next = a := by
  rw [read, add, next, Array.getElem?_push_size]
  rfl

/-- A new value leaves those that are there as they are. -/
theorem read_add (s : Store α) (a : α) {h : Handle} (hlt : h < s.next) :
    (s.add a).read h = s.read h := by
  have hne : h ≠ s.cells.size := Nat.ne_of_lt hlt
  rw [read, add, Array.getElem?_push, if_neg hne]
  rfl

/-- Writing over one value leaves the others as they are. -/
theorem read_write (s : Store α) (a : α) {h k : Handle} (hne : h ≠ k) :
    (s.write h a).read k = s.read k := by
  rw [read, write, Array.getElem?_setIfInBounds_ne hne]
  rfl

end Store

end TreeSchema
