import TreeSchema.Assoc
import TreeSchema.Number.Binary64
import TreeSchema.Value.Basic

/-!
# Keys of mappings

Two keys of a mapping are the same when they are equal as values: numbers by what they amount to, so
that `1`, `1.0` and `true` are one key, and moments by their instant. What is not a number is the
same as nothing, itself included. Each key has an identity, a flat list of atoms
(`Value.identity?`), and keys are the same when they have equal identities; values that cannot be
keys have none.
-/

namespace TreeSchema

/-- The parts of the identity of a key. -/
inductive KeyAtom where
  | null
  | integer (n : Int)
  | real (parts : Binary64)
  | text (s : String)
  | bytes (octets : List UInt8)
  | opening
  | closing
  | date (d : Date)
  | moment (clock : Int)
  | instant (microseconds : Int)
  deriving DecidableEq

namespace KeyAtom

/-- The identity of a floating-point number: an integer when it is equal to one. -/
def ofReal? (x : Float) : Option KeyAtom :=
  let parts := Binary64.ofFloat x
  match parts with
  | .nan => none
  | _ => some ((parts.toInt?.map .integer).getD (.real parts))

/-- The identity of a moment: its instant if the distance from universal time is known. -/
def ofMoment (m : Moment) : KeyAtom :=
  match m.instant with
  | some i => .instant i
  | none => .moment m.clock

end KeyAtom

namespace Value

mutual

/-- The identity of a value as a key, if it can be one and is the same as itself. -/
def identity? : Value → Option (List KeyAtom)
  | null => some [.null]
  | bool b => some [.integer (if b then 1 else 0)]
  | int n => some [.integer n]
  | real x => (KeyAtom.ofReal? x).map ([·])
  | text s => some [.text s]
  | bytes octets => some [.bytes octets]
  | tuple items => (identities? items).map fun atoms => .opening :: atoms ++ [.closing]
  | date d => some [.date d]
  | moment m => some [KeyAtom.ofMoment m]
  | list _ | mapping _ | set _ => none

/-- The identities of the items of a tuple, one after the other. -/
def identities? : List Value → Option (List KeyAtom)
  | [] => some []
  | v :: vs =>
    match v.identity?, identities? vs with
    | some atoms, some more => some (atoms ++ more)
    | _, _ => none

end

/-- Whether two keys are the same. -/
def sameKey (a b : Value) : Bool :=
  match a.identity?, b.identity? with
  | some x, some y => x == y
  | _, _ => false

/-- Keys are the same when they share an identity. -/
theorem sameKey_iff {a b : Value} :
    a.sameKey b = true ↔ ∃ i, a.identity? = some i ∧ b.identity? = some i := by
  unfold sameKey
  cases a.identity? with
  | none => simp
  | some x =>
    cases b.identity? with
    | none => simp
    | some y =>
      simp only [beq_iff_eq, Option.some.injEq]
      exact ⟨fun h => ⟨x, rfl, h.symm⟩, fun ⟨_, hx, hy⟩ => hx.trans hy.symm⟩

/-- Being the same key goes both ways. -/
theorem sameKey_comm (a b : Value) : a.sameKey b = b.sameKey a := by
  rw [Bool.eq_iff_iff, sameKey_iff, sameKey_iff]
  simp only [and_comm]

/-- Keys that are the same as a third one are the same. With `sameKey_comm` it is an equivalence on
the values that have an identity. -/
theorem sameKey_trans {a b c : Value} (hab : a.sameKey b = true) (hbc : b.sameKey c = true) :
    a.sameKey c = true := by
  obtain ⟨i, ha, hb⟩ := sameKey_iff.1 hab
  obtain ⟨j, hb', hc⟩ := sameKey_iff.1 hbc
  cases hb.symm.trans hb'
  exact sameKey_iff.2 ⟨i, ha, hc⟩

/-- Integers are the same key when they are equal. -/
theorem sameKey_int (i j : Int) : (int i).sameKey (int j) = (i == j) := by
  show ([KeyAtom.integer i] == [.integer j]) = (i == j)
  rw [Bool.eq_iff_iff, beq_iff_eq, beq_iff_eq]
  exact ⟨fun h => by cases h; rfl, fun h => by rw [h]⟩

/-- Texts are the same key when they are equal. -/
theorem sameKey_text (s t : String) : (text s).sameKey (text t) = (s == t) := by
  show ([KeyAtom.text s] == [.text t]) = (s == t)
  rw [Bool.eq_iff_iff, beq_iff_eq, beq_iff_eq]
  exact ⟨fun h => by cases h; rfl, fun h => by rw [h]⟩

/-- No text is the same key as an integer, not even as one that it writes. -/
theorem sameKey_text_int (s : String) (j : Int) : (text s).sameKey (int j) = false := by
  show ([KeyAtom.text s] == [.integer j]) = false
  exact beq_false_of_ne fun h => by cases h

/-- The value of an entry, by its key. -/
def entry? (key : Value) (entries : List (Value × Value)) : Option Value :=
  Assoc.find? key.sameKey entries

/-- Assigns a value to a key: an equal key keeps its place and its form. -/
def assign (entries : List (Value × Value)) (key value : Value) : List (Value × Value) :=
  Assoc.alter key.sameKey key (fun _ => value) entries

/-- The mapping that a sequence of assignments builds. -/
def ofAssignments (entries : List (Value × Value)) : Value :=
  .mapping (entries.foldl (fun m e => assign m e.1 e.2) [])

/-- Assignments to different keys build the mapping that lists them. -/
theorem ofAssignments_eq_mapping {entries : List (Value × Value)}
    (h : entries.Pairwise fun e f => f.1.sameKey e.1 = false) :
    ofAssignments entries = .mapping entries := by
  have hfront : ∀ front : List (Value × Value),
      (front ++ entries).Pairwise (fun e f => f.1.sameKey e.1 = false) →
        entries.foldl (fun m e => assign m e.1 e.2) front = front ++ entries := by
    clear h
    induction entries with
    | nil => exact fun front _ => (List.append_nil front).symm
    | cons e entries ih =>
      intro front hall
      have hnew : ∀ a ∈ front, e.1.sameKey a.1 = false :=
        fun a ha => (List.pairwise_append.1 hall).2.2 a ha e (.head _)
      rw [List.append_cons] at hall ⊢
      rw [List.foldl_cons, assign, Assoc.alter_eq_append hnew]
      exact ih _ hall
  exact congrArg mapping (hfront [] h)

/-- Texts that are all different are different keys. -/
theorem ofAssignments_texts {α : Type} {name : α → String} {as : List α}
    (h : (as.map name).Nodup) (value : α → Value) :
    ofAssignments (as.map fun a => (.text (name a), value a))
      = .mapping (as.map fun a => (.text (name a), value a)) := by
  refine ofAssignments_eq_mapping (List.pairwise_map.2 ?_)
  refine (List.pairwise_map.1 h).imp fun hne => ?_
  rw [sameKey_text]
  exact beq_false_of_ne hne.symm

/-- The set of members. Of equal ones the first is kept. -/
def ofMembers (items : List Value) : Value :=
  .set ((items.foldl (fun m v => assign m v .null) []).map Prod.fst)

end Value

end TreeSchema
