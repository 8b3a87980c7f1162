import TreeSchema.Proofs.Literal
import TreeSchema.Stack

/-!
# What a computation comes to

A computation can end with few of the faults that its type has, and with few of the results.
`ComesTo` says which ones: a result has one property, a fault has another. For a sequence of steps
it follows step by step, from what each step comes to.

That is what makes a statement about a long reader a matter of its parts. A reader of a text is a
`do` block of some length, with tests and matches in it, and most of its steps cannot fail at all.
Asked backwards – which step has failed, if the whole one has – the block has to be taken apart once
for every statement. Asked forwards, each step has its own statement, the block has one that is put
together from them by `ComesTo.bind`, and what a step does not fail with never comes up.

The two properties are parameters, and they are used for different things. The one of the results is
an invariant most of the time: where the reader stands, which keys are in a mapping. The one of the
faults is a characterization: a relation between a text and a fault, such as `Yaml.Obstacle`, that
says without any reader what has to stand in the text. `ComesTo.mono` and `ComesTo.imp` change from
one property to a weaker one, when a part of a text becomes a part of a longer one.

`Keeps` is the same for steps on a state, whose results leave a state with a property again. Only
the steps in which YAML is put together are of this kind.

One step is shared by all readers that go down: it asks for room for a level. What comes of it is
said once (`Room.comesTo_enter`), and what a reader stops at for lack of room follows from it by
counting what the reader goes down into.

The first use is here, since it needs nothing else: the literal of a value is refused only because
an integer in it is too long to be written (`Value.comesTo_literal`).
-/

namespace TreeSchema

/-! ## What becomes of results and faults -/

section Steps

variable {ε ε' α : Type} {x y : Except ε (List α)} {e : ε}

/-- Changing the fault of a computation leaves its results as they are. -/
theorem mapError_eq_ok_iff {x : Except ε α} {f : ε → ε'} {a : α} :
    x.mapError f = .ok a ↔ x = .ok a := by
  cases x with
  | error e => exact iff_of_false nofun nofun
  | ok b => exact ⟨fun h => by cases h; rfl, fun h => by cases h; rfl⟩

/-- Changing the fault of a computation changes each of its faults. -/
theorem mapError_eq_error_iff {x : Except ε α} {f : ε → ε'} {e : ε'} :
    x.mapError f = .error e ↔ ∃ e', x = .error e' ∧ e = f e' := by
  cases x with
  | error e' =>
    constructor
    · rintro ⟨⟩
      exact ⟨e', rfl, rfl⟩
    · rintro ⟨_, ⟨⟩, rfl⟩
      rfl
  | ok b => exact iff_of_false nofun (by rintro ⟨_, ⟨⟩, -⟩)

/-- Changing the result of a computation leaves its faults as they are. -/
theorem map_eq_error_iff {β : Type} {x : Except ε α} {f : α → β} :
    f <$> x = .error e ↔ x = .error e := by
  cases x with
  | error e' => exact ⟨fun h => by cases h; rfl, fun h => by cases h; rfl⟩
  | ok a => exact iff_of_false nofun nofun

/-- Two lists are joined if there are both. -/
theorem exists_append_iff :
    (∃ l, (do let a ← x; return a ++ (← y)) = .ok l) ↔ (∃ a, x = .ok a) ∧ ∃ b, y = .ok b := by
  constructor
  · rintro ⟨l, h⟩
    obtain ⟨a, ha, h⟩ := bind_eq_ok_iff.1 h
    obtain ⟨b, hb, -⟩ := bind_eq_ok_iff.1 h
    exact ⟨⟨a, ha⟩, b, hb⟩
  · rintro ⟨⟨a, rfl⟩, b, rfl⟩
    exact ⟨a ++ b, rfl⟩

/-- Two lists are not joined for the first one that there is not. -/
theorem append_eq_error_iff :
    (do let a ← x; return a ++ (← y)) = .error e ↔
      x = .error e ∨ (∃ a, x = .ok a) ∧ y = .error e := by
  rw [bind_eq_error_iff]
  refine or_congr_right ?_
  constructor
  · rintro ⟨a, rfl, h⟩
    obtain h | ⟨_, -, h⟩ := bind_eq_error_iff.1 h
    · exact ⟨⟨a, rfl⟩, h⟩
    · cases h
  · rintro ⟨⟨a, rfl⟩, rfl⟩
    exact ⟨a, rfl, rfl⟩

end Steps

/-- **What a computation comes to**: a result with a property, or a fault with one. -/
inductive ComesTo {ε α : Type} (told : ε → Prop) (good : α → Prop) : Except ε α → Prop
  | ok {a : α} (h : good a) : ComesTo told good (.ok a)
  | error {e : ε} (h : told e) : ComesTo told good (.error e)

namespace ComesTo

variable {ε ε' α β : Type} {told told' : ε → Prop} {good : α → Prop} {good' : β → Prop}
  {x y : Except ε α}

/-- What a result has. -/
theorem of_eq_ok (h : ComesTo told good x) {a : α} (hx : x = .ok a) : good a := by
  subst hx
  cases h with
  | ok h => exact h

/-- What a fault has. -/
theorem of_eq_error (h : ComesTo told good x) {e : ε} (hx : x = .error e) : told e := by
  subst hx
  cases h with
  | error h => exact h

/-- A weaker property of faults. -/
theorem mono (h : ComesTo told good x) (htold : ∀ e, told e → told' e) :
    ComesTo told' good x := by
  cases h with
  | ok h => exact .ok h
  | error h => exact .error (htold _ h)

/-- A weaker property of results. -/
theorem imp {good' : α → Prop} (h : ComesTo told good x) (hgood : ∀ a, good a → good' a) :
    ComesTo told good' x := by
  cases h with
  | ok h => exact .ok (hgood _ h)
  | error h => exact .error h

/-- A sequence of two steps, where the second one may use that the first one succeeded. -/
theorem bind_eq {f : α → Except ε β} (h : ComesTo told good x)
    (hf : ∀ a, x = .ok a → good a → ComesTo told good' (f a)) :
    ComesTo told good' (x >>= f) := by
  cases h with
  | ok h => exact hf _ rfl h
  | error h => exact .error h

/-- A sequence of two steps. -/
theorem bind {f : α → Except ε β} (h : ComesTo told good x)
    (hf : ∀ a, good a → ComesTo told good' (f a)) : ComesTo told good' (x >>= f) :=
  h.bind_eq fun a _ => hf a

/-- A result that is changed. -/
theorem map {f : α → β} (h : ComesTo told good x) (hf : ∀ a, good a → good' (f a)) :
    ComesTo told good' (x.map f) := by
  cases h with
  | ok h => exact .ok (hf _ h)
  | error h => exact .error h

/-- A fault that is changed: what is told is told of the new one. -/
theorem mapError {told : ε' → Prop} {f : ε → ε'} (h : ComesTo (fun e => told (f e)) good x) :
    ComesTo told good (x.mapError f) := by
  cases h with
  | ok h => exact .ok h
  | error h => exact .error h

/-- A test that decides between two computations. -/
theorem ite {c : Prop} [Decidable c] (hx : ComesTo told good x) (hy : ComesTo told good y) :
    ComesTo told good (if c then x else y) := by
  split
  · exact hx
  · exact hy

/-- A step for each element of a list. A property that every result has is one of the list of
them. -/
theorem mapM {f : α → Except ε β} {as : List α} (hf : ∀ a ∈ as, ComesTo told good' (f a)) :
    ComesTo told (fun bs => ∀ b ∈ bs, good' b) (as.mapM f) := by
  induction as with
  | nil => exact .ok (List.forall_mem_nil _)
  | cons a as ih =>
    obtain ⟨ha, has⟩ := List.forall_mem_cons.1 hf
    rw [List.mapM_cons]
    exact ha.bind fun b hb => (ih has).bind fun bs hbs => .ok (List.forall_mem_cons.2 ⟨hb, hbs⟩)

/-- A step for each element of a list that goes on from the result before, with an invariant. -/
theorem foldlM (inv : β → Prop) {f : β → α → Except ε β}
    (hf : ∀ b a, inv b → ComesTo told inv (f b a)) (as : List α) {b : β} (hb : inv b) :
    ComesTo told inv (as.foldlM f b) := by
  induction as generalizing b with
  | nil => exact .ok hb
  | cons a as ih =>
    rw [List.foldlM_cons]
    exact (hf b a hb).bind fun _ hc => ih hc

end ComesTo

namespace Room

variable {ε : Type}

/-- **Whether a room is the one that is left one level down.** -/
def IsBelow (inner room : Room) : Prop := ∀ n, inner.Fits n ↔ room.Fits (n + 1)

/-- **Going down one level** comes to the room that is left there, or there is room for no level. -/
theorem comesTo_enter (room : Room) (fault : ε) :
    ComesTo (fun e => e = fault ∧ ∀ n, ¬ room.Fits (n + 1)) (·.IsBelow room)
      (room.enter fault) := by
  cases h : room.enter fault with
  | ok inner => exact .ok fun _ => fits_of_enter h
  | error e => exact .error (not_fits_of_enter h)

end Room

/-- **What a step on a state comes to** from a state with a property: a result with a property and a
state that has it again, or a fault with a property. -/
def Keeps {σ ε α : Type} (told : ε → Prop) (inv : σ → Prop) (good : α → Prop)
    (x : StateT σ (Except ε) α) : Prop :=
  ∀ s, inv s → ComesTo told (fun p => good p.1 ∧ inv p.2) (x.run s)

namespace Keeps

variable {σ ε α β : Type} {told : ε → Prop} {inv : σ → Prop} {good : α → Prop}
  {good' : β → Prop}

/-- A result that is there. -/
theorem pure {a : α} (h : good a) :
    Keeps told inv good (Pure.pure a : StateT σ (Except ε) α) :=
  fun _ hs => .ok ⟨h, hs⟩

/-- A fault. -/
theorem throw {e : ε} (h : told e) :
    Keeps told inv good (MonadExcept.throw e : StateT σ (Except ε) α) :=
  fun _ _ => .error h

/-- The state itself has the property of states. -/
theorem get : Keeps told inv inv (MonadState.get : StateT σ (Except ε) σ) :=
  fun _ hs => .ok ⟨hs, hs⟩

/-- A state in the place of the other one. -/
theorem set {s : σ} (h : inv s) :
    Keeps told inv (fun _ => True) (MonadStateOf.set s : StateT σ (Except ε) PUnit) :=
  fun _ _ => .ok ⟨trivial, h⟩

/-- A change of the state that gives a result besides. -/
theorem modifyGet {f : σ → α × σ} (h : ∀ s, inv s → good (f s).1 ∧ inv (f s).2) :
    Keeps told inv good (MonadStateOf.modifyGet f : StateT σ (Except ε) α) :=
  fun s hs => .ok (h s hs)

/-- A change of the state. -/
theorem modify {f : σ → σ} (h : ∀ s, inv s → inv (f s)) :
    Keeps told inv (fun _ => True) (modify f : StateT σ (Except ε) PUnit) :=
  modifyGet fun s hs => ⟨trivial, h s hs⟩

/-- A step that does not depend on the state. -/
theorem lift {x : Except ε α} (h : ComesTo told good x) :
    Keeps told inv good (liftM x : StateT σ (Except ε) α) :=
  fun _ hs => h.bind fun _ ha => .ok ⟨ha, hs⟩

/-- A sequence of two steps. The state goes from the one to the other. -/
theorem bind {x : StateT σ (Except ε) α} {f : α → StateT σ (Except ε) β}
    (h : Keeps told inv good x) (hf : ∀ a, good a → Keeps told inv good' (f a)) :
    Keeps told inv good' (x >>= f) :=
  fun s hs => (h s hs).bind fun p hp => hf p.1 hp.1 p.2 hp.2

theorem mapM {f : α → StateT σ (Except ε) β} (hf : ∀ a, Keeps told inv (fun _ => True) (f a))
    (as : List α) : Keeps told inv (fun _ => True) (as.mapM f) := by
  induction as with
  | nil => exact .pure trivial
  | cons a as ih =>
    rw [List.mapM_cons]
    exact (hf a).bind fun _ _ => ih.bind fun _ _ => .pure trivial

/-- A step for each element of a list. -/
theorem forIn {f : α → PUnit → StateT σ (Except ε) (ForInStep PUnit)}
    (hf : ∀ a u, Keeps told inv (fun _ => True) (f a u)) (as : List α) :
    Keeps told inv (fun _ => True) (ForIn.forIn as PUnit.unit f) := by
  induction as with
  | nil => exact .pure trivial
  | cons a as ih =>
    rw [List.forIn_cons]
    refine (hf a _).bind fun step _ => ?_
    cases step with
    | done _ => exact .pure trivial
    | «yield» _ => exact ih

end Keeps

namespace Value

mutual

/-- **A literal is refused for an integer only.** -/
theorem comesTo_literal : ∀ v : Value, ComesTo (· = .tooLongToWrite) (fun _ => True) v.literal
  | null | bool _ | real _ | text _ | bytes _ | date _ | moment _ => .ok trivial
  | int n => by
    rw [literal, decimal]
    split
    · exact .error rfl
    · exact .ok trivial
  | list items => by
    rw [literal]
    exact (comesTo_literals items).bind fun _ _ => .ok trivial
  | tuple [] => .ok trivial
  | tuple [item] => by
    rw [literal]
    exact (comesTo_literal item).bind fun _ _ => .ok trivial
  | tuple (v :: w :: items) => by
    rw [literal]
    · exact (comesTo_literals (v :: w :: items)).bind fun _ _ => .ok trivial
    all_goals simp
  | mapping entries => by
    rw [literal]
    exact (comesTo_entryLiterals entries).bind fun _ _ => .ok trivial
  | set [] => .ok trivial
  | set (v :: items) => by
    rw [literal]
    · exact (comesTo_literals (v :: items)).bind fun _ _ => .ok trivial
    · simp

theorem comesTo_literals : ∀ vs : List Value,
    ComesTo (· = .tooLongToWrite) (fun _ => True) (literals vs)
  | [] => .ok trivial
  | v :: vs => by
    rw [literals]
    exact (comesTo_literal v).bind fun _ _ => (comesTo_literals vs).bind fun _ _ => .ok trivial

theorem comesTo_entryLiterals : ∀ es : List (Value × Value),
    ComesTo (· = .tooLongToWrite) (fun _ => True) (entryLiterals es)
  | [] => .ok trivial
  | (k, v) :: es => by
    rw [entryLiterals]
    exact (comesTo_literal k).bind fun _ _ => (comesTo_literal v).bind fun _ _ =>
      (comesTo_entryLiterals es).bind fun _ _ => .ok trivial

end

end Value

end TreeSchema
