import Mathlib.Data.List.Perm.Subperm
import Mathlib.Logic.Relation
import TreeSchema.Proofs.Shape
import TreeSchema.Proofs.Unfolding

/-!
# Which documents are trees

A document that was read from YAML is a web of nodes, and putting its tree together is given up when
more nodes lie inside each other than there are. This module says that this happens for one reason
only: **there is no tree exactly if a node of the document is a part of itself**
(`Yaml.Web.tree?_eq_none_iff`). The depth at which the attempt ends is therefore no limit of the
program's own, and a document with many shared parts is not mistaken for an endless one.

Where no node is a part of itself, the nodes on the way to one are all different, so the way is not
longer than there are nodes, and every part is reached with some depth to spare. Conversely, what
has been put together is well-founded (`Acc`), which nothing is that is a part of itself.

Whether the attempt ends well is asked forwards, as for other computations: a step gives a result
whatever trees have been put together before (`Yaml.Web.Succeeds`). The trees of nodes that were met
before are only taken over, so they can be left out of this question, while they count for how long
the attempt takes: without them a document of thirty lines, each naming the line before it twice,
would not be put together in a lifetime.

The shape of schema documents is where endless documents stand out. The walk that looks at it goes
through mappings and meets nothing but texts where nothing offends, so if it comes to its end
without an offence, the document is a tree (`Yaml.Web.violations_ne_nil`). An endless document is
thus never taken: either there is no room to look at its shape, or something in it offends, a list
that leads back, say, and its literal shows by dots where it does. What the look halts at is an
integer of one of the nodes, or else the room (`Yaml.Web.untold_of_halts`).
-/

namespace TreeSchema.Yaml

/-- The parts of a cell. -/
def Cell.parts : Cell → List Ref
  | list items => items
  | pairs items => items.flatMap fun p => [p.1, p.2]
  | mapping entries => entries.map Prod.snd
  | _ => []

/-- **Whether all integers of a cell can be written**, those of its parts left aside. -/
def Cell.HasShortIntegers : Cell → Prop
  | scalar key => key.value.HasShortIntegers
  | mapping entries => ∀ e ∈ entries, e.1.HasShortIntegers
  | set members => (Value.set members).HasShortIntegers
  | _ => True

/-- A cell is filled only if its parts are. -/
theorem Cell.FilledTo.forall_parts {c : Cell} {v : Value} {good : Ref → Prop}
    (h : c.FilledTo (fun r _ => good r) v) : ∀ p ∈ c.parts, good p := by
  cases h with
  | scalar | opened | set => exact List.forall_mem_nil _
  | list h =>
    intro p hp
    obtain ⟨_, -, hgood⟩ := exists_mem_of_forall₂ h p hp
    exact hgood
  | pairs h =>
    intro p hp
    obtain ⟨q, hq, hp⟩ := List.mem_flatMap.1 hp
    obtain ⟨_, -, _, _, -, hx, hy⟩ := exists_mem_of_forall₂ h q hq
    obtain rfl | rfl : p = q.1 ∨ p = q.2 := by simpa using hp
    · exact hx
    · exact hy
  | mapping h =>
    intro p hp
    obtain ⟨e, he, rfl⟩ := List.mem_map.1 hp
    obtain ⟨_, -, -, hgood⟩ := exists_mem_of_forall₂ h e he
    exact hgood

namespace Web

variable {w : Web}

/-- **Whether a node is one of the parts of another one.** -/
def IsPart (w : Web) (p r : Ref) : Prop := p ∈ (w.cell r).parts

/-- A node that has parts is one of the nodes that there are. -/
theorem IsPart.lt_size {p r : Ref} (h : w.IsPart p r) : r < w.size := by
  refine Nat.lt_of_not_le fun hle => ?_
  have hcell : w.cell r = .opened := by
    unfold cell
    rw [Array.getElem?_eq_none hle]
    rfl
  rw [IsPart, hcell] at h
  exact absurd h List.not_mem_nil

/-! ## Putting a tree together

One step fills the cell of a node from the trees of its parts, and gives up if there is no depth
left. -/

/-- **A step of putting a tree together that gives a result**, whatever was put together before. -/
def Succeeds {α : Type} (x : Assembly α) : Prop := ∀ s, ∃ p, x.run s = some p

namespace Succeeds

variable {α β : Type}

/-- A result. -/
theorem pure (a : α) : Succeeds (Pure.pure a : Assembly α) := fun s => ⟨(a, s), rfl⟩

/-- A sequence of two steps. -/
theorem bind {x : Assembly α} {f : α → Assembly β} (h : Succeeds x) (hf : ∀ a, Succeeds (f a)) :
    Succeeds (x >>= f) := by
  intro s
  obtain ⟨⟨a, s'⟩, hx⟩ := h s
  obtain ⟨p, hp⟩ := hf a s'
  exact ⟨p, Option.bind_eq_some_iff.2 ⟨(a, s'), hx, hp⟩⟩

/-- A step for each element of a list. -/
theorem mapM {f : α → Assembly β} {as : List α} (hf : ∀ a ∈ as, Succeeds (f a)) :
    Succeeds (as.mapM f) := by
  induction as with
  | nil => exact .pure []
  | cons a as ih =>
    obtain ⟨ha, has⟩ := List.forall_mem_cons.1 hf
    rw [List.mapM_cons]
    exact ha.bind fun b => (ih has).bind fun bs => .pure _

/-- The value of a cell can be put together if those of its parts can. -/
theorem valueM {part : Ref → Assembly Value} {c : Cell} (h : ∀ p ∈ c.parts, Succeeds (part p)) :
    Succeeds (c.valueM part) := by
  cases c with
  | scalar | opened | set => exact .pure _
  | list items => exact (mapM h).bind fun vs => .pure _
  | pairs items =>
    refine (mapM fun p hp => ?_).bind fun vs => .pure _
    have hparts := fun q hq => h q (List.mem_flatMap.2 ⟨p, hp, hq⟩)
    exact (hparts p.1 (.head _)).bind fun x =>
      (hparts p.2 (.tail _ (.head _))).bind fun y => .pure _
  | mapping entries =>
    refine (mapM fun e he => ?_).bind fun es => .pure _
    exact (h e.2 (List.mem_map.2 ⟨e, he, rfl⟩)).bind fun v => .pure _

end Succeeds

/-- The tree of a node can be put together if those of its parts can. -/
theorem succeeds_assemble {depth : Nat} {r : Ref}
    (h : ∀ p, w.IsPart p r → Succeeds (w.assemble depth p)) :
    Succeeds (w.assemble (depth + 1) r) := by
  rw [assemble]
  refine Succeeds.bind (fun trees => ⟨(trees, trees), rfl⟩) fun trees => ?_
  split
  · exact .pure _
  · exact (Succeeds.valueM h).bind fun v => .bind (fun s => ⟨((), _), rfl⟩) fun _ => .pure v

/-! ## Nodes that are parts of themselves

A node lies in another one if a chain of parts leads to it. The two directions are proved apart:
depth is counted in the one, and the other is an induction on what was put together. -/

open Relation

/-- Where no node is a part of itself, trees are put together. The nodes on the way to one, those in
`above`, are different, so there is depth left as long as there are other nodes. -/
theorem succeeds_of_acyclic
    (hacyclic : ∀ r, ReflTransGen w.IsPart r w.root → ¬ TransGen w.IsPart r r) {above : List Ref}
    (hnodup : above.Nodup) {depth : Nat} {r : Ref}
    (habove : ∀ a ∈ above, a < w.size ∧ TransGen w.IsPart r a)
    (hroot : ReflTransGen w.IsPart r w.root) (hdepth : w.size < depth + above.length) :
    Succeeds (w.assemble depth r) := by
  induction depth generalizing above r with
  | zero =>
    have hsubset : above ⊆ List.range w.size := fun a ha => List.mem_range.2 (habove a ha).1
    have hlength := (List.subperm_of_subset hnodup hsubset).length_le
    rw [List.length_range] at hlength
    omega
  | succ depth ih =>
    refine succeeds_assemble fun p hp => ?_
    have hnew : r ∉ above := fun hr => hacyclic r hroot (habove r hr).2
    refine ih (List.nodup_cons.2 ⟨hnew, hnodup⟩) (List.forall_mem_cons.2 ⟨?_, fun a ha => ?_⟩)
      (.head hp hroot) (by rw [List.length_cons]; omega)
    · exact ⟨hp.lt_size, .single hp⟩
    · exact ⟨(habove a ha).1, .head hp (habove a ha).2⟩

/-- All that lies in a document of which there is a tree is well-founded. -/
theorem acc_of_tree? {v : Value} (h : w.tree? = some v) {r : Ref}
    (hroot : ReflTransGen w.IsPart r w.root) : Acc w.IsPart r := by
  have hacc : Acc w.IsPart w.root :=
    tree?_induction (P := fun r _ => Acc w.IsPart r)
      (fun r _ hfilled => .intro r hfilled.forall_parts) h
  induction hroot using ReflTransGen.head_induction_on with
  | refl => exact hacc
  | head hp _ ih => exact Acc.inv ih hp

/-- What is well-founded is no part of itself. -/
theorem not_transGen_of_acc {r : Ref} (h : Acc w.IsPart r) : ¬ TransGen w.IsPart r r := by
  have htrans : Acc (TransGen w.IsPart) r := Acc.transGen h
  induction htrans with
  | intro r _ ih => exact fun hcycle => ih r hcycle (Acc.inv_of_transGen h hcycle) hcycle

/-- **There is no tree of a document exactly if a node in it is a part of itself.** -/
theorem tree?_eq_none_iff :
    w.tree? = none ↔ ∃ r, ReflTransGen w.IsPart r w.root ∧ TransGen w.IsPart r r := by
  constructor
  · intro h
    by_contra hacyclic
    have hsucceeds : Succeeds (w.assemble (w.size + 1) w.root) :=
      succeeds_of_acyclic (fun r hroot hcycle => hacyclic ⟨r, hroot, hcycle⟩) List.nodup_nil
        (List.forall_mem_nil _) .refl (Nat.lt_succ_self w.size)
    obtain ⟨⟨v, trees⟩, hrun⟩ := hsucceeds (Array.replicate w.size none)
    have htree : w.tree? = some v := Option.map_eq_some_iff.2 ⟨(v, trees), hrun, rfl⟩
    cases h.symm.trans htree
  · rintro ⟨r, hroot, hcycle⟩
    by_contra hsome
    obtain ⟨v, h⟩ := Option.ne_none_iff_exists'.1 hsome
    exact not_transGen_of_acc (acc_of_tree? h hroot) hcycle

/-! ## The shape of schema documents

A walk that is told nothing has seen every node on its way down, within the depth that it had room
for. -/

/-- A text has no parts. -/
theorem not_isPart_of_view {room : Room} {p r : Ref} (hview : w.view room r = .text) :
    ¬ w.IsPart p r := by
  unfold view at hview
  unfold IsPart
  split at hview
  · cases hview
  · rename_i hcell
    rw [hcell]
    exact List.not_mem_nil
  · cases hview

/-- What was read to a mapping is seen as one, and nothing else is. -/
theorem cell_of_view {room : Room} {r : Ref} {entries : List (Value × Ref)}
    (hview : w.view room r = .mapping entries) : w.cell r = .mapping entries := by
  unfold view at hview
  split at hview
  · rename_i hcell
    cases hview
    exact hcell
  · cases hview
  · cases hview

/-- The parts of a mapping are its values. -/
theorem isPart_iff_of_view {room : Room} {p r : Ref} {entries : List (Value × Ref)}
    (hview : w.view room r = .mapping entries) : w.IsPart p r ↔ ∃ e ∈ entries, e.2 = p := by
  rw [IsPart, cell_of_view hview]
  exact List.mem_map

/-- Where nothing offends there are texts, and mappings in whose values nothing offends, so that the
tree of a node can be put together. -/
theorem succeeds_of_violationsAt {room : Room} {depth n : Nat} {segments : List String} {r : Ref}
    (h : Document.violationsAt (w.view room) depth segments r = .ok []) (hdepth : depth < n) :
    Succeeds (w.assemble n r) := by
  induction n generalizing depth segments r with
  | zero => exact absurd hdepth (Nat.not_lt_zero depth)
  | succ n ih =>
    refine succeeds_assemble fun p hp => ?_
    obtain hview | ⟨entries, inner, hview, rfl, hvalues⟩ := Document.cases_of_violationsAt h
    · exact absurd hp (not_isPart_of_view hview)
    · obtain ⟨e, he, rfl⟩ := (isPart_iff_of_view hview).1 hp
      obtain ⟨segments', hvalue⟩ := hvalues e he
      exact ih hvalue (Nat.lt_of_succ_lt_succ hdepth)

/-- **The shape of a document of which there is no tree** is found to be wrong, if the look at it
comes to its end. -/
theorem violations_ne_nil (h : w.tree? = none) (stack : Stack) : w.violations stack ≠ .ok [] := by
  intro hnil
  have hdepth := Nat.lt_succ_of_le (stack.shape.atMost_le w.size)
  obtain ⟨⟨v, trees⟩, hrun⟩ := succeeds_of_violationsAt hnil hdepth (Array.replicate w.size none)
  have htree : w.tree? = some v := Option.map_eq_some_iff.2 ⟨(v, trees), hrun, rfl⟩
  cases h.symm.trans htree

/-! ## What the look at the shape halts at

In a document that is no tree an offence may be quoted that is endless itself. Its literal is told
all the same, with dots for a collection that has come up before on the way, or it takes more room
than there is. -/

/-- **Why an endless document cannot be told of**: an integer in one of its nodes is too long to be
written, or there is no room. -/
def Untold (w : Web) (fault : ShapeFault) : Prop :=
  (fault = .numeral .tooLongToWrite ∧ ∃ r, ¬ (w.cell r).HasShortIntegers) ∨ fault = .tooDeep

/-- There may be no room to go down. -/
theorem comesTo_enter (w : Web) (room : Room) :
    ComesTo w.Untold (fun _ => True) (room.enter .tooDeep) :=
  ((room.comesTo_enter ShapeFault.tooDeep).mono fun _ h => .inr h.1).imp fun _ _ => trivial

/-- A value is quoted, or cannot be told of. -/
theorem comesTo_quote {v : Value}
    (hlong : ¬ v.HasShortIntegers → ∃ r, ¬ (w.cell r).HasShortIntegers) (room : Room) :
    ComesTo w.Untold (fun _ => True) (v.quote room) := by
  cases h : v.quote room with
  | ok s => exact .ok trivial
  | error fault =>
    obtain ⟨-, rfl⟩ | ⟨-, hv, rfl⟩ := Value.quote_eq_error_iff.1 h
    · exact .error (.inr rfl)
    · exact .error (.inl ⟨rfl, hlong hv⟩)

/-- Literals are joined, or one of them cannot be told of. -/
theorem comesTo_joined {α : Type} {f : α → Except ShapeFault String} {as : List α}
    (h : ∀ a ∈ as, ComesTo w.Untold (fun _ => True) (f a)) (join : List String → String) :
    ComesTo w.Untold (fun _ => True) (do return join (← as.mapM f)) :=
  (ComesTo.mapM h).bind fun _ _ => .ok trivial

/-- A node is quoted, or cannot be told of. -/
theorem comesTo_literal (depth : Nat) (room : Room) (openNodes : List Ref) (r : Ref) :
    ComesTo w.Untold (fun _ => True) (w.literal depth room openNodes r) := by
  induction depth generalizing room openNodes r with
  | zero => exact .error (.inr rfl)
  | succ depth ih =>
    unfold literal
    refine (w.comesTo_enter room).bind fun inner _ => ?_
    extract_lets part
    split
    · exact .ite (.ok trivial) (comesTo_joined (fun p _ => ih inner _ p) _)
    · refine .ite (.ok trivial) (comesTo_joined (fun p _ => ?_) _)
      exact (w.comesTo_enter inner).bind fun pairRoom _ =>
        (ih pairRoom _ p.1).bind fun _ _ => (ih pairRoom _ p.2).bind fun _ _ => .ok trivial
    · rename_i entries hcell
      refine .ite (.ok trivial) (comesTo_joined (fun e he => ?_) _)
      refine (comesTo_quote (fun hlong => ⟨r, fun short => hlong ?_⟩) inner).bind fun _ _ =>
        (ih inner _ e.2).bind fun _ _ => .ok trivial
      rw [hcell] at short
      exact short e he
    · refine comesTo_quote (fun hlong => ⟨r, fun short => hlong ?_⟩) room
      cases hcell : w.cell r with
      | scalar key | set members =>
        rw [hcell] at short
        exact short
      | _ => simp [Cell.bare, Value.HasShortIntegers]

/-- **The look at the shape of an endless document** halts at what cannot be told of. -/
theorem untold_of_halts {room : Room} {depth : Nat} {r : Ref} {fault : ShapeFault}
    (h : Document.Halts (w.view room) fault depth r) : w.Untold fault := by
  induction h with
  | @other fault _ r hview =>
    have hliteral : w.literal (w.size + 1) room [] r = .error fault := by
      unfold view at hview
      split at hview
      · cases hview
      · cases hview
      · exact Document.View.other.inj hview
    exact (comesTo_literal _ room [] r).of_eq_error hliteral
  | noRoom => exact .inr rfl
  | @key _ r entries e hview he hlong =>
    refine .inl ⟨rfl, r, fun short => hlong ?_⟩
    rw [cell_of_view hview] at short
    exact short e he
  | value _ _ _ _ ih => exact ih

end Web

end TreeSchema.Yaml
