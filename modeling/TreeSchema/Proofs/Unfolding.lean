import TreeSchema.Loading
import TreeSchema.Proofs.ByPosition
import TreeSchema.Proofs.DistinctKeys

/-!
# Documents down to a depth

A text of YAML can be read to a document that is a part of itself. There is no data tree of it, but
down to any depth it looks like one (`Decoded.upTo`), and this module says that nothing is lost by
looking no further.

Two values look the same down to a depth if they are containers of one kind with the same keys in
the same order, and what stands under each key looks the same one level less deep; at the end of the
depth their types must do (`Value.AgreeTo`). Looking further at a document agrees with what was seen
before (`Decoded.agreeTo_upTo`), and matching looks no further than its schema reaches. So a check
of a document has one report, however far beyond that reach the document is unfolded
(`Matcher.check_upTo`). A data tree that is put together from a document agrees with it down to
every depth (`Yaml.Web.agreeTo_of_tree?`), so it makes no difference either whether a tree was made.

A matcher walks along its schema, which is finite, and a program that is given a list with itself
for its only item walks into it as many times as the schema has levels and then stops. What it does
there is what it does with any tree that is deep enough. The alternative would be a second matcher,
for webs of nodes, and a proof that the two agree; with the unfolding there is one, and what has
been proved of reports holds of endless data as it stands.

The types at the end of the depth are needed. A schema reaches to its leaves, and a leaf looks at
the type of what it meets and, for a pair of types, at the types one level below. Nothing that lies
deeper is looked at, which is why an unfolding may show an empty container there.

Nodes are filled to values by their cells (`Yaml.Cell.FilledTo`), and there are two ways to do it:
level by level from below, which gives the unfolding, and by putting a tree together, node by node.
A property that every cell keeps when it is filled holds of either (`Yaml.Web.tree?_induction`), and
this is how the two are compared and how it is shown that the keys in a document differ.
-/

namespace TreeSchema

/-! ## Values that look the same

Matching would be content with the same pairs, and could not tell a list from the mapping of its
positions. A cell is filled to a container of one kind, so the stronger relation is there to be had,
and it is the simpler one to carry along. -/

namespace Value

/-- **Whether two values have one shape**, with related values in the same places: they are equal,
or containers of one kind whose keys are the same in the same order. -/
inductive SameShape (R : Value → Value → Prop) : Value → Value → Prop
  | refl (v : Value) : SameShape R v v
  | list {items others : List Value} (h : List.Forall₂ R items others) :
      SameShape R (.list items) (.list others)
  | tuple {items others : List Value} (h : List.Forall₂ R items others) :
      SameShape R (.tuple items) (.tuple others)
  | mapping {entries others : List (Value × Value)}
      (h : List.Forall₂ (fun e f => e.1 = f.1 ∧ R e.2 f.2) entries others) :
      SameShape R (.mapping entries) (.mapping others)

/-- **Whether two values look the same down to a depth.** -/
def AgreeTo : Nat → Value → Value → Prop
  | 0, a, b => a.type = b.type
  | n + 1, a, b => SameShape (AgreeTo n) a b

/-- A value looks like itself. -/
theorem AgreeTo.refl (n : Nat) (v : Value) : AgreeTo n v v := by
  cases n with
  | zero => rfl
  | succ n => exact SameShape.refl v

variable {R : Value → Value → Prop} {a b : Value}

/-- Values of one shape have one type. -/
theorem SameShape.type_eq (h : SameShape R a b) : a.type = b.type := by
  cases h <;> rfl

/-- Values that look the same have one type. -/
theorem AgreeTo.type_eq {n : Nat} (h : AgreeTo n a b) : a.type = b.type := by
  cases n with
  | zero => exact h
  | succ n => exact SameShape.type_eq h

/-- A weaker relation between the parts. -/
theorem SameShape.imp {S : Value → Value → Prop} (hRS : ∀ x y, R x y → S x y)
    (h : SameShape R a b) : SameShape S a b := by
  cases h with
  | refl => exact .refl a
  | list h => exact .list (h.imp hRS)
  | tuple h => exact .tuple (h.imp hRS)
  | mapping h => exact .mapping (h.imp fun _ _ h => ⟨h.1, hRS _ _ h.2⟩)

/-- What looks the same down to a depth does so down to a smaller one. -/
theorem AgreeTo.mono {m n : Nat} (h : AgreeTo n a b) (hmn : m ≤ n) : AgreeTo m a b := by
  induction m generalizing n a b with
  | zero => exact h.type_eq
  | succ m ih =>
    obtain ⟨n, rfl⟩ := Nat.exists_eq_add_of_lt hmn
    exact SameShape.imp (fun x y hxy => ih hxy (Nat.le_add_right m n)) h

/-- Values of one shape have pairs under the same keys, or neither has any. -/
theorem SameShape.pairs (hR : ∀ v, R v v) (h : SameShape R a b) :
    a.AlikeNonContainers b ∨ ∃ ps qs, a.pairs? = some ps ∧ b.pairs? = some qs ∧
      List.Forall₂ (fun p q => p.1 = q.1 ∧ R p.2 q.2) ps qs := by
  cases h with
  | refl =>
    cases hpairs : a.pairs? with
    | none =>
      have hnot := not_isContainer_of_pairs hpairs
      exact .inl ⟨hnot, hnot, rfl⟩
    | some ps => exact .inr ⟨ps, ps, rfl, rfl, List.forall₂_same.2 fun p _ => ⟨rfl, hR p.2⟩⟩
  | mapping h => exact .inr ⟨_, _, rfl, rfl, h⟩
  | list h | tuple h => exact .inr ⟨_, _, rfl, rfl, forall₂_zipIdx h 0⟩

/-- Values of one shape hold related values under a key, if they hold anything there. -/
theorem SameShape.rel_at? (hR : ∀ v, R v v) (h : SameShape R a b) (key : Value) :
    Option.Rel R (a.at? key) (b.at? key) := by
  cases h with
  | refl =>
    cases a.at? key with
    | none => exact .none
    | some x => exact .some (hR x)
  | list h => exact rel_at?_list h key
  | tuple h =>
    rw [at?_tuple, at?_tuple]
    exact rel_at?_list h key
  | mapping h => exact Assoc.rel_find? h

/-- A look-up ends alike in two values that hold related values under every key. -/
theorem rel_lookup (h : ∀ key, Option.Rel R (a.at? key) (b.at? key)) (key : Value) :
    (∃ fault, a.lookup key = .error fault ∧ b.lookup key = .error fault) ∨
      ∃ x y, a.lookup key = .ok x ∧ b.lookup key = .ok y ∧ Option.Rel R x y := by
  unfold lookup
  cases key.spellings with
  | error fault => exact .inl ⟨fault, rfl, rfl⟩
  | ok keys =>
    refine .inr ⟨_, _, rfl, rfl, ?_⟩
    induction keys with
    | nil => exact .none
    | cons key keys ih =>
      have hkey := h key
      rw [List.findSome?_cons, List.findSome?_cons]
      generalize a.at? key = x at hkey
      generalize b.at? key = y at hkey
      cases hkey with
      | none => exact ih
      | some hxy => exact .some hxy

end Value

/-- What two lists are related to one by one, if each is related to the same list. -/
theorem forall₂_of_common {α β γ : Type} {R : α → β → Prop} {S : α → γ → Prop} {T : β → γ → Prop}
    {l : List α} {bs : List β} {cs : List γ} (hb : List.Forall₂ R l bs) (hc : List.Forall₂ S l cs)
    (h : ∀ a b c, R a b → S a c → T b c) : List.Forall₂ T bs cs := by
  induction hb generalizing cs with
  | nil =>
    cases hc
    exact .nil
  | cons hab _ ih =>
    cases hc with
    | cons hac hc => exact .cons (h _ _ _ hab hac) (ih hc)

/-! ## Matching down to a depth

The induction is on the schema, and the depth goes down with it: what a schema reaches is one level
more than what the schemas below it reach. -/

/-- Two sequences of computations are equal if related ones are. -/
theorem mapM_eq_of_forall₂ {ε α β γ : Type} {f : α → Except ε γ} {g : β → Except ε γ}
    {as : List α} {bs : List β} (h : List.Forall₂ (fun a b => f a = g b) as bs) :
    as.mapM f = bs.mapM g := by
  induction h with
  | nil => rfl
  | cons hab _ ih => rw [List.mapM_cons, List.mapM_cons, hab, ih]

/-- A type expression looks at a value and at the pairs in it. -/
theorem TypeExpr.findings_eq_of_agreeTo {a b : Value} {n : Nat} (h : a.AgreeTo (n + 1) b)
    (e : TypeExpr) (path : String) : e.findings a path = e.findings b path := by
  refine findings_eq_of_agree ?_ path
  unfold Agree
  split
  · refine (Value.SameShape.pairs (.refl n) h).imp_right ?_
    rintro ⟨ps, qs, hps, hqs, hpairs⟩
    refine ⟨ps, qs, hps, hqs, ?_⟩
    rw [← List.forall₂_eq_eq_eq, List.forall₂_map_left_iff, List.forall₂_map_right_iff]
    exact hpairs.imp fun p q hpq =>
      Prod.ext (congrArg Value.type hpq.1) hpq.2.type_eq
  · exact h.type_eq

namespace Schema

/-- A field reaches no further than all of them. -/
theorem reach_le_fieldReach {fs : List (FieldKey × Schema)} {f : FieldKey × Schema} (hf : f ∈ fs) :
    f.2.reach ≤ fieldReach fs := by
  induction hf with
  | head fs => exact Nat.le_max_left _ _
  | tail g _ ih => exact Nat.le_trans ih (Nat.le_max_right _ _)

/-- **A schema finds the same in values that look the same** as far as it reaches. -/
theorem findings_eq_of_agreeTo {s : Schema} {a b : Value} {n : Nat} (hreach : s.reach ≤ n)
    (h : a.AgreeTo n b) (path : String) : s.findings a path = s.findings b path := by
  induction s generalizing a b n path with
  | leaf e =>
    rw [reach] at hreach
    obtain ⟨n, rfl⟩ := Nat.exists_eq_add_of_le' hreach
    rw [findings, findings, TypeExpr.findings_eq_of_agreeTo h]
  | collection siblings item ih =>
    rw [reach] at hreach
    obtain ⟨n, rfl⟩ := Nat.exists_eq_add_of_lt hreach
    rw [findings, findings]
    obtain ⟨ha, hb, htype⟩ | ⟨ps, qs, hps, hqs, hpairs⟩ := Value.SameShape.pairs (.refl _) h
    · rw [Value.pairs_of_not_isContainer ha, Value.pairs_of_not_isContainer hb]
      dsimp only
      rw [Finding.notContainer_congr htype]
    · have heach : ps.mapM (fun p => item.findings p.2 (joinPath path "*"))
          = qs.mapM fun q => item.findings q.2 (joinPath path "*") :=
        mapM_eq_of_forall₂ (hpairs.imp fun p q hpq => ih (Nat.le_add_right _ n) hpq.2 _)
      rw [hps, hqs]
      dsimp only
      rw [heach]
  | fields fs ih =>
    rw [reach] at hreach
    obtain ⟨n, rfl⟩ := Nat.exists_eq_add_of_lt hreach
    have hcontainer : a.isContainer = b.isContainer := by
      rw [Bool.eq_iff_iff, Value.isContainer_iff_type, Value.isContainer_iff_type, h.type_eq]
    have heach : fs.mapM (fieldFinding a path) = fs.mapM (fieldFinding b path) := by
      refine mapM_eq_of_forall₂ (List.forall₂_same.2 fun f hf => ?_)
      have hle := reach_le_fieldReach hf
      -- Looking up a field goes one level down, and what is found is compared one level less deep.
      have hlookup := Value.rel_lookup (Value.SameShape.rel_at? (.refl _) h) f.1.key
      unfold fieldFinding
      obtain ⟨fault, ha, hb⟩ | ⟨x, y, ha, hb, hxy⟩ := hlookup
      · rw [ha, hb]
      · rw [ha, hb]
        cases hxy with
        | none => rfl
        | some hxy => exact ih f hf (by omega) hxy _
    rw [findings, findings, fieldFindings_eq_mapM, fieldFindings_eq_mapM, hcontainer, heach,
      Finding.notContainer_congr h.type_eq]

end Schema

/-! ## Documents down to a depth

A document that is a tree looks like itself at every depth. What is left are webs of nodes. -/

namespace Yaml

open Value

/-! ### Filled cells -/

namespace Cell

/-- **A value that a cell is filled to**, where its parts are filled to values by a relation. -/
inductive FilledTo (P : Ref → Value → Prop) : Cell → Value → Prop
  | scalar (key : Key) : FilledTo P (.scalar key) key.value
  | opened : FilledTo P .opened .null
  | list {items : List Ref} {vs : List Value} (h : List.Forall₂ P items vs) :
      FilledTo P (.list items) (.list vs)
  | pairs {items : List (Ref × Ref)} {vs : List Value}
      (h : List.Forall₂ (fun p v => ∃ x y, v = .tuple [x, y] ∧ P p.1 x ∧ P p.2 y) items vs) :
      FilledTo P (.pairs items) (.list vs)
  | mapping {entries : List (Value × Ref)} {es : List (Value × Value)}
      (h : List.Forall₂ (fun e f => f.1 = e.1 ∧ P e.2 f.2) entries es) :
      FilledTo P (.mapping entries) (.mapping es)
  | set (members : List Value) : FilledTo P (.set members) (.set members)

variable {P Q : Ref → Value → Prop} {c : Cell} {a b : Value}

/-- The value of a cell is one that it is filled to. -/
theorem filledTo_value {f : Ref → Value} (h : ∀ r, P r (f r)) (c : Cell) :
    c.FilledTo P (c.value f) := by
  cases c with
  | scalar key => exact .scalar key
  | opened => exact .opened
  | set members => exact .set members
  | list items =>
    have hvalue : (list items).value f = .list (items.map f) := by simp [value, valueM]
    rw [hvalue]
    exact .list (List.forall₂_map_right_iff.2 (List.forall₂_same.2 fun r _ => h r))
  | pairs items =>
    have hvalue : (pairs items).value f = .list (items.map fun p => .tuple [f p.1, f p.2]) := by
      simp [value, valueM]
    rw [hvalue]
    exact .pairs (List.forall₂_map_right_iff.2
      (List.forall₂_same.2 fun p _ => ⟨_, _, rfl, h p.1, h p.2⟩))
  | mapping entries =>
    have hvalue : (mapping entries).value f = .mapping (entries.map fun e => (e.1, f e.2)) := by
      simp [value, valueM]
    rw [hvalue]
    exact .mapping (List.forall₂_map_right_iff.2 (List.forall₂_same.2 fun e _ => ⟨rfl, h e.2⟩))

/-- A cell has the type of what it is filled to. -/
theorem FilledTo.type_eq (h : c.FilledTo P a) : c.bare.type = a.type := by
  cases h <;> rfl

/-- **Whether the keys of what was read to a cell differ.** -/
def HasDistinctKeys : Cell → Prop
  | scalar key => key.value.HasDistinctKeys
  | mapping entries => (entries.map Prod.fst).Pairwise fun k l => k.sameKey l = false
  | _ => True

/-- What a cell is filled to has distinct keys, if its own keys and those of its parts differ. -/
theorem FilledTo.hasDistinctKeys (h : c.FilledTo (fun _ v => v.HasDistinctKeys) a)
    (distinct : c.HasDistinctKeys) : a.HasDistinctKeys := by
  cases h with
  | scalar => exact distinct
  | opened | set => simp [Value.HasDistinctKeys]
  | list h =>
    rw [Value.HasDistinctKeys]
    exact fun v hv => (exists_mem_of_forall₂ h.flip v hv).elim fun _ h => h.2
  | pairs h =>
    rw [Value.HasDistinctKeys]
    intro v hv
    obtain ⟨_, -, x, y, rfl, hx, hy⟩ := exists_mem_of_forall₂ h.flip v hv
    rw [Value.HasDistinctKeys]
    exact List.forall_mem_cons.2 ⟨hx, List.forall_mem_singleton.2 hy⟩
  | @mapping entries es h =>
    have hkeys : es.map Prod.fst = entries.map Prod.fst := by
      rw [← List.forall₂_eq_eq_eq, List.forall₂_map_left_iff, List.forall₂_map_right_iff]
      exact h.flip.imp fun _ _ h => h.1
    rw [Value.HasDistinctKeys, hkeys]
    exact ⟨distinct, fun f hf => (exists_mem_of_forall₂ h.flip f hf).elim fun _ h => h.2.2⟩

/-- **What a cell is filled to twice looks the same** one level further down than its parts. -/
theorem FilledTo.agreeTo {n : Nat} (ha : c.FilledTo P a) (hb : c.FilledTo Q b)
    (h : ∀ r x y, P r x → Q r y → AgreeTo n x y) : AgreeTo (n + 1) a b := by
  cases ha with
  | scalar | opened | set =>
    cases hb
    exact .refl _ _
  | list has =>
    cases hb with
    | list hbs => exact SameShape.list (forall₂_of_common has hbs h)
  | pairs has =>
    cases hb with
    | pairs hbs =>
      refine SameShape.list (forall₂_of_common has hbs ?_)
      rintro p _ _ ⟨x, y, rfl, hx, hy⟩ ⟨x', y', rfl, hx', hy'⟩
      have htuple : AgreeTo (n + 1) (.tuple [x, y]) (.tuple [x', y']) :=
        SameShape.tuple (.cons (h _ _ _ hx hx') (.cons (h _ _ _ hy hy') .nil))
      exact htuple.mono (Nat.le_succ n)
  | mapping has =>
    cases hb with
    | mapping hbs =>
      exact SameShape.mapping (forall₂_of_common has hbs fun e x y hx hy =>
        ⟨hx.1.trans hy.1.symm, h _ _ _ hx.2 hy.2⟩)

end Cell

namespace Web

variable {w : Web}

/-! ### Unfolding -/

/-- What a node looks like down to a depth. -/
def node (w : Web) (depth : Nat) (r : Ref) : Value := (w.layer depth)[r]?.getD .null

/-- At no depth a node is its cell without the parts. -/
theorem node_zero (w : Web) (r : Ref) : w.node 0 r = (w.cell r).bare := by
  unfold node layer cell
  rw [Array.getElem?_map]
  cases w.cells[r]? with
  | none => rfl
  | some c => rfl

/-- One level further down the parts are filled in. -/
theorem node_succ (w : Web) (depth : Nat) (r : Ref) :
    w.node (depth + 1) r = (w.cell r).value (w.node depth) := by
  unfold node cell
  rw [layer, Array.getElem?_map]
  cases w.cells[r]? with
  | none => rfl
  | some c => rfl

/-- A node looks the same down to a depth as what its cell is filled to, if its parts look the same
as what they are filled to down to every depth. -/
theorem agreeTo_of_filledTo {r : Ref} {v : Value}
    (h : (w.cell r).FilledTo (fun r v => ∀ n, AgreeTo n (w.node n r) v) v) (n : Nat) :
    AgreeTo n (w.node n r) v := by
  cases n with
  | zero =>
    rw [node_zero]
    exact h.type_eq
  | succ n =>
    rw [node_succ]
    refine (Cell.filledTo_value (P := fun r v => v = w.node n r) (fun _ => rfl) _).agreeTo h ?_
    rintro r _ v rfl hv
    exact hv n

/-- **Looking further agrees with what was seen before.** -/
theorem agreeTo_node (w : Web) {m n : Nat} (hmn : m ≤ n) (r : Ref) :
    AgreeTo m (w.node m r) (w.node n r) := by
  induction m generalizing n r with
  | zero =>
    rw [node_zero]
    cases n with
    | zero => rw [node_zero]; exact .refl 0 _
    | succ n =>
      rw [node_succ]
      exact (Cell.filledTo_value (P := fun _ _ => True) (fun _ => trivial) _).type_eq
  | succ m ih =>
    obtain ⟨n, rfl⟩ := Nat.exists_eq_add_of_lt hmn
    rw [node_succ, node_succ]
    refine (Cell.filledTo_value (P := fun r v => v = w.node m r) (fun _ => rfl) _).agreeTo
      (Cell.filledTo_value (P := fun r v => v = w.node (m + n) r) (fun _ => rfl) _) ?_
    rintro r _ _ rfl rfl
    exact ih (Nat.le_add_right m n) r

/-! ### Trees -/

/-- **What a step of putting a tree together gives**, from trees with a property: a result with a
property, and trees that have theirs again. Nothing is said of a step that gives no result. -/
def Yields {α : Type} (inv : Array (Option Value) → Prop) (good : α → Prop) (x : Assembly α) :
    Prop :=
  ∀ s, inv s → ∀ p, x.run s = some p → good p.1 ∧ inv p.2

namespace Yields

variable {α β : Type} {inv : Array (Option Value) → Prop} {good : α → Prop} {good' : β → Prop}

/-- A result. -/
theorem pure {a : α} (h : good a) : Yields inv good (Pure.pure a : Assembly α) := by
  rintro s hs _ ⟨⟩
  exact ⟨h, hs⟩

/-- A sequence of two steps. -/
theorem bind {x : Assembly α} {f : α → Assembly β} (h : Yields inv good x)
    (hf : ∀ a, good a → Yields inv good' (f a)) : Yields inv good' (x >>= f) := by
  intro s hs p hp
  obtain ⟨⟨a, s'⟩, hx, hp⟩ := Option.bind_eq_some_iff.1 hp
  obtain ⟨ha, hs'⟩ := h s hs _ hx
  exact hf a ha s' hs' p hp

/-- The trees that have been put together. -/
theorem get : Yields inv inv (MonadStateOf.get : Assembly _) := by
  rintro s hs _ ⟨⟩
  exact ⟨hs, hs⟩

/-- A change of the trees. -/
theorem change {f : Array (Option Value) → Array (Option Value)} (h : ∀ s, inv s → inv (f s)) :
    Yields inv (fun _ => True) (modify f : Assembly Unit) := by
  rintro s hs _ ⟨⟩
  exact ⟨trivial, h s hs⟩

/-- A weaker property of results. -/
theorem imp {good'' : α → Prop} {x : Assembly α} (h : Yields inv good x)
    (himp : ∀ a, good a → good'' a) : Yields inv good'' x :=
  fun s hs p hp => (h s hs p hp).imp (himp _) id

/-- A step for each element of a list. -/
theorem mapM {R : α → β → Prop} {f : α → Assembly β} (hf : ∀ a, Yields inv (R a) (f a))
    (as : List α) : Yields inv (List.Forall₂ R as) (as.mapM f) := by
  induction as with
  | nil => exact .pure .nil
  | cons a as ih =>
    rw [List.mapM_cons]
    exact (hf a).bind fun b hb => ih.bind fun bs hbs => .pure (.cons hb hbs)

/-- A cell is filled to a value, if its parts are. -/
theorem valueM {P : Ref → Value → Prop} {part : Ref → Assembly Value}
    (h : ∀ r, Yields inv (P r) (part r)) (c : Cell) :
    Yields inv (c.FilledTo P) (c.valueM part) := by
  cases c with
  | scalar key => exact .pure (.scalar key)
  | opened => exact .pure .opened
  | set members => exact .pure (.set members)
  | list items => exact (mapM h items).bind fun vs hvs => .pure (.list hvs)
  | pairs items =>
    refine (mapM (fun p => ?_) items).bind fun vs hvs => .pure (.pairs hvs)
    exact (h p.1).bind fun x hx => (h p.2).bind fun y hy => .pure ⟨x, y, rfl, hx, hy⟩
  | mapping entries =>
    refine (mapM (fun e => ?_) entries).bind fun es hes => .pure (.mapping hes)
    exact (h e.2).bind fun v hv => .pure ⟨rfl, hv⟩

end Yields

/-- **What filling cells keeps is kept when trees are put together**: for the trees that were put
together before as well, of which a node that is a part of several others takes its own. -/
theorem yields_assemble {P : Ref → Value → Prop}
    (hfill : ∀ r v, (w.cell r).FilledTo P v → P r v) (depth : Nat) (r : Ref) :
    Yields (fun trees => ∀ r v, trees[r]?.join = some v → P r v) (P r)
      (w.assemble depth r) := by
  induction depth generalizing r with
  | zero => rintro s hs _ ⟨⟩
  | succ depth ih =>
    rw [assemble]
    refine Yields.get.bind fun trees htrees => ?_
    split
    · exact .pure (htrees _ _ ‹_›)
    · refine ((Yields.valueM ih (w.cell r)).imp fun v hv => hfill r v hv).bind fun v hv => ?_
      refine (Yields.change fun trees htrees => ?_).bind fun _ _ => .pure hv
      intro r' v' hv'
      rw [Array.getElem?_setIfInBounds] at hv'
      split at hv'
      · rename_i heq
        subst heq
        split at hv'
        · cases hv'
          exact hv
        · cases hv'
      · exact htrees r' v' hv'

/-- **Induction on a document of which there is a tree**: what filling cells keeps holds of it. -/
theorem tree?_induction {P : Ref → Value → Prop}
    (hfill : ∀ r v, (w.cell r).FilledTo P v → P r v) {v : Value} (h : w.tree? = some v) :
    P w.root v := by
  obtain ⟨⟨_, trees⟩, hrun, rfl⟩ := Option.map_eq_some_iff.1 h
  refine (yields_assemble hfill _ w.root _ (fun r v hv => ?_) _ hrun).1
  rw [Array.getElem?_replicate] at hv
  split at hv <;> cases hv

/-- **A data tree looks like the document that it was put together from** down to every depth. -/
theorem agreeTo_of_tree? {v : Value} (h : w.tree? = some v) (n : Nat) :
    AgreeTo n (w.unfold n) v :=
  tree?_induction (P := fun r v => ∀ n, AgreeTo n (w.node n r) v)
    (fun _ _ hv => agreeTo_of_filledTo hv) h n

/-! ### Keys -/

/-- **Whether the keys of all nodes that were read differ.** -/
def KeysDiffer (cells : Array (Option Cell)) : Prop :=
  ∀ (r : Ref) (c : Cell), cells[r]?.join = some c → c.HasDistinctKeys

/-- A node that was not read has no keys. -/
theorem hasDistinctKeys_cell (distinct : KeysDiffer w.cells) (r : Ref) :
    (w.cell r).HasDistinctKeys := by
  unfold cell
  cases h : w.cells[r]?.join with
  | none => exact trivial
  | some c => exact distinct r c h

/-- A node has distinct keys down to any depth. -/
theorem hasDistinctKeys_node (distinct : KeysDiffer w.cells) (depth : Nat) (r : Ref) :
    (w.node depth r).HasDistinctKeys := by
  have hcell := hasDistinctKeys_cell distinct
  induction depth generalizing r with
  | zero =>
    rw [node_zero]
    have hbare := hcell r
    cases h : w.cell r with
    | scalar key => rwa [h] at hbare
    | _ => simp [Cell.bare, HasDistinctKeys]
  | succ depth ih =>
    rw [node_succ]
    exact (Cell.filledTo_value ih _).hasDistinctKeys (hcell r)

end Web

end Yaml

namespace Decoded

/-- **Whether the keys of every mapping in a document differ**, however far one looks. -/
def HasDistinctKeys (document : Decoded) : Prop := ∀ depth, (document.upTo depth).HasDistinctKeys

/-- A document has distinct keys if those of the nodes differ that were read. -/
theorem hasDistinctKeys_ofWeb {w : Yaml.Web} (distinct : Yaml.Web.KeysDiffer w.cells) :
    (ofWeb w).HasDistinctKeys := by
  intro depth
  unfold ofWeb
  split
  · exact Yaml.Web.tree?_induction (P := fun _ v => v.HasDistinctKeys)
      (fun r v hfilled => hfilled.hasDistinctKeys (Yaml.Web.hasDistinctKeys_cell distinct r)) ‹_›
  · exact Yaml.Web.hasDistinctKeys_node distinct depth w.root

/-- **A document looks like the web of nodes that it is**, be there a tree of it or not. -/
theorem agreeTo_ofWeb (w : Yaml.Web) (n : Nat) : (w.unfold n).AgreeTo n ((ofWeb w).upTo n) := by
  unfold ofWeb
  split
  · exact Yaml.Web.agreeTo_of_tree? ‹_› n
  · exact .refl n _

/-- **Looking further at a document** agrees with what was seen before. -/
theorem agreeTo_upTo (document : Decoded) {m n : Nat} (hmn : m ≤ n) :
    (document.upTo m).AgreeTo m (document.upTo n) := by
  cases document with
  | tree v => exact .refl m v
  | endless w _ => exact w.agreeTo_node hmn w.root

end Decoded

namespace Matcher

/-- **A check has one report**, however far a document is looked at, if it is far enough for the
schema. -/
theorem check_upTo (m : Matcher) (document : Decoded) {depth : Nat} (h : m.root.reach ≤ depth) :
    m.check (document.upTo depth) = m.check (document.upTo m.root.reach) := by
  unfold check
  rw [Schema.findings_eq_of_agreeTo (Nat.le_refl _) (document.agreeTo_upTo h)]

/-- **What the check of a document comes to**, however far beyond the reach of the schema one
looks. -/
def ChecksTo (m : Matcher) (document : Decoded) (r : Except NumeralFault Report) : Prop :=
  ∀ depth, m.root.reach ≤ depth → m.check (document.upTo depth) = r

/-- It is enough to look as far as the schema reaches. -/
theorem checksTo_iff {m : Matcher} {document : Decoded} {r : Except NumeralFault Report} :
    m.ChecksTo document r ↔ m.check (document.upTo m.root.reach) = r :=
  ⟨fun h => h _ (Nat.le_refl _), fun h _ hdepth => (m.check_upTo document hdepth).trans h⟩

/-- The check of a document that is a tree is the one of the tree. -/
theorem checksTo_tree {m : Matcher} {v : Value} {r : Except NumeralFault Report} :
    m.ChecksTo (.tree v) r ↔ m.check v = r :=
  checksTo_iff

end Matcher

end TreeSchema
