import TreeSchema.Proofs.Computation
import TreeSchema.Yaml.Grammar

/-!
# The faults of the grammar of YAML

Putting tokens together takes them from the front one by one, so what is left is always a part of
what there was. Tokens that do not fit are malformed. Where the text becomes unreadable its own
fault is told, so the grammar adds no fault of that kind to those of the tokens. And it goes down a
level only behind a token at which a collection begins, so it is too deep only if there are more of
these tokens than there is room for (`Grammar.Stops`). There is no other fault
(`Grammar.comesTo_document`).

The last point is what the proof has to carry along, as the room shrinks while the tokens do. If the
whole room was enough for the whole text, what is left of the room is enough for what is left of the
text (`Grammar.Left`). Going down a level takes one from the room and, with the token at which the
collection begins, at least one from the tokens, and coming back only gives room back.

What is left is said of all the tokens that there were at the start (`all`), and not of those that a
function was called with. In this way the faults of a part are faults of the whole as they stand,
and the invariant is handed from one function to the next without being changed.

The functions of the grammar call each other, and there is one lemma for each of them, with the same
measure. What four of them do in the same way, starting a collection, going down a level, filling it
and coming back, is one lemma (`Grammar.drafts_collection`), so each of the cases is left with how
its parts are put together. Nothing is said of the nodes that come out of it: what a document is
read to is the matter of the reader, and the grammar adds no fault to it.
-/

namespace TreeSchema.Yaml.Grammar

/-- Whether a collection can begin at a token: a dash and a mark of a key begin one where no token
stands for the beginning. -/
def opens : Token → Bool
  | .sequenceStart | .mappingStart | .flowSequenceStart | .flowMappingStart | .blockEntry
  | .key => true
  | _ => false

/-- **How many collections begin in tokens** at most. -/
def openings (ts : List Token) : Nat := ts.countP opens

/-- **What the grammar stops at** in tokens that it has a room for: tokens that do not fit, the end
of what is readable, or more collections than the room is for. -/
inductive Stops (whole : Room) (ts : List Token) : Fault → Prop
  | malformed (problem : Problem) : Stops whole ts (.malformed problem)
  | unreadable {fault : Fault} (h : .unreadable fault ∈ ts) : Stops whole ts fault
  | tooDeep (h : ¬ whole.Fits (openings ts)) : Stops whole ts .tooDeep

/-- **What is left of tokens and of the room for them**: a part of the tokens, and room enough for
it if there was enough for all. -/
structure Left (whole : Room) (all : List Token) (room : Room) (ts : List Token) : Prop where
  subset : ts ⊆ all
  fits : whole.Fits (openings all) → room.Fits (openings ts)

namespace Left

variable {whole room inner : Room} {all ts r : List Token} {t : Token}

/-- All tokens are left in front of the first one. -/
theorem refl (room : Room) (ts : List Token) : Left room ts room ts :=
  ⟨List.Subset.refl ts, id⟩

/-- Taking tokens from the front leaves room enough. -/
theorem drop (h : Left whole all room ts) (hr : r.Sublist ts) : Left whole all room r :=
  ⟨List.Subset.trans hr.subset h.subset, fun hall => (h.fits hall).mono hr.countP_le⟩

/-- The first token is taken. -/
theorem tail (h : Left whole all room (t :: ts)) : Left whole all room ts :=
  h.drop (List.sublist_cons_self t ts)

/-- The token in front is one of all. -/
theorem head_mem (h : Left whole all room (t :: ts)) : t ∈ all := h.subset (.head _)

/-- Going down behind a token at which a collection begins. -/
theorem enter (h : Left whole all room (t :: ts)) (ht : opens t = true)
    (hbelow : inner.IsBelow room) : Left whole all inner ts := by
  refine ⟨h.tail.subset, fun hall => (hbelow _).2 ?_⟩
  rw [openings, ← List.countP_cons_of_pos ht]
  exact h.fits hall

/-- Coming back from one level down. -/
theorem leave (h : Left whole all inner ts) (hbelow : inner.IsBelow room) :
    Left whole all room ts :=
  ⟨h.subset, fun hall => ((hbelow _).1 (h.fits hall)).mono (Nat.le_succ _)⟩

/-- Going down where a collection begins comes to a smaller room, or there is not room for all. -/
theorem comesTo_enter (h : Left whole all room (t :: ts)) (ht : opens t = true) :
    ComesTo (Stops whole all)
      (fun inner => inner.IsBelow room ∧ Left whole all inner ts)
      (room.enter Fault.tooDeep) := by
  refine ((room.comesTo_enter Fault.tooDeep).mono ?_).imp fun inner hbelow =>
    ⟨hbelow, h.enter ht hbelow⟩
  rintro _ ⟨rfl, hnone⟩
  refine .tooDeep fun hall => hnone (openings ts) ?_
  rw [openings, ← List.countP_cons_of_pos ht]
  exact h.fits hall

end Left

variable {whole room : Room} {all ts : List Token} {handles : Handles}

/-- Tokens that do not fit are malformed, or the token in front tells why no more can be read. -/
theorem stops_misfit (problem : Problem) (h : Left whole all room ts) :
    Stops whole all (misfit problem ts) := by
  unfold misfit
  split
  · exact .unreadable h.head_mem
  · exact .malformed problem

/-- **What a step of the grammar comes to** from any draft: a result with a property, or what the
grammar stops at. -/
abbrev Drafts {α : Type} (whole : Room) (ts : List Token) (good : α → Prop) (x : Drafting α) :
    Prop :=
  Keeps (Stops whole ts) (fun _ => True) good x

/-- A step that looks at the draft or adds to it does not fail. -/
theorem drafts_modifyGet {α : Type} (f : Draft → α × Draft) :
    Drafts whole ts (fun _ => True) (MonadStateOf.modifyGet f : Drafting α) :=
  .modifyGet fun _ _ => ⟨trivial, trivial⟩

/-! ## Adding nodes

A draft is added to without fail, except for a name that is not there or is there twice. -/

/-- A node for what is not written. -/
theorem drafts_addAbsent : Drafts whole all (fun _ => True) addAbsent := drafts_modifyGet _

/-- A name may not have been given to any node. -/
theorem drafts_aliased (name : String) : Drafts whole all (fun _ => True) (aliased name) := by
  refine (drafts_modifyGet _).bind fun d _ => ?_
  split
  · exact .pure trivial
  · exact .throw (.malformed _)

/-- A name may have been given to another node. -/
theorem drafts_checkAnchor (anchor : Option String) :
    Drafts whole all (fun _ => True) (checkAnchor anchor) := by
  refine (drafts_modifyGet _).bind fun d _ => ?_
  split
  · exact .throw (.malformed _)
  · exact .pure trivial

/-! ## Properties

In front of a node stand its name and its tag, in either order. -/

/-- A tag may have a handle that was not declared. -/
theorem comesTo_expandTag (handle : Option String) (suffix : String) :
    ComesTo (Stops whole all) (fun _ => True) (expandTag handles handle suffix) := by
  unfold expandTag
  split
  · exact .ok trivial
  · split
    · exact .ok trivial
    · exact .error (.malformed _)

/-- They are taken from the front. -/
theorem comesTo_properties (h : Left whole all room ts) :
    ComesTo (Stops whole all) (fun t => Left whole all room t.rest) (properties handles ts) := by
  unfold properties
  split
  · exact (comesTo_expandTag _ _).bind fun _ _ =>
      .ok h.tail.tail
  · exact (comesTo_expandTag _ _).bind fun _ _ =>
      .ok h.tail.tail
  · exact .error (.unreadable h.tail.head_mem)
  · exact .ok h.tail
  · exact (comesTo_expandTag _ _).bind fun _ _ => .ok h.tail
  · exact .ok h

/-- Between the parts of a collection in brackets stands a comma. -/
theorem comesTo_flowStart (first : Bool) (h : Left whole all room ts) :
    ComesTo (Stops whole all) (fun t => Left whole all room t.rest) (flowStart first ts) := by
  unfold flowStart
  split
  · exact .ok h
  · split
    · exact .ok h.tail
    · exact .error (stops_misfit _ h)

/-! ## Nodes

A node is a name of another one, a scalar or a collection. Which of them it is, and where it ends,
is told by the tokens in front. -/

/-- The first token is taken, and there are fewer left. -/
theorem left_of_eq_cons {t : Token} {ts r : List Token} (heq : ts = t :: r)
    (h : Left whole all room ts) : Left whole all room r ∧ r.length < ts.length := by
  subst heq
  exact ⟨h.tail, Nat.lt_succ_self _⟩

/-- A collection is started before its parts are put together, one level down, and filled with them
afterwards. -/
theorem drafts_collection {α : Type} {m n : Nat} {start : Drafting Ref}
    {parts : Room → Drafting (Taken α m)} (toContent : α → Content)
    (hfewer : ∀ c : Taken α m, c.rest.length < n) {t : Token} (h : Left whole all room (t :: ts))
    (ht : opens t = true) (hstart : Drafts whole all (fun _ => True) start)
    (hparts : ∀ inner, Left whole all inner ts →
      Drafts whole all (fun t => Left whole all inner t.rest) (parts inner)) :
    Drafts whole all (fun t : Taken Ref n => Left whole all room t.rest) (do
      let inner ← room.enter Fault.tooDeep
      let self ← start
      let c ← parts inner
      fill self (toContent c.value)
      return ⟨self, c.rest, hfewer c⟩) :=
  (Keeps.lift (h.comesTo_enter ht)).bind fun inner hinner => hstart.bind fun _ _ =>
    (hparts inner hinner.2).bind fun _ hc => (drafts_modifyGet _).bind fun _ _ =>
      .pure (hc.leave hinner.1)

mutual

/-- A node with its properties, or nothing where a node may be left out. -/
theorem drafts_node {room : Room} {ctx : Context} {ts : List Token} (h : Left whole all room ts) :
    Drafts whole all (fun t => Left whole all room t.rest) (node handles room ctx ts) := by
  unfold node
  split
  · rename_i name r
    exact (drafts_aliased name).bind fun _ _ => .pure h.tail
  -- After the anchor and the tag, the next token decides. Without it there is nothing but the
  -- properties, which is an empty scalar.
  · refine (Keeps.lift (comesTo_properties h)).bind fun p hrest => ?_
    have hp := p.fewer
    dsimp only
    split
    · split
      · exact (drafts_checkAnchor _).bind fun _ _ => (drafts_modifyGet _).bind fun _ _ =>
          .pure hrest
      · exact .throw (.malformed _)
    · rename_i fault tail hp'
      exact .throw (.unreadable (hp' ▸ hrest).head_mem)
    · rename_i t r hno hp'
      have hleft : Left whole all room (t :: r) := hp' ▸ hrest
      have hlt : r.length + 1 = p.rest.length := by rw [hp', List.length_cons]
      refine (drafts_checkAnchor _).bind fun _ _ => ?_
      split
      · exact (drafts_modifyGet _).bind fun _ _ => .pure hleft.tail
      · exact drafts_collection .sequence _ hleft rfl (drafts_modifyGet _) fun _ hr =>
          drafts_flowSequence hr
      · exact drafts_collection .mapping _ hleft rfl (drafts_modifyGet _) fun _ hr =>
          drafts_flowMapping hr
      · split
        · rename_i ht
          exact drafts_collection .sequence _ hleft (ht.1 ▸ rfl) (drafts_modifyGet _) fun _ hr =>
            drafts_blockSequence hr
        · split
          · rename_i ht
            exact drafts_collection .mapping _ hleft (ht.1 ▸ rfl) (drafts_modifyGet _) fun _ hr =>
              drafts_blockMapping hr
          · split
            · rename_i ht
              exact drafts_collection .sequence _ hleft (ht.1 ▸ rfl) (drafts_modifyGet _)
                fun _ hr => drafts_flushSequence hr
            · split
              · exact (drafts_modifyGet _).bind fun _ _ => .pure hrest
              · exact .throw (.malformed _)
termination_by 3 * ts.length

/-- A list with dashes, up to its end. -/
theorem drafts_blockSequence {room : Room} {ts : List Token} (h : Left whole all room ts) :
    Drafts whole all (fun t => Left whole all room t.rest) (blockSequence handles room ts) := by
  unfold blockSequence
  split
  · exact .pure h.tail
  · refine (drafts_nodeUnless h.tail).bind fun item hrest => ?_
    have hi := item.fewer
    exact (drafts_blockSequence hrest).bind fun _ hmore => .pure hmore
  · exact .throw (stops_misfit _ h)
termination_by 3 * ts.length + 1
decreasing_by
  all_goals
    subst_vars
    rw [List.length_cons]
    omega

/-- A list with dashes that are not further in than the key of the list. -/
theorem drafts_flushSequence {room : Room} {ts : List Token} (h : Left whole all room ts) :
    Drafts whole all (fun t => Left whole all room t.rest) (flushSequence handles room ts) := by
  unfold flushSequence
  refine (drafts_nodeUnless h).bind fun item hrest => ?_
  have hi := item.fewer
  dsimp only
  split
  · rename_i r hr
    obtain ⟨hr, hlt⟩ := left_of_eq_cons hr hrest
    exact (drafts_flushSequence hr).bind fun _ hmore => .pure hmore
  · exact .pure hrest
termination_by 3 * ts.length + 2

/-- A mapping in lines, up to its end. -/
theorem drafts_blockMapping {room : Room} {ts : List Token} (h : Left whole all room ts) :
    Drafts whole all (fun t => Left whole all room t.rest) (blockMapping handles room ts) := by
  unfold blockMapping
  split
  · exact .pure h.tail
  · refine (drafts_nodeUnless h.tail).bind fun key hkey => ?_
    have hk := key.fewer
    refine (drafts_valueUnless hkey).bind fun value hvalue => ?_
    have hv := value.fewer
    exact (drafts_blockMapping hvalue).bind fun _ hmore => .pure hmore
  · exact .throw (stops_misfit _ h)
termination_by 3 * ts.length + 1
decreasing_by
  all_goals
    subst_vars
    rw [List.length_cons]
    omega

/-- A list in brackets, in which a pair of key and value is a mapping of its own. -/
theorem drafts_flowSequence {room : Room} {first : Bool} {ts : List Token}
    (h : Left whole all room ts) :
    Drafts whole all (fun t => Left whole all room t.rest)
      (flowSequence handles room first ts) := by
  unfold flowSequence
  split
  · exact .pure h.tail
  · refine (Keeps.lift (comesTo_flowStart first h)).bind fun start hstart => ?_
    have hs := start.fewer
    dsimp only
    split
    · rename_i r hr
      exact .pure (left_of_eq_cons hr hstart).1
    · rename_i r hr
      obtain ⟨-, hlt⟩ := left_of_eq_cons hr hstart
      refine (Keeps.lift ((hr ▸ hstart).comesTo_enter rfl)).bind fun inner hinner => ?_
      refine (drafts_modifyGet _).bind fun self _ => ?_
      refine (drafts_nodeUnless hinner.2).bind fun key hkey => ?_
      have hk := key.fewer
      refine (drafts_valueUnless hkey).bind fun value hvalue => ?_
      have hv := value.fewer
      refine (drafts_modifyGet _).bind fun _ _ => ?_
      exact (drafts_flowSequence (hvalue.leave hinner.1)).bind fun _ hmore => .pure hmore
    · refine (drafts_node hstart).bind fun item hitem => ?_
      have hi := item.fewer
      exact (drafts_flowSequence hitem).bind fun _ hmore => .pure hmore
termination_by 3 * ts.length + 2

/-- A mapping in braces. -/
theorem drafts_flowMapping {room : Room} {first : Bool} {ts : List Token}
    (h : Left whole all room ts) :
    Drafts whole all (fun t => Left whole all room t.rest) (flowMapping handles room first ts) := by
  unfold flowMapping
  split
  · exact .pure h.tail
  · refine (Keeps.lift (comesTo_flowStart first h)).bind fun start hstart => ?_
    have hs := start.fewer
    dsimp only
    split
    · rename_i r hr
      exact .pure (left_of_eq_cons hr hstart).1
    · rename_i r hr
      obtain ⟨hr, hlt⟩ := left_of_eq_cons hr hstart
      refine (drafts_nodeUnless hr).bind fun key hkey => ?_
      have hk := key.fewer
      refine (drafts_valueUnless hkey).bind fun value hvalue => ?_
      have hv := value.fewer
      exact (drafts_flowMapping hvalue).bind fun _ hmore => .pure hmore
    · refine (drafts_node hstart).bind fun key hkey => ?_
      have hk := key.fewer
      refine drafts_addAbsent.bind fun _ _ => ?_
      exact (drafts_flowMapping hkey).bind fun _ hmore => .pure hmore
termination_by 3 * ts.length + 2

/-- A node, if none of the tokens stands there that end it. -/
theorem drafts_nodeUnless {room : Room} {ends : List Token → Bool} {ctx : Context} {ts : List Token}
    (h : Left whole all room ts) :
    Drafts whole all (fun t => Left whole all room t.rest)
      (nodeUnless ends handles room ctx ts) := by
  unfold nodeUnless
  split
  · exact drafts_addAbsent.bind fun _ _ => .pure h
  · exact (drafts_node h).bind fun _ ht => .pure ht
termination_by 3 * ts.length + 1

/-- A value behind its mark, or none. -/
theorem drafts_valueUnless {room : Room} {ends : List Token → Bool} {ctx : Context}
    {ts : List Token} (h : Left whole all room ts) :
    Drafts whole all (fun t => Left whole all room t.rest)
      (valueUnless ends handles room ctx ts) := by
  unfold valueUnless
  split
  · exact (drafts_nodeUnless h.tail).bind fun _ ht => .pure ht
  · exact drafts_addAbsent.bind fun _ _ => .pure h
termination_by 3 * ts.length + 1
decreasing_by
  subst_vars
  rw [List.length_cons]
  omega

end

/-! ## Documents

A stream may have directives in front of its document, and the document has to be the only one. -/

/-- The directives are taken from the front. -/
theorem comesTo_header {versioned : Bool} {handles : Handles} {ts : List Token}
    (h : Left whole all room ts) :
    ComesTo (Stops whole all) (fun r => Left whole all room r.2) (header versioned handles ts) := by
  fun_induction header versioned handles ts with
  | case1 | case3 => exact .error (.malformed _)
  | case2 _ _ _ _ _ _ ih | case4 _ _ _ _ _ _ ih | case5 _ _ _ ih => exact ih h.tail
  | case6 => exact .ok h.tail
  | case7 => exact .error (stops_misfit _ h)

/-- Nothing follows the document. -/
theorem comesTo_endStream {ts : List Token} (h : Left whole all room ts) :
    ComesTo (Stops whole all) (fun _ => True) (endStream ts) := by
  unfold endStream
  dsimp only
  split
  · exact .ok trivial
  · exact (comesTo_header (h.drop (List.dropWhile_sublist _))).bind fun _ _ =>
      .error (.malformed _)

/-- **The grammar stops** at tokens that do not fit, where the text becomes unreadable, or at a
collection that there is no room for. -/
theorem comesTo_document (room : Room) (ts : List Token) :
    ComesTo (Stops room ts) (fun _ => True) (document room ts) := by
  unfold document
  split
  · exact .ok trivial
  · extract_lets isExplicit finish
    have hfinish : ∀ r, Left room ts room r.2 →
        ComesTo (Stops room ts) (fun _ => True) (finish r) := by
      rintro ⟨handles, content⟩ hcontent
      have hbody : Drafts room ts (fun r : Ref × List Token => Left room ts room r.2)
          (if isExplicit && endsDocument content then do return (← addAbsent, content)
          else do
            let t ← node handles room .block content
            return (t.value, t.rest)) := by
        split
        · exact drafts_addAbsent.bind fun _ _ => .pure hcontent
        · exact (drafts_node hcontent).bind fun _ ht => .pure ht
      exact (hbody {} trivial).bind fun p hp => (comesTo_endStream hp.1).bind fun _ _ =>
        .ok trivial
    split
    · exact (comesTo_header (.refl room ts)).bind hfinish
    · exact hfinish (defaultHandles, ts) (.refl room ts)

end TreeSchema.Yaml.Grammar
