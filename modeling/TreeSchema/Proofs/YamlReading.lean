import TreeSchema.Proofs.Unfolding
import TreeSchema.Proofs.YamlGrammar
import TreeSchema.Proofs.YamlTokens
import TreeSchema.Yaml.Reading

/-!
# What reading a document of YAML refuses

A document whose graph has been put together is still refused where a scalar has no value by its tag
(`Graph.Refuses`). It is also refused where reading has to follow nodes further than there is room
for. There are two ways of this. Mappings can take over the entries of each other, each one a level
below the one before, and there are fewer levels of this kind than entries in the document. And
mappings can stand for each other by their value keys (`Graph.LeadsOn`), where there may be no end:
a chain that is longer than there are nodes goes in a circle.

Reading changes the graph on its way, but only narrows it: scalars stay as they are, a tag stays or
becomes the one of texts, and no entry with a value key is added (`Graph.Narrows`). So whatever
reading refuses late in its course is refused by the graph that it began with. With the faults of
the tokens and of the grammar this gives all the reasons why a text is not read (`comesTo_decode`).

What narrows is a preorder, and the relations that a refusal is made of go back along it
(`Graph.Narrows.standsFor`, `Graph.Narrows.leadsOn`). The one that needs the tags to change in one
direction only is the refusal of a scalar: a scalar that was made a text is read as it stands, so it
is not refused any more, and every other one has the tag that it had. That a value key has to be
among the old entries is what keeps chains from becoming longer: taking over entries would otherwise
close a circle that the document does not have. It holds because the value keys of what is taken
over are made texts first (`Graph.narrows_textKeys`).

A merge key is taken out of its mapping before what it leads to is merged, so a chain of merge keys
uses up an entry at every level, and the number of all entries bounds it (`Graph.mergeDepth`). The
levels that a document really needs may be fewer, when its merge keys stand side by side.
`Graph.Refuses` is about what can be the reason of a fault, and for this it is enough to say that
the room does not fit the bound.

Reading goes round by round over the nodes that wait, and a round adds to the state. The invariant
(`Reading.Follows`) has a second half beside the graph: in what was read the keys differ. It is
shown here because the entries of a mapping are put in by assignment, where a key that is the same
as one before keeps the first place and takes the last value. That such a document has distinct keys
is the premise of the theorem on reordering.
-/

namespace TreeSchema.Yaml

/-- **A fault of a text that is malformed.** -/
def Fault.IsMalformed (fault : Fault) : Prop := ∃ problem, fault = .malformed problem

namespace Graph

variable {g g' g'' : Graph} {r : Ref}

/-- **The text that a node stands for** where a scalar is asked for: its own, or the one that the
value of its value key stands for. -/
inductive StandsFor (g : Graph) : Ref → String → Prop
  | scalar {r : Ref} {s : String} (h : g.content r = .scalar s) : StandsFor g r s
  | value {r k v : Ref} {es : List (Ref × Ref)} {s : String} (h : g.content r = .mapping es)
    (hmem : (k, v) ∈ es) (hkey : g.tag k = .value) (hvalue : StandsFor g v s) : StandsFor g r s

/-- **Mappings that stand for each other**: there are so many of them, each one the value of a value
key of the one before, and more may follow. -/
inductive LeadsOn (g : Graph) : Nat → Ref → Prop
  | start {r : Ref} : LeadsOn g 0 r
  | value {n : Nat} {r k v : Ref} {es : List (Ref × Ref)} (h : g.content r = .mapping es)
    (hmem : (k, v) ∈ es) (hkey : g.tag k = .value) (hrest : LeadsOn g n v) : LeadsOn g (n + 1) r

/-- **What a document is refused for** on a stack, where mappings take over the entries of each
other through not more than `depth` levels: it is malformed, or a scalar has no value by its tag, or
a mapping is tagged as a timestamp, or nodes would have to be followed further than there is room
for. -/
inductive Refuses (stack : Stack) (depth : Nat) (g : Graph) : Fault → Prop
  | malformed (problem : Problem) : Refuses stack depth g (.malformed problem)
  | scalar {r : Ref} {s : String} {read : String → Except Fault Value} {fault : Fault}
    (hread : Constant.reader? (g.tag r) = some read) (htext : g.StandsFor r s)
    (hfault : read s = .error fault) : Refuses stack depth g fault
  | timestamp {r : Ref} {es : List (Ref × Ref)} (htag : g.tag r = .timestamp)
    (hcontent : g.content r = .mapping es) : Refuses stack depth g .timestampInMapping
  | merging (hroom : ¬ stack.merge.Fits depth) : Refuses stack depth g .tooDeep
  | standIn {n : Nat} {r : Ref} (hleads : g.LeadsOn n r)
    (hroom : ¬ stack.standIn.Fits n ∨ g.size < n) : Refuses stack depth g .tooDeep

/-- **What merging is refused for** in a room for as many levels as it may need. -/
def MergeFault (room : Room) (depth : Nat) (fault : Fault) : Prop :=
  fault.IsMalformed ∨ fault = .tooDeep ∧ ¬ room.Fits depth

/-- What stops merging is a refusal of the graph. -/
theorem MergeFault.refuses {stack : Stack} {depth : Nat} {fault : Fault}
    (h : MergeFault stack.merge depth fault) : g.Refuses stack depth fault := by
  obtain ⟨problem, rfl⟩ | ⟨rfl, hroom⟩ := h
  · exact .malformed problem
  · exact .merging hroom

/-- One level more may be needed than in what follows. -/
theorem MergeFault.succ {room : Room} {depth : Nat} {fault : Fault}
    (h : MergeFault room depth fault) : MergeFault room (depth + 1) fault :=
  h.imp_right <| And.imp_right <| mt fun hfits => hfits.mono (Nat.le_succ depth)

/-- Merging a level down needs one level more. -/
theorem comesTo_enter (room : Room) (depth : Nat) :
    ComesTo (MergeFault room (depth + 1))
      (fun inner => ∀ fault, MergeFault inner depth fault → MergeFault room (depth + 1) fault)
      (room.enter Fault.tooDeep) := by
  refine ((room.comesTo_enter Fault.tooDeep).mono ?_).imp fun inner hbelow fault h => ?_
  · rintro _ ⟨rfl, hnone⟩
    exact .inr ⟨rfl, hnone depth⟩
  · exact h.imp_right <| And.imp_right <| mt (hbelow depth).2

/-- **A graph that reading left of another one.** -/
structure Narrows (g g' : Graph) : Prop where
  size : g'.size = g.size
  tag : ∀ r, g'.tag r = g.tag r ∨ g'.tag r = .str
  scalar : ∀ r s, g'.content r = .scalar s → g.content r = .scalar s
  sequence : ∀ r items, g'.content r = .sequence items → g.content r = .sequence items
  mapping : ∀ r es', g'.content r = .mapping es' →
    ∃ es, g.content r = .mapping es ∧ ∀ e ∈ es', g'.tag e.1 = .value → e ∈ es

namespace Narrows

/-- A graph is left as it is. -/
theorem refl (g : Graph) : g.Narrows g :=
  ⟨rfl, fun _ => .inl rfl, fun _ _ h => h, fun _ _ h => h, fun _ es h => ⟨es, h, fun _ he _ => he⟩⟩

/-- A value key has been one before. -/
theorem tag_eq_value (h : g.Narrows g') (hvalue : g'.tag r = .value) : g.tag r = .value := by
  obtain heq | hstr := h.tag r
  · exact heq.symm.trans hvalue
  · cases hstr.symm.trans hvalue

/-- What narrows a narrowed graph narrows the first one. -/
theorem trans (h : g.Narrows g') (h' : g'.Narrows g'') : g.Narrows g'' where
  size := h'.size.trans h.size
  tag r := by
    obtain heq | hstr := h'.tag r
    · rw [heq]
      exact h.tag r
    · exact .inr hstr
  scalar r s hs := h.scalar r s (h'.scalar r s hs)
  sequence r items hs := h.sequence r items (h'.sequence r items hs)
  mapping r es'' hes'' := by
    obtain ⟨es', hes', hvalues'⟩ := h'.mapping r es'' hes''
    obtain ⟨es, hes, hvalues⟩ := h.mapping r es' hes'
    exact ⟨es, hes, fun e he hvalue =>
      hvalues e (hvalues' e he hvalue) (h'.tag_eq_value hvalue)⟩

/-- A mapping stays a mapping. -/
theorem exists_mapping (h : g.Narrows g') {es : List (Ref × Ref)}
    (hes : g.content r = .mapping es) : ∃ es', g'.content r = .mapping es' := by
  cases hcontent : g'.content r with
  | scalar s => cases (h.scalar r s hcontent).symm.trans hes
  | sequence items => cases (h.sequence r items hcontent).symm.trans hes
  | mapping es' => exact ⟨es', rfl⟩

/-- What a node stands for it has stood for before. -/
theorem standsFor (h : g.Narrows g') {s : String} (hs : g'.StandsFor r s) : g.StandsFor r s := by
  induction hs with
  | scalar hcontent => exact .scalar (h.scalar _ _ hcontent)
  | value hcontent hmem hkey _ ih =>
    obtain ⟨es, hes, hvalues⟩ := h.mapping _ _ hcontent
    exact .value hes (hvalues _ hmem hkey) (h.tag_eq_value hkey) ih

/-- Mappings that stand for each other have stood for each other before. -/
theorem leadsOn (h : g.Narrows g') {n : Nat} (hn : g'.LeadsOn n r) : g.LeadsOn n r := by
  induction hn with
  | start => exact .start
  | value hcontent hmem hkey _ ih =>
    obtain ⟨es, hes, hvalues⟩ := h.mapping _ _ hcontent
    exact .value hes (hvalues _ hmem hkey) (h.tag_eq_value hkey) ih

/-- **What is refused has been refused before**: texts are never refused. -/
theorem refuses (h : g.Narrows g') {stack : Stack} {depth : Nat} {fault : Fault}
    (hrefuses : g'.Refuses stack depth fault) : g.Refuses stack depth fault := by
  cases hrefuses with
  | malformed problem => exact .malformed problem
  | merging hroom => exact .merging hroom
  | standIn hleads hroom => exact .standIn (h.leadsOn hleads) (h.size ▸ hroom)
  | @scalar r s read _ hread htext hfault =>
    obtain heq | hstr := h.tag r
    · exact .scalar (heq ▸ hread) (h.standsFor htext) hfault
    · rw [hstr] at hread
      cases hread
      cases hfault
  | @timestamp r es htag hcontent =>
    obtain heq | hstr := h.tag r
    · obtain ⟨es, hes, -⟩ := h.mapping _ _ hcontent
      exact .timestamp (heq ▸ htag) hes
    · cases hstr.symm.trans htag

end Narrows

/-! ## Changes of a graph

There are two: the entries of a mapping are set, and a key is given the tag of texts. Setting a
reference that no node has changes nothing, so every lemma has this as its first case. -/

/-- A node has its content set, or stays as it is. -/
theorem node_setContent (g : Graph) (r r' : Ref) (c : Content) :
    (g.setContent r c).node r' = g.node r' ∨
      r = r' ∧ (g.setContent r c).node r' = { g.node r' with content := c } := by
  simp only [node, setContent, Array.getElem?_modify]
  split
  · rename_i hr
    cases g.nodes[r']? with
    | none => exact .inl rfl
    | some n => exact .inr ⟨hr, rfl⟩
  · exact .inl rfl

/-- Setting a content changes no tag. -/
theorem tag_setContent (g : Graph) (r r' : Ref) (c : Content) :
    (g.setContent r c).tag r' = g.tag r' := by
  unfold tag
  obtain h | ⟨-, h⟩ := node_setContent g r r' c <;> rw [h]

/-- A node has the content that was set, or the one that it had. -/
theorem content_setContent (g : Graph) (r r' : Ref) (c : Content) :
    (g.setContent r c).content r' = g.content r' ∨
      r = r' ∧ (g.setContent r c).content r' = c := by
  unfold content
  obtain h | ⟨hr, h⟩ := node_setContent g r r' c
  · exact .inl (by rw [h])
  · exact .inr ⟨hr, by rw [h]⟩

/-- A node has its tag set, or stays as it is. -/
theorem node_setTag (g : Graph) (r r' : Ref) (t : Tag) :
    (g.setTag r t).node r' = g.node r' ∨
      r = r' ∧ (g.setTag r t).node r' = { g.node r' with tag := t } := by
  simp only [node, setTag, Array.getElem?_modify]
  split
  · rename_i hr
    cases g.nodes[r']? with
    | none => exact .inl rfl
    | some n => exact .inr ⟨hr, rfl⟩
  · exact .inl rfl

/-- Setting a tag changes no content. -/
theorem content_setTag (g : Graph) (r r' : Ref) (t : Tag) :
    (g.setTag r t).content r' = g.content r' := by
  unfold content
  obtain h | ⟨-, h⟩ := node_setTag g r r' t <;> rw [h]

/-- A mapping may lose entries, and gain entries without value keys. -/
theorem narrows_setContent {es es' : List (Ref × Ref)} (hes : g.content r = .mapping es)
    (hvalues : ∀ e ∈ es', g.tag e.1 = .value → e ∈ es) :
    g.Narrows (g.setContent r (.mapping es')) where
  size := size_setContent g r _
  tag r' := .inl (tag_setContent g r r' _)
  scalar r' s hs := by
    obtain h | ⟨-, h⟩ := content_setContent g r r' (.mapping es')
    · exact h.symm.trans hs
    · cases h.symm.trans hs
  sequence r' items hs := by
    obtain h | ⟨-, h⟩ := content_setContent g r r' (.mapping es')
    · exact h.symm.trans hs
    · cases h.symm.trans hs
  mapping r' es'' hes'' := by
    simp only [tag_setContent]
    obtain h | ⟨rfl, h⟩ := content_setContent g r r' (.mapping es')
    · exact ⟨es'', h.symm.trans hes'', fun e he _ => he⟩
    · cases h.symm.trans hes''
      exact ⟨es, hes, hvalues⟩

/-- What a mapping holds after its entries were set. -/
theorem entries_setContent {es es' : List (Ref × Ref)} (hes : g.content r = .mapping es) :
    (g.setContent r (.mapping es')).entries r = es' := by
  unfold content node at hes
  simp only [entries, content, node, setContent, Array.getElem?_modify, if_true]
  cases hn : g.nodes[r]? with
  | none =>
    rw [hn] at hes
    cases hes
  | some n => rfl

/-- A node that is made a text is read as one. -/
theorem narrows_setTag (g : Graph) (r : Ref) : g.Narrows (g.setTag r .str) where
  size := size_setTag g r .str
  tag r' := by
    unfold tag
    obtain h | ⟨-, h⟩ := node_setTag g r r' .str
    · exact .inl (by rw [h])
    · exact .inr (by rw [h])
  scalar r' s hs := by rwa [content_setTag] at hs
  sequence r' items hs := by rwa [content_setTag] at hs
  mapping r' es hes := ⟨es, by rwa [content_setTag] at hes, fun e he _ => he⟩

/-- A node that is made a text has the tag of texts. A reference without a node has it anyway. -/
theorem tag_setTag_str (g : Graph) (r : Ref) : (g.setTag r .str).tag r = .str := by
  simp only [tag, node, setTag, Array.getElem?_modify, if_true]
  cases g.nodes[r]? <;> rfl

/-- **Whether entries are free of value keys.** -/
def HasNoValueKey (g : Graph) (es : List (Ref × Ref)) : Prop := ∀ e ∈ es, g.tag e.1 ≠ .value

/-- No value keys come in by narrowing. -/
theorem HasNoValueKey.narrows {es : List (Ref × Ref)} (h : g.HasNoValueKey es)
    (hnarrows : g.Narrows g') : g'.HasNoValueKey es :=
  fun e he hvalue => h e he (hnarrows.tag_eq_value hvalue)

/-- The value keys of entries are made texts. -/
theorem narrows_textKeys (g : Graph) (es : List (Ref × Ref)) :
    g.Narrows (g.textKeys es) ∧ (g.textKeys es).HasNoValueKey es := by
  unfold textKeys
  induction es generalizing g with
  | nil => exact ⟨.refl g, List.forall_mem_nil _⟩
  | cons e es ih =>
    rw [List.foldl_cons]
    have hfirst : g.Narrows (if g.tag e.1 = .value then g.setTag e.1 .str else g) ∧
        (if g.tag e.1 = .value then g.setTag e.1 .str else g).tag e.1 ≠ .value := by
      split
      · refine ⟨narrows_setTag g e.1, ?_⟩
        rw [tag_setTag_str]
        exact fun h => by cases h
      · exact ⟨.refl g, ‹_›⟩
    obtain ⟨hnarrows, hrest⟩ := ih (if g.tag e.1 = .value then g.setTag e.1 .str else g)
    exact ⟨hfirst.1.trans hnarrows, List.forall_mem_cons.2
      ⟨fun hvalue => hfirst.2 (hnarrows.tag_eq_value hvalue), hrest⟩⟩

/-! ## Merging

A mapping is searched for its first merge key. That key is taken out, what it leads to is merged in
turn, and the search goes on with what was taken over so far. -/

/-- What is before a merge key and what is behind it are entries of the mapping. -/
theorem splitAtMerge_subset (g : Graph) (es : List (Ref × Ref)) :
    (g.splitAtMerge es).1 ⊆ es ∧
      ∀ found, (g.splitAtMerge es).2 = some found → found.2 ⊆ es := by
  fun_induction splitAtMerge g es with
  | case1 => exact ⟨List.nil_subset _, nofun⟩
  | case2 k v es hmerge =>
    refine ⟨List.nil_subset _, ?_⟩
    rintro _ ⟨⟩
    exact List.subset_cons_self _ _
  | case3 k v es hkey before found hrest ih =>
    rw [hrest] at ih
    exact ⟨List.cons_subset_cons _ ih.1, fun f hf => List.subset_cons_of_subset _ (ih.2 f hf)⟩

/-- A mapping without merge keys gets its entries behind those that were taken over for it, and its
value keys are made texts. -/
theorem narrows_takeOver {es own taken : List (Ref × Ref)} (hes : g.content r = .mapping es)
    (htaken : g.HasNoValueKey taken) {after : Graph}
    (hafter : after = (g.textKeys own).setContent r (.mapping (taken ++ own))) :
    g.Narrows after ∧ after.HasNoValueKey (after.entries r) := by
  subst hafter
  obtain ⟨htexts, hown⟩ := g.narrows_textKeys own
  obtain ⟨es', hes'⟩ := htexts.exists_mapping hes
  have hvalues : (g.textKeys own).HasNoValueKey (taken ++ own) :=
    List.forall_mem_append.2 ⟨htaken.narrows htexts, hown⟩
  have hset := narrows_setContent hes' fun e he hvalue => absurd hvalue (hvalues e he)
  refine ⟨htexts.trans hset, ?_⟩
  rw [entries_setContent hes']
  exact hvalues.narrows hset

/-- **Merging narrows a graph**, and leaves the mapping without value keys. It is refused only
because something is malformed, or for a lack of room. -/
theorem comesTo_merge (depth : Nat) (room : Room) {g : Graph} {r : Ref}
    {es taken : List (Ref × Ref)} (hes : g.content r = .mapping es)
    (htaken : g.HasNoValueKey taken) :
    ComesTo (MergeFault room depth)
      (fun g' => g.Narrows g' ∧ g'.HasNoValueKey (g'.entries r)) (merge depth room g r taken) := by
  induction depth generalizing room g r es taken with
  | zero => exact .error (.inl ⟨_, rfl⟩)
  | succ depth ih =>
    have hentries : g.entries r = es := by rw [entries, hes]
    have hsplit := g.splitAtMerge_subset (g.entries r)
    unfold merge
    split
    · exact .ok (narrows_takeOver hes htaken rfl)
    · rename_i before source after hfound
      rw [hfound] at hsplit
      have hset : g.Narrows (g.setContent r (.mapping (before ++ after))) := by
        refine narrows_setContent hes fun e he _ => hentries ▸ ?_
        exact (List.mem_append.1 he).elim (fun he => hsplit.1 he) fun he => hsplit.2 _ rfl he
      extract_lets gone
      -- What the merge key leads to is taken over before the next merge key is looked at.
      have hmore : ∀ {g' : Graph} {more : List (Ref × Ref)}, gone.Narrows g' →
          g'.HasNoValueKey more → ComesTo (MergeFault room (depth + 1))
            (fun g' => g.Narrows g' ∧ g'.HasNoValueKey (g'.entries r))
            (merge depth room g' r (taken ++ more)) := by
        intro g' more hnarrows hvalues
        have hall := hset.trans hnarrows
        obtain ⟨es'', hes''⟩ := hall.exists_mapping hes
        have hmerge := ih room hes'' (List.forall_mem_append.2 ⟨htaken.narrows hall, hvalues⟩)
        exact (hmerge.mono fun _ => .succ).imp fun g'' h => ⟨hall.trans h.1, h.2⟩
      split
      · exact .error (.inl ⟨_, rfl⟩)
      · exact (comesTo_enter room depth).bind fun inner hinner =>
          ((ih inner ‹_› (List.forall_mem_nil _)).mono hinner).bind fun g' h => hmore h.1 h.2
      · rename_i items hitems
        refine (ComesTo.foldlM (fun p => gone.Narrows p.1 ∧ p.1.HasNoValueKey p.2.flatten)
          ?_ items ⟨.refl gone, List.forall_mem_nil _⟩).bind fun p h => hmore h.1 h.2
        rintro ⟨g', groups⟩ item ⟨hnarrows, hgroups⟩
        dsimp only
        split
        · refine (comesTo_enter room depth).bind fun inner hinner =>
            ((ih inner ‹_› (List.forall_mem_nil _)).mono hinner).bind fun g'' h => .ok ?_
          exact ⟨hnarrows.trans h.1, List.forall_mem_append.2 ⟨h.2, hgroups.narrows h.1⟩⟩
        · exact .error (.inl ⟨_, rfl⟩)

/-! ## Scalars

A mapping can stand where a scalar is asked for, if it has a value key: then the value is asked. -/

/-- **What comes of asking for the text of a node**: a text that it stands for, or the node is of
another kind, or it leads on further than there is room for. -/
theorem comesTo_scalarText (depth : Nat) (room : Room) (r : Ref) :
    ComesTo (fun fault => fault.IsMalformed ∨
        fault = .tooDeep ∧ ∃ n, g.LeadsOn n r ∧ (¬ room.Fits n ∨ depth ≤ n))
      (g.StandsFor r) (g.scalarText depth room r) := by
  induction depth generalizing room r with
  | zero => exact .error (.inr ⟨rfl, 0, .start, .inr (Nat.le_refl 0)⟩)
  | succ depth ih =>
    unfold scalarText
    split
    · exact .ok (.scalar ‹_›)
    · exact .error (.inl ⟨_, rfl⟩)
    · split
      · rename_i es hes _ k v hfind
        have hmem := List.mem_of_find?_eq_some hfind
        have hkey : g.tag k = .value := of_decide_eq_true (List.find?_some hfind :)
        refine ((room.comesTo_enter Fault.tooDeep).mono ?_).bind fun inner hbelow => ?_
        · rintro _ ⟨rfl, hnone⟩
          exact .inr ⟨rfl, 1, .value hes hmem hkey .start, .inl (hnone 0)⟩
        · refine ((ih inner v).mono fun fault h => h.imp_right <| And.imp_right ?_).imp
            fun s hs => .value hes hmem hkey hs
          rintro ⟨n, hleads, hn⟩
          exact ⟨n + 1, .value hes hmem hkey hleads, hn.imp (mt (hbelow n).2) Nat.succ_le_succ⟩
      · exact .error (.inl ⟨_, rfl⟩)

end Graph

/-- Keys that are not the same differ as values. -/
theorem Key.sameKey_of_not_same {k l : Key} (h : k.same l = false) :
    l.value.sameKey k.value = false := by
  rw [same, Bool.or_eq_false_iff] at h
  exact (Value.sameKey_comm _ _).trans h.1

/-- A result that is made into a value has distinct keys, if whatever is made has. -/
theorem hasDistinctKeys_of_map {ε α : Type} {x : Except ε α} {make : α → Value} {v : Value}
    (hmake : ∀ a, (make a).HasDistinctKeys) (h : x.map make = .ok v) : v.HasDistinctKeys := by
  cases x with
  | error => cases h
  | ok a =>
    cases h
    exact hmake a

/-- A timestamp has no entries. -/
theorem Constant.hasDistinctKeys_timestamp {cs : List Char} {v : Value}
    (h : timestamp cs = .ok v) : v.HasDistinctKeys := by
  unfold timestamp at h
  split at h
  · cases h
  · dsimp only at h
    split at h <;>
      exact hasDistinctKeys_of_map (fun _ => by simp [Value.HasDistinctKeys])
        (mapError_eq_ok_iff.1 h)

/-- What a scalar is read to has no entries. -/
theorem Constant.hasDistinctKeys_of_read {tag : Tag} {read : String → Except Fault Value}
    (hread : reader? tag = some read) {s : String} {v : Value} (h : read s = .ok v) :
    v.HasDistinctKeys := by
  cases tag with
  | null | str =>
    obtain rfl := Option.some.inj hread
    obtain rfl := Except.ok.inj h
    simp [Value.HasDistinctKeys]
  | bool | binary =>
    obtain rfl := Option.some.inj hread
    exact hasDistinctKeys_of_map (fun _ => by simp [Value.HasDistinctKeys]) h
  | int | float =>
    obtain rfl := Option.some.inj hread
    exact hasDistinctKeys_of_map (fun _ => by simp [Value.HasDistinctKeys]) (mapError_eq_ok_iff.1 h)
  | timestamp =>
    obtain rfl := Option.some.inj hread
    exact hasDistinctKeys_timestamp h
  | _ => cases hread

namespace Reading

variable {stack : Stack} {depth : Nat} {g : Graph}

/-- **A scalar is read**, or the graph is refused for it. -/
theorem comesTo_scalar (stack : Stack) (depth : Nat) (g : Graph) (r : Ref) :
    ComesTo (g.Refuses stack depth) (fun key => key.value.HasDistinctKeys) (scalar stack g r) := by
  unfold scalar
  extract_lets n
  split
  · rename_i read hread
    have htext : ComesTo (g.Refuses stack depth) (g.StandsFor r)
        (g.scalarText (g.size + 1) stack.standIn r) := by
      refine (g.comesTo_scalarText _ _ r).mono fun fault h => ?_
      obtain ⟨problem, rfl⟩ | ⟨rfl, n, hleads, hn⟩ := h
      · exact .malformed problem
      · exact .standIn hleads hn
    refine htext.bind fun text hstands => ?_
    split
    · rename_i es htag hcontent
      exact .error (.timestamp htag hcontent)
    -- The fault is the one of the text that was reached, which may stand at another node.
    · have hfaults : ComesTo (g.Refuses stack depth) Value.HasDistinctKeys (read text) := by
        cases hvalue : read text with
        | ok v => exact .ok (Constant.hasDistinctKeys_of_read hread hvalue)
        | error fault => exact .error (.scalar hread hstands hvalue)
      exact hfaults.bind fun _ hv => .ok hv
  · exact .error (.malformed _)

/-- **How far reading has come** from a graph: it has only been narrowed, and in what was read the
keys differ. -/
structure Follows (g : Graph) (p : Progress) : Prop where
  graph : g.Narrows p.graph
  keys : Web.KeysDiffer p.cells

/-- The keys still differ when a node with distinct keys has been read. -/
theorem keysDiffer_set {cells : Array (Option Cell)} (h : Web.KeysDiffer cells) (r : Ref) {c : Cell}
    (hc : c.HasDistinctKeys) : Web.KeysDiffer (cells.setIfInBounds r (some c)) := by
  intro r' c' hc'
  rw [Array.getElem?_setIfInBounds] at hc'
  split at hc'
  · split at hc'
    · cases hc'
      exact hc
    · cases hc'
  · exact h r' c' hc'

/-- **What a step of reading keeps**: reading has come further from the graph that it began with. -/
abbrev Keeps {α : Type} (stack : Stack) (depth : Nat) (g : Graph) (good : α → Prop)
    (x : Reading α) : Prop :=
  TreeSchema.Keeps (g.Refuses stack depth) (Follows g) good x

/-- A node that was read with distinct keys is noted. -/
theorem keeps_note (r : Ref) {c : Cell} (hc : c.HasDistinctKeys) :
    Keeps stack depth g (fun _ => True) (note r c) :=
  .modify fun _ hp => ⟨hp.graph, keysDiffer_set hp.keys r hc⟩

/-- A collection is opened, with nothing read of it yet. -/
theorem keeps_openNode (r : Ref) : Keeps stack depth g (fun _ => True) (openNode r) :=
  .modify fun _ hp => ⟨hp.graph, keysDiffer_set hp.keys r trivial⟩

/-- The nodes that wait are taken. -/
theorem keeps_takeWaiting : Keeps stack depth g (fun _ => True) takeWaiting :=
  .modifyGet fun _ hp => ⟨trivial, hp.graph, hp.keys⟩

/-- What is malformed is refused. -/
theorem keeps_fail {α : Type} {good : α → Prop} (problem : Problem) :
    Keeps stack depth g good (fail problem : Reading α) :=
  .throw (.malformed problem)

/-- A node is visited: it has been read before, or it is a collection to be read later, or a scalar
that is read at once. -/
theorem keeps_visit (r : Ref) : Keeps stack depth g (fun _ => True) (visit stack r) := by
  refine TreeSchema.Keeps.get.bind fun p hp => ?_
  split
  · exact .pure trivial
  · exact .pure trivial
  · split
    · exact (keeps_openNode r).bind fun _ _ => .pure trivial
    · have hscalar := (comesTo_scalar stack depth p.graph r).mono fun _ => hp.graph.refuses
      exact (TreeSchema.Keeps.lift hscalar).bind fun key hkey =>
        (keeps_note r (c := .scalar key) hkey).bind fun _ _ => .pure trivial

/-- **The entries of a mapping are read to distinct keys**, whatever keys they were written with. -/
theorem keeps_entries (es : List (Ref × Ref)) :
    Keeps stack depth g (fun read => (Cell.mapping read).HasDistinctKeys) (entries stack es) := by
  unfold entries
  refine TreeSchema.Keeps.bind (TreeSchema.Keeps.mapM (fun e => ?_) es) fun pairs _ => .pure ?_
  · refine (keeps_visit e.1).bind fun key? _ => ?_
    cases key? with
    | none => exact keeps_fail _
    | some key => exact (keeps_visit e.2).bind fun _ _ => .pure trivial
  -- Whether keys are the same is decided for keys as they are read, and what is shown is about the
  -- values that they become.
  · have hkeys := Assoc.pairwise_foldl_alter (R := fun k l : Key => k.value.sameKey l.value = false)
      (fun key k => Key.sameKey_of_not_same) pairs
    rw [Cell.HasDistinctKeys, List.map_map, List.pairwise_map]
    exact List.pairwise_map.1 hkeys

/-- A mapping is read with the entries that it takes over. -/
theorem keeps_mergedEntries {r : Ref} {es : List (Ref × Ref)} (hes : g.content r = .mapping es) :
    Keeps stack depth g (fun read => (Cell.mapping read).HasDistinctKeys)
      (mergedEntries stack depth r) := by
  refine TreeSchema.Keeps.get.bind fun p hp => ?_
  obtain ⟨es', hes'⟩ := hp.graph.exists_mapping hes
  -- The mapping may have been narrowed since it was opened, so the merging starts from what is left
  -- of it.
  have hmerge : ComesTo (g.Refuses stack depth) (fun g' => g.Narrows g')
      (Graph.merge depth stack.merge p.graph r []) :=
    ((Graph.comesTo_merge depth stack.merge hes' (List.forall_mem_nil _)).mono
      fun _ h => h.refuses).imp fun g' h => hp.graph.trans h.1
  refine (TreeSchema.Keeps.lift hmerge).bind fun g' hg' => ?_
  have hset : Keeps stack depth g (fun _ => True) (set { p with graph := g' } : Reading Unit) :=
    .set ⟨hg', hp.keys⟩
  exact hset.bind fun _ _ => keeps_entries _

/-- A node is looked up in a graph that has been narrowed. -/
theorem keeps_node (r : Ref) :
    Keeps stack depth g (fun n => ∃ g', g.Narrows g' ∧ n = g'.node r) (node r) :=
  TreeSchema.Keeps.get.bind fun p hp => .pure ⟨p.graph, hp.graph, rfl⟩

/-- A pair of a list of pairs is read. -/
theorem keeps_pair (r : Ref) : Keeps stack depth g (fun _ => True) (pair stack r) := by
  refine (keeps_node r).bind fun n _ => ?_
  split
  · exact (keeps_visit _).bind fun _ _ => (keeps_visit _).bind fun _ _ => .pure trivial
  · exact keeps_fail _

/-- A collection is filled by its tag and kind. -/
theorem keeps_fill (r : Ref) : Keeps stack depth g (fun _ => True) (fill stack depth r) := by
  refine (keeps_node r).bind fun n hn => ?_
  obtain ⟨g', hg', rfl⟩ := hn
  split
  · exact (TreeSchema.Keeps.forIn (fun item _ => (keeps_visit item).bind fun _ _ =>
      .pure trivial) _).bind fun _ _ => keeps_note r trivial
  · exact (TreeSchema.Keeps.mapM keeps_pair _).bind fun _ _ => keeps_note r trivial
  · exact (TreeSchema.Keeps.mapM keeps_pair _).bind fun _ _ => keeps_note r trivial
  · rename_i es _ hcontent
    obtain ⟨es, hes, -⟩ := hg'.mapping r es hcontent
    exact (keeps_mergedEntries hes).bind fun _ hread => keeps_note r hread
  · rename_i es _ hcontent
    obtain ⟨es, hes, -⟩ := hg'.mapping r es hcontent
    exact (keeps_mergedEntries hes).bind fun _ _ => keeps_note r trivial
  · exact keeps_fail _

/-- The rounds follow each other as long as nodes wait. -/
theorem keeps_rounds (count : Nat) :
    Keeps stack depth g (fun _ => True) (rounds stack depth count) := by
  induction count with
  | zero => exact .pure trivial
  | succ count ih =>
    refine keeps_takeWaiting.bind fun now _ => ?_
    split
    · exact .pure trivial
    · exact (TreeSchema.Keeps.forIn (fun r _ => (keeps_fill r).bind fun _ _ =>
        .pure trivial) _).bind fun _ _ => ih

/-- All of a document is read from its root on. -/
theorem keeps_all (count : Nat) (root : Ref) :
    Keeps stack depth g (fun _ => True) (all stack depth count root) :=
  (keeps_visit root).bind fun _ _ => keeps_rounds count

end Reading

/-- **A graph is refused for what is in it**, or read to a document with distinct keys. -/
theorem Graph.comesTo_document (stack : Stack) (g : Graph) (root : Ref) :
    ComesTo (g.Refuses stack g.mergeDepth) Decoded.HasDistinctKeys (g.document stack root) := by
  refine (Reading.keeps_all g.size root _ ⟨.refl g, fun r c hc => ?_⟩).bind fun p hp =>
    .ok (Decoded.hasDistinctKeys_ofWeb hp.2.keys)
  rw [Array.getElem?_replicate] at hc
  split at hc <;> cases hc

/-- **What keeps a text from being read as a document** on a stack: it becomes unreadable, or more
collections may lie inside each other than there is room for, or the graph of its document is
refused. -/
inductive Obstacle (stack : Stack) (text : String) (fault : Fault) : Prop
  | unreadable (h : Unreadable text.toList fault)
  | tooDeep (hroom : ¬ stack.yaml.Fits (Grammar.openings (tokens text))) (hfault : fault = .tooDeep)
  | refused {g : Graph} {root : Ref}
    (hdocument : Grammar.document stack.yaml (tokens text) = .ok (some (g, root)))
    (h : g.Refuses stack g.mergeDepth fault)

/-- **A text is read as a document** with distinct keys, or there is an obstacle in it. -/
theorem comesTo_decode (stack : Stack) (text : String) :
    ComesTo (Obstacle stack text) Decoded.HasDistinctKeys (decode stack text) := by
  refine ((Grammar.comesTo_document stack.yaml (tokens text)).mono fun fault hstops => ?_).bind_eq
    fun document hdocument _ => ?_
  · cases hstops with
    | malformed problem => exact .unreadable (.malformed problem)
    | unreadable h => exact .unreadable (unreadable_of_mem_tokens h)
    | tooDeep hroom => exact .tooDeep hroom rfl
  · split
    · refine .ok fun depth => ?_
      simp [Decoded.upTo, Value.HasDistinctKeys]
    · rename_i g root
      exact (g.comesTo_document stack root).mono fun _ => .refused hdocument

/-- A sequence that is its own item is read, and can be looked at as deep as one likes. -/
example : (match decode .unbounded "&a [*a]" with
    | .ok document => (document.upTo 2).literal.toOption
    | .error _ => none) = some "[[[]]]" := by decide +kernel

/-- A mapping that stands for itself where a text is asked for is not read on any stack. -/
example : (match decode .unbounded "&a !!str {=: *a}" with
    | .ok _ => none
    | .error fault => some fault) = some .tooDeep := by decide +kernel

end TreeSchema.Yaml
