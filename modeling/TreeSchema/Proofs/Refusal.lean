import TreeSchema.Proofs.Walk

/-!
# When matching is refused

Matching is refused when it comes to a field whose key cannot be spelled, and only then. A visit of
fields in a container refuses such a key (`Visit.Refuses`), whatever else is found there, and
matching is refused exactly when it reaches a visit that does (`Visit.Stops`). The statement is a
dichotomy (`Schema.ends_findings`): either no such visit is reached, and then the findings are the
disagreements, or one is reached, and then its key is the cause.

`Ends` is the form of the dichotomy. Stated as two implications – if nothing stops, this is the
result; if something does, there is none – it would have to be proved in both directions for every
part of the walk. As a disjunction in which the cases exclude each other it is carried along by
`map` and `mapM` as it stands, and either implication is read off it at the end.

The cause that is named is one of the keys that cannot be spelled. Which one of them it is, where
there are several, is a matter of the order of the walk, and is told elsewhere (`Visit.StopsFirst`).

Whether a visit is reached depends on the data too. But a schema whose keys can all be spelled stops
nowhere, whatever the data (`Schema.not_stops`), and this is the condition that most statements
about reports are made under.
-/

namespace TreeSchema

/-- **A run ends in one of two ways**: with its result, and then there is no key to stop at, or by
the refusal of a key that it stops at. -/
def Ends {α : Type} (run : Except NumeralFault α) (result : α) (stops : Value → Prop) : Prop :=
  (run = .ok result ∧ ∀ key, ¬ stops key) ∨ ∃ key, stops key ∧ run = .error key.refusal

namespace Ends

variable {α β : Type} {run : Except NumeralFault α} {result : α} {stops : Value → Prop}

/-- A result that is there, where nothing stops. -/
theorem ok (h : ∀ key, ¬ stops key) : Ends (.ok result) result stops :=
  .inl ⟨rfl, h⟩

/-- A result that is changed. -/
theorem map (h : Ends run result stops) (φ : α → β) : Ends (φ <$> run) (φ result) stops := by
  obtain ⟨rfl, hno⟩ | ⟨key, hstop, rfl⟩ := h
  · exact .inl ⟨rfl, hno⟩
  · exact .inr ⟨key, hstop, rfl⟩

/-- A sequence of runs stops where one of them does. -/
theorem mapM {f : α → Except NumeralFault β} {g : α → β} {stops : α → Value → Prop} {l : List α}
    (h : ∀ a ∈ l, Ends (f a) (g a) (stops a)) :
    Ends (l.mapM f) (l.map g) fun key => ∃ a ∈ l, stops a key := by
  induction l with
  | nil => exact .ok fun key ⟨_, ha, _⟩ => absurd ha List.not_mem_nil
  | cons a l ih =>
    rw [List.mapM_cons]
    obtain ⟨hok, hno⟩ | ⟨key, hstop, herr⟩ := h a (.head _)
    · rw [hok]
      obtain ⟨hoks, hnos⟩ | ⟨key, ⟨b, hb, hstop⟩, herr⟩ := ih fun b hb => h b (.tail _ hb)
      · rw [hoks]
        refine .ok fun key ⟨b, hb, hstop⟩ => ?_
        obtain rfl | hb := List.mem_cons.1 hb
        · exact hno key hstop
        · exact hnos key ⟨b, hb, hstop⟩
      · rw [herr]
        exact .inr ⟨key, ⟨b, .tail _ hb, hstop⟩, rfl⟩
    · rw [herr]
      exact .inr ⟨key, ⟨a, .head _, hstop⟩, rfl⟩

/-- There is a result exactly if nothing stops. -/
theorem exists_eq_ok_iff (h : Ends run result stops) :
    (∃ a, run = .ok a) ↔ ∀ key, ¬ stops key := by
  obtain ⟨rfl, hno⟩ | ⟨key, hstop, rfl⟩ := h
  · exact iff_of_true ⟨result, rfl⟩ hno
  · exact iff_of_false nofun fun hno => hno key hstop

/-- The result, if nothing stops. -/
theorem eq_ok (h : Ends run result stops) (hno : ∀ key, ¬ stops key) : run = .ok result := by
  obtain ⟨rfl, -⟩ | ⟨key, hstop, -⟩ := h
  · rfl
  · exact absurd hstop (hno key)

end Ends

namespace Visit

/-- **A visit refuses a key**: it is one of fields in a container, and one of the fields has the
key, which cannot be spelled. -/
inductive Refuses : Visit → Value → Prop
  | field {fs : List (FieldKey × Schema)} {v : Value} {path : String} {f : FieldKey × Schema} :
      v.isContainer = true → f ∈ fs → ¬ f.1.key.IsLegible →
      Refuses ⟨.fields fs, v, path⟩ f.1.key

/-- **A visit stops at a key**: it leads to one that refuses the key. -/
def Stops (a : Visit) (key : Value) : Prop :=
  ∃ t b, a.Reaches t b ∧ b.Refuses key

/-- A visit stops at a key that it refuses, or that a visit one step below stops at. -/
theorem stops_iff {a : Visit} {key : Value} :
    a.Stops key ↔ a.Refuses key ∨ ∃ i b, a.Step i b ∧ b.Stops key := by
  constructor
  · rintro ⟨t, c, hc, hkey⟩
    obtain ⟨rfl, rfl⟩ | ⟨i, b, u, rfl, hab, hb⟩ := reaches_iff.1 hc
    · exact .inl hkey
    · exact .inr ⟨i, b, hab, u, c, hb, hkey⟩
  · rintro (hkey | ⟨i, b, hab, u, c, hc, hkey⟩)
    · exact ⟨[], a, .start, hkey⟩
    · exact ⟨i :: u, c, hc.cons hab, hkey⟩

variable {v : Value} {path : String} {key : Value}

/-- A type expression looks nothing up. -/
theorem not_stops_leaf (e : TypeExpr) : ¬ Stops ⟨.leaf e, v, path⟩ key := by
  rw [stops_iff]
  rintro (h | ⟨_, _, h, -⟩) <;> cases h

/-- What meets no container does not stop. -/
theorem not_stops_of_not_container {s : Schema} (hv : v.isContainer = false) :
    ¬ Stops ⟨s, v, path⟩ key := by
  rw [stops_iff]
  rintro (h | ⟨_, _, h, -⟩)
  · cases h with
    | field hyes => exact absurd hyes (ne_true_of_eq_false hv)
  · cases h with
    | field hyes => exact absurd hyes (ne_true_of_eq_false hv)
    | element hv' => exact absurd (Value.isContainer_of_pairs hv') (ne_true_of_eq_false hv)

/-- Below a collection with siblings nothing stops. -/
theorem not_stops_crowded {siblings : List String} {item : Schema} (hne : siblings ≠ []) :
    ¬ Stops ⟨.collection siblings item, v, path⟩ key := by
  rw [stops_iff]
  rintro (h | ⟨_, _, h, -⟩)
  · cases h
  · cases h with
    | element _ _ => exact absurd rfl hne

/-- A collection stops where one of the elements does. -/
theorem stops_collection_iff {item : Schema} {pairs : List (Value × Value)}
    (hv : v.pairs? = some pairs) :
    Stops ⟨.collection [] item, v, path⟩ key
      ↔ ∃ q ∈ pairs, Stops ⟨item, q.2, joinPath path wildcard⟩ key := by
  rw [stops_iff]
  constructor
  · rintro (h | ⟨i, _, h, hstop⟩)
    · cases h
    · cases h with
      | element hv' hi =>
        cases hv.symm.trans hv'
        exact ⟨_, List.mem_of_getElem? hi, hstop⟩
  · rintro ⟨q, hq, hstop⟩
    obtain ⟨i, hi⟩ := List.getElem?_of_mem hq
    exact .inr ⟨i, _, .element hv hi, hstop⟩

/-- Fields stop at a key of their own, or where one of the fields leads to a visit that does. -/
theorem stops_fields_iff {fs : List (FieldKey × Schema)} (hv : v.isContainer = true) :
    Stops ⟨.fields fs, v, path⟩ key
      ↔ ∃ f ∈ fs, ¬ f.1.key.IsLegible ∧ key = f.1.key
          ∨ ∃ x, v.field? f.1.key = some x ∧ Stops ⟨f.2, x, joinPath path f.1.name⟩ key := by
  rw [stops_iff]
  constructor
  · rintro (h | ⟨i, _, h, hstop⟩)
    · cases h with
      | field _ hf hkey => exact ⟨_, hf, .inl ⟨hkey, rfl⟩⟩
    · cases h with
      | field _ hi hx => exact ⟨_, List.mem_of_getElem? hi, .inr ⟨_, hx, hstop⟩⟩
  · rintro ⟨f, hf, ⟨hkey, rfl⟩ | ⟨x, hx, hstop⟩⟩
    · exact .inl (.field hv hf hkey)
    · obtain ⟨i, hi⟩ := List.getElem?_of_mem hf
      exact .inr ⟨i, _, .field hv hi hx, hstop⟩

end Visit

namespace Schema

/-- What matching does with one field in a container. -/
def fieldFinding (v : Value) (path : String) (f : FieldKey × Schema) :
    Except NumeralFault (List Finding) := do
  match ← v.lookup f.1.key with
  | some x => f.2.findings x (joinPath path f.1.name)
  | none => return if f.1.optional then [] else [.absentKey (joinPath path f.1.name)]

/-- The fields are matched one after the other. -/
theorem fieldFindings_eq_mapM (fs : List (FieldKey × Schema)) (v : Value) (path : String) :
    fieldFindings fs v path = List.flatten <$> fs.mapM (fieldFinding v path) := by
  induction fs with
  | nil => rfl
  | cons f fs ih =>
    have hfield : fieldFindings (f :: fs) v path = (do
        let here ← fieldFinding v path f
        return here ++ (← fieldFindings fs v path)) := by
      rw [fieldFindings]
      unfold fieldFinding
      cases v.lookup f.1.key with
      | error fault => rfl
      | ok found => cases found <;> rfl
    rw [hfield, ih, List.mapM_cons]
    cases fieldFinding v path f with
    | error fault => rfl
    | ok here => cases fs.mapM (fieldFinding v path) <;> rfl

/-- One field stops at its own key, or where the visit that it leads to stops. -/
theorem ends_fieldFinding {v : Value} {path : String} {f : FieldKey × Schema}
    (h : ∀ x, Ends (f.2.findings x (joinPath path f.1.name))
      (f.2.disagreements x (joinPath path f.1.name))
      (Visit.Stops ⟨f.2, x, joinPath path f.1.name⟩)) :
    Ends (fieldFinding v path f) (fieldDisagreement v path f) fun key =>
      ¬ f.1.key.IsLegible ∧ key = f.1.key
        ∨ ∃ x, v.field? f.1.key = some x ∧
            Visit.Stops ⟨f.2, x, joinPath path f.1.name⟩ key := by
  -- The key is spelled before anything is looked up, so what the container holds matters only for a
  -- legible key.
  by_cases hkey : f.1.key.IsLegible
  · rw [fieldFinding, Value.lookup_eq hkey, fieldDisagreement]
    cases v.field? f.1.key with
    | none => exact .ok fun key hstop => by simp [hkey] at hstop
    | some x =>
      obtain ⟨hok, hno⟩ | ⟨key, hstop, herr⟩ := h x
      · refine .inl ⟨hok, fun key hstop => ?_⟩
        obtain ⟨hnot, -⟩ | ⟨_, ⟨⟩, hstop⟩ := hstop
        · exact hnot hkey
        · exact hno key hstop
      · exact .inr ⟨key, .inr ⟨x, rfl, hstop⟩, herr⟩
  · refine .inr ⟨f.1.key, .inl ⟨hkey, rfl⟩, ?_⟩
    rw [fieldFinding, Value.lookup_eq_error hkey]
    rfl

/-- **Matching ends in one of two ways**: it finds the disagreements and reaches no key that cannot
be spelled, or it reaches one and is refused for it. -/
theorem ends_findings (s : Schema) (v : Value) (path : String) :
    Ends (s.findings v path) (s.disagreements v path) (Visit.Stops ⟨s, v, path⟩) := by
  induction s generalizing v path with
  | leaf e =>
    rw [findings, disagreements]
    exact .ok fun key => Visit.not_stops_leaf e
  | collection siblings item ih =>
    rw [findings, disagreements]
    cases hv : v.pairs? with
    | none =>
      exact .ok fun key => Visit.not_stops_of_not_container (Value.not_isContainer_of_pairs hv)
    | some pairs =>
      cases siblings with
      | cons name names => exact .ok fun key => Visit.not_stops_crowded (List.cons_ne_nil _ _)
      | nil =>
        -- What can stop the collection is what can stop one of its items, and this is the form in
        -- which `Ends.mapM` gives it.
        have hstops : Visit.Stops ⟨.collection [] item, v, path⟩ = fun key =>
            ∃ q ∈ pairs, Visit.Stops ⟨item, q.2, joinPath path wildcard⟩ key := by
          funext key
          exact propext (Visit.stops_collection_iff hv)
        rw [hstops]
        exact (Ends.mapM fun q _ => ih q.2 (joinPath path wildcard)).map List.flatten
  | fields fs ih =>
    rw [findings, disagreements]
    cases hv : v.isContainer with
    | false => exact .ok fun key => Visit.not_stops_of_not_container hv
    | true =>
      have hstops : Visit.Stops ⟨.fields fs, v, path⟩ = fun key => ∃ f ∈ fs,
          ¬ f.1.key.IsLegible ∧ key = f.1.key
            ∨ ∃ x, v.field? f.1.key = some x ∧
                Visit.Stops ⟨f.2, x, joinPath path f.1.name⟩ key := by
        funext key
        exact propext (Visit.stops_fields_iff hv)
      rw [hstops, if_pos rfl, if_pos rfl, fieldFindings_eq_mapM, fieldDisagreements_eq_flatMap,
        List.flatMap_def]
      exact (Ends.mapM fun f hf => ends_fieldFinding fun x => ih f hf x _).map List.flatten

/-! ## The keys of a schema

What a visit stops at is a key of its own node, and the nodes that are reached are parts of the
schema that the match began with. -/

/-- **Whether a property holds of every key of a schema**, at any level. -/
def AllKeys (P : Value → Prop) : Schema → Prop
  | .leaf _ => True
  | .collection _ item => item.AllKeys P
  | .fields fs => ∀ f ∈ fs, P f.1.key ∧ f.2.AllKeys P
termination_by s => sizeOf s
decreasing_by
  · rw [Schema.collection.sizeOf_spec]
    omega
  · have hlt := List.sizeOf_lt_of_mem ‹f ∈ fs›
    rw [Prod.mk.sizeOf_spec] at hlt
    rw [Schema.fields.sizeOf_spec]
    omega

variable {P : Value → Prop}

/-- What holds of every key of a schema holds of those of every part that is reached. -/
theorem allKeys_of_reaches {a b : Visit} {t : Trail} (h : a.Reaches t b)
    (ha : a.node.AllKeys P) : b.node.AllKeys P := by
  induction h with
  | start => exact ha
  | step _ hs ih =>
    cases hs with
    | field _ hi _ =>
      rw [AllKeys] at ih
      exact (ih _ (List.mem_of_getElem? hi)).2
    | element _ _ =>
      rw [AllKeys] at ih
      exact ih

/-- A key that matching stops at is one of the schema's, and one that cannot be spelled. -/
theorem of_stops {a : Visit} {key : Value} (h : a.Stops key) (ha : a.node.AllKeys P) :
    P key ∧ ¬ key.IsLegible := by
  obtain ⟨t, b, hb, hkey⟩ := h
  have hall := allKeys_of_reaches hb ha
  cases hkey with
  | field _ hf hnot =>
    rw [AllKeys] at hall
    exact ⟨(hall _ hf).1, hnot⟩

/-- **A schema whose keys can be spelled stops nowhere.** -/
theorem not_stops {a : Visit} (h : a.node.AllKeys Value.IsLegible) (key : Value) :
    ¬ a.Stops key := by
  intro hstop
  obtain ⟨hyes, hnot⟩ := of_stops hstop h
  exact hnot hyes

/-- **Matching a schema whose keys can be spelled** finds the disagreements. -/
theorem findings_eq_ok {s : Schema} (h : s.AllKeys Value.IsLegible) (v : Value) (path : String) :
    s.findings v path = .ok (s.disagreements v path) :=
  (ends_findings s v path).eq_ok (not_stops h)

end Schema

end TreeSchema
