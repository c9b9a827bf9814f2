import Swimlane.Proofs.Simulation
import Swimlane.Proofs.Validity

/-!
# The graph of a story

The states that a story gives rise to, with the end state where one is needed, make up a
well-formed graph, and a walk through the graph runs like the statements of the story.

## Key results

- `walk_nodes`: a walk through the graph of a story runs like its nodes
- `wellFormed_graphOf`: the graph of a story is well formed
- `ofStatements_eq_ok`: which graph a list of statements is built into
- `exists_ofStatements`: plain statements behind a header can be built
- `validate_of_ofStatements`: the warnings of a graph are those of its validation
-/

namespace Swimlane.Story

/-- The state behind the last statement. -/
def endState (id : String) : State := State.make id (.stop (.str endReason)) .null

/-- Whether an end state is needed. -/
def needsEnd (endId : String) (states : List State) : Bool :=
  states.isEmpty || states.any fun s => s.targets.any (·.isText endId)

/-- The states with an end state if it is needed. -/
def closed (endId : String) (states : List State) : List State :=
  if needsEnd endId states then states ++ [endState endId] else states

/-- The states of named statements. -/
def statesOf (nodes : List Node) (used : List String) : List State :=
  closed (idFor used "end") (linkAll (idFor used "end") nodes)

/-- The states of a story are those of its named statements. -/
theorem states_eq (body : List Statement) :
    states body = do let (nodes, used) ← nameAll [] body; return statesOf nodes used := rfl

/-- An end state is needed if there is no state, or if one leads to it. -/
theorem needsEnd_iff {endId : String} {states : List State} :
    needsEnd endId states = true ↔ states = [] ∨ LeadsTo endId states := by
  simp only [needsEnd, Bool.or_eq_true, List.isEmpty_iff, List.any_eq_true, Json.isText_iff,
    LeadsTo, exists_eq_right]

/-! ## The ids of a story -/

/-- Every id that is given is an identifier. -/
theorem isIdentifier_idFor (used : List String) {label : String} (h : IsLabel label) :
    Text.IsIdentifier (idFor used label) := by
  obtain ⟨c, rest, hl, hc⟩ := h
  exact Text.isIdentifier_fresh (Text.isIdentifier_slug hl hc) used

/-- That all ids in use are identifiers is kept. -/
theorem namingInvariant_isIdentifier :
    NamingInvariant fun used => ∀ id ∈ used, Text.IsIdentifier id := by
  intro used label hl hu id hid
  rcases List.mem_append.mp hid with hid | hid
  · exact hu id hid
  · rw [List.mem_singleton.mp hid]; exact isIdentifier_idFor used hl

/-- What is known of the statements of a story once they are named: their nodes perform actions,
    and the ids in use, with the one for the end, are different identifiers. -/
structure Named (nodes : List Node) (used : List String) : Prop where
  performs : allPerform nodes
  ids : used = idsAll nodes
  nodup : (used ++ [idFor used "end"]).Nodup
  named : ∀ id ∈ used ++ [idFor used "end"], Text.IsIdentifier id

/-- The label of the end is a label. -/
theorem isLabel_end : IsLabel "end" := ⟨'e', ['n', 'd'], rfl, rfl⟩

/-- Naming the statements of a story does what it should. -/
theorem named_of_nameAll {body : List Statement} {nodes : List Node} {used : List String}
    (h : nameAll [] body = .ok (nodes, used)) : Named nodes used where
  performs := nameAll_performs body h
  ids := nameAll_ids body h
  nodup := namingInvariant_nodup used "end" isLabel_end (nameAll_nodup h)
  named := by
    refine namingInvariant_isIdentifier used "end" isLabel_end ?_
    exact nameAll_preserves namingInvariant_isIdentifier body h (fun _ hid => nomatch hid)

namespace Named

variable {nodes : List Node} {used : List String}

/-- The states of a story are linked among each other. -/
theorem linked (h : Named nodes used) :
    ∀ s ∈ statesOf nodes used, Linked (used ++ [idFor used "end"]) s := by
  intro s hs
  have hlink : ∀ s ∈ linkAll (idFor used "end") nodes, Linked (used ++ [idFor used "end"]) s := by
    refine linkAll_linked (by simp) nodes h.performs fun id hid => ?_
    rw [← h.ids] at hid
    exact List.mem_append_left _ hid
  rw [statesOf, closed] at hs
  split at hs
  · rcases List.mem_append.mp hs with hs | hs
    · exact hlink s hs
    · rw [List.mem_singleton.mp hs]; exact .stop _ _
  · exact hlink s hs

/-- The ids of the states are those in use, and the one for the end if it is needed. -/
theorem statesOf_ids (h : Named nodes used) : (statesOf nodes used).map (·.id.display) =
    used ++ if needsEnd (idFor used "end") (linkAll (idFor used "end") nodes)
      then [idFor used "end"] else [] := by
  have hlink : (linkAll (idFor used "end") nodes).map (·.id.display) = used := by
    rw [linkAll_display, h.ids]
  rw [statesOf, closed]
  split
  · rw [List.map_append, hlink]; rfl
  · rw [hlink, List.append_nil]

/-- The end state is there if a state leads to it. -/
theorem needsEnd_of_target {s : State} (hs : s ∈ statesOf nodes used)
    (ht : .str (idFor used "end") ∈ s.targets) :
    needsEnd (idFor used "end") (linkAll (idFor used "end") nodes) = true := by
  rw [statesOf, closed] at hs
  split at hs
  · assumption
  · exact needsEnd_iff.mpr (Or.inr ⟨s, hs, ht⟩)

/-- The story is entered at one of its states. -/
theorem entry_mem_ids (h : Named nodes used) :
    entry (idFor used "end") nodes ∈ (statesOf nodes used).map (·.id.display) := by
  rw [h.statesOf_ids]
  cases nodes with
  | nil =>
    -- Without statements the end is all there is.
    have hneeds : needsEnd (idFor used "end") (linkAll (idFor used "end") []) = true := rfl
    rw [if_pos hneeds]
    exact List.mem_append_right _ (List.mem_singleton.mpr rfl)
  | cons n rest =>
    refine List.mem_append_left _ ?_
    rw [h.ids]
    cases n <;> simp [entry, Node.id, idsAll, Node.ids]

/-- Every target of a state is the id of a state. -/
theorem target_mem_ids (h : Named nodes used) {s : State} (hs : s ∈ statesOf nodes used)
    {t : Json} (ht : t ∈ s.targets) :
    ∃ id ∈ (statesOf nodes used).map (·.id.display), t = .str id := by
  obtain ⟨id, hid, rfl⟩ := (h.linked s hs).targets t ht
  refine ⟨id, ?_, rfl⟩
  rw [h.statesOf_ids]
  rcases List.mem_append.mp hid with hid | hid
  · exact List.mem_append_left _ hid
  · rw [List.mem_singleton] at hid
    subst hid
    rw [if_pos (needsEnd_of_target hs ht)]
    exact List.mem_append_right _ (List.mem_singleton.mpr rfl)

/-- The states of a story have different ids, which are identifiers. -/
theorem ids_sublist (h : Named nodes used) :
    ((statesOf nodes used).map (·.id.display)).Sublist (used ++ [idFor used "end"]) := by
  rw [h.statesOf_ids]
  split
  · exact List.Sublist.refl _
  · rw [List.append_nil]; exact List.sublist_append_left _ _

/-- The states of a story are stored in a graph that has them by their ids. -/
theorem stores (h : Named nodes used) {g : Graph}
    (hg : g.states = (statesOf nodes used).map fun s => (s.id.display, s)) :
    g.Stores (statesOf nodes used) := by
  intro s hs
  refine ⟨s.id.display, (h.linked s hs).textual.id_eq, ?_⟩
  have hkeys : (g.states.map (·.1)).Nodup := by
    rw [hg, List.map_map]
    exact h.ids_sublist.nodup h.nodup
  refine Assoc.get?_of_mem hkeys ?_
  rw [hg]
  exact List.mem_map.mpr ⟨s, hs, rfl⟩

end Named

/-! ## The graph -/

/-- The graph of a story with the given warnings. -/
def graphOf (name : String) (nodes : List Node) (used warnings : List String) : Graph :=
  { Graph.ofStates name (statesOf nodes used) with warnings }

/-- A walk through the graph of a story starts where its first block is entered. -/
theorem start_graphOf (name : String) (nodes : List Node) (used warnings : List String) :
    (graphOf name nodes used warnings).start = .str (entry (idFor used "end") nodes) := by
  have hfirst : ∀ n rest, ∃ s more, linkAll (idFor used "end") (n :: rest) = s :: more ∧
      s.id = .str n.id := by
    intro n rest
    cases n <;> exact ⟨_, _, rfl, rfl⟩
  cases nodes with
  | nil => rfl
  | cons n rest =>
    obtain ⟨s, more, hs, hid⟩ := hfirst n rest
    simp only [graphOf, Graph.ofStates, statesOf, closed, hs]
    split
    · rename_i hnil
      split at hnil <;> cases hnil
    · -- With or without an end state behind it, the first state is the same.
      rename_i hcons
      split at hcons <;> (cases hcons; exact hid)

/-- The walk through the graph of a story runs like its nodes, and ends with the reason of the
    end state if they are left.  It takes no more states than there are. -/
theorem walk_nodes {nodes : List Node} {used : List String} (h : Named nodes used) (name : String)
    (warnings : List String) (holds : Valuation) :
    (graphOf name nodes used warnings).walk holds (graphOf name nodes used warnings).states.length
      [] (graphOf name nodes used warnings).start =
    some (match runNodes holds [] nodes with
      | .onward trace => ⟨trace, "End"⟩
      | .ended ending => ending) := by
  have hstores : (graphOf name nodes used warnings).Stores (statesOf nodes used) := h.stores rfl
  have hlen : (graphOf name nodes used warnings).states.length = (statesOf nodes used).length :=
    List.length_map _
  have hsize : (linkAll (idFor used "end") nodes).length = (idsAll nodes).length :=
    length_linkAll _ nodes
  rw [start_graphOf, hlen]
  rw [statesOf, closed] at hstores ⊢
  by_cases hneeds : needsEnd (idFor used "end") (linkAll (idFor used "end") nodes) = true
  · -- The end state is one more to count, and the walk comes to it if the nodes are left.
    rw [if_pos hneeds] at hstores ⊢
    rw [List.length_append, List.length_singleton, hsize]
    refine walk_linkAll nodes h.performs (hstores.sub fun s hs => by simp [hs]) ?_
    cases runNodes holds [] nodes with
    | ended ending => rfl
    | onward trace =>
      obtain ⟨id, hid, hfind⟩ := hstores (endState (idFor used "end")) (by simp)
      cases hid
      exact Graph.walk_ends 0 hfind rfl
  · rw [if_neg hneeds] at hstores ⊢
    rw [hsize, ← Nat.add_zero (idsAll nodes).length]
    refine walk_linkAll nodes h.performs hstores ?_
    cases hrun : runNodes holds [] nodes with
    | ended ending => rfl
    | onward trace =>
      -- A story that is left needs its end state.
      have hne : idFor used "end" ≠ "" := (h.named _ (by simp)).ne_empty
      refine absurd (needsEnd_iff.mpr ?_) hneeds
      rcases linkAll_falls hne nodes h.performs hrun with rfl | hleads
      · exact Or.inl rfl
      · exact Or.inr hleads

/-- The nodes of the graph of a story are its states. -/
theorem nodes_graphOf (name : String) (nodes : List Node) (used warnings : List String) :
    (graphOf name nodes used warnings).nodes = statesOf nodes used := by
  simp [Graph.nodes, graphOf, Graph.ofStates, Function.comp_def]

/-- The graph of a story is well formed. -/
theorem wellFormed_graphOf {nodes : List Node} {used : List String} (h : Named nodes used)
    (name : String) (warnings : List String) : (graphOf name nodes used warnings).WellFormed := by
  have hnodes := nodes_graphOf name nodes used warnings
  have hkeys : (graphOf name nodes used warnings).keys =
      (statesOf nodes used).map (·.id.display) := by
    simp [Graph.keys, graphOf, Graph.ofStates, Function.comp_def]
  exact {
    textual := fun s hs => (h.linked s (hnodes ▸ hs)).textual
    keyed := by
      intro p hp
      obtain ⟨s, hs, rfl⟩ := List.mem_map.mp hp
      exact (h.linked s hs).textual.id_eq
    nodup := by rw [hkeys]; exact h.ids_sublist.nodup h.nodup
    named := fun key hk => h.named key (h.ids_sublist.subset (hkeys ▸ hk))
    start := ⟨_, by rw [hkeys]; exact h.entry_mem_ids, start_graphOf ..⟩
    targets := by
      rw [hnodes, hkeys]
      exact fun s hs t ht => h.target_mem_ids hs ht
    leads := by
      intro s hs
      rw [hnodes] at hs
      exact (h.linked s hs).leadsOn fun id hid => (h.named id hid).ne_empty
    -- Some run ends: all of them do.
    ends := ⟨fun _ _ => false, _, _, walk_nodes h name warnings _⟩ }

/-! ## The statements of a story -/

/-- A list of statements is built into the graph of its named statements, with the warnings of
    the validation. -/
theorem ofStatements_eq_ok {statements : List Statement} {g : Graph}
    (h : Graph.ofStatements statements = .ok g) :
    ∃ source name body nodes used warnings, statements = .header source name :: body ∧
      nameAll [] body = .ok (nodes, used) ∧ g = graphOf name nodes used warnings ∧
      g.validate = .ok g.warnings := by
  cases statements with
  | nil => cases h
  | cons s body =>
    cases s with
    | header source name =>
      obtain ⟨states, hstates, hvalid⟩ := Except.bind_eq_ok.mp h
      obtain ⟨⟨nodes, used⟩, hname, hok⟩ := Except.bind_eq_ok.mp (Except.mapError_eq_ok.mp hstates)
      obtain ⟨warnings, hwarnings, hg⟩ := Except.bind_eq_ok.mp hvalid
      cases hok
      cases hg
      -- Validation does not look at the warnings, so it gives the same ones again.
      exact ⟨source, name, body, nodes, used, warnings, rfl, hname, rfl, hwarnings⟩
    | _ => cases h

/-- Plain statements behind a header can be built. -/
theorem exists_ofStatements (source : Source) (name : String) {body : List Statement}
    (hplain : allPlain body) : ∃ g, Graph.ofStatements (.header source name :: body) = .ok g := by
  obtain ⟨nodes, used, hname⟩ : ∃ nodes used, nameAll [] body = .ok (nodes, used) :=
    nameAll_plain body hplain
  obtain ⟨warnings, hvalid⟩ := (wellFormed_graphOf (named_of_nameAll hname) name []).validated
  refine ⟨graphOf name nodes used warnings, ?_⟩
  rw [Graph.ofStatements, states_eq, hname]
  exact hvalid

/-- The walk through the graph of a story runs like the statements. -/
theorem walk_of_ofStatements {statements : List Statement} {g : Graph}
    (h : Graph.ofStatements statements = .ok g) (holds : Valuation) :
    g.walk holds g.states.length [] g.start = some (meaning holds statements) := by
  obtain ⟨source, name, body, nodes, used, warnings, rfl, hname, rfl, _⟩ := ofStatements_eq_ok h
  rw [walk_nodes (named_of_nameAll hname), nameAll_run holds body hname]
  -- The header does nothing.
  rfl

/-- The graph of a story has the warnings that its validation gives. -/
theorem validate_of_ofStatements {statements : List Statement} {g : Graph}
    (h : Graph.ofStatements statements = .ok g) : g.validate = .ok g.warnings := by
  obtain ⟨_, _, _, _, _, _, _, _, _, hvalidate⟩ := ofStatements_eq_ok h
  exact hvalidate

/-- The graph of a story is well formed. -/
theorem wellFormed_of_ofStatements {statements : List Statement} {g : Graph}
    (h : Graph.ofStatements statements = .ok g) : g.WellFormed := by
  obtain ⟨_, name, _, _, _, warnings, _, hname, rfl, _⟩ := ofStatements_eq_ok h
  exact wellFormed_graphOf (named_of_nameAll hname) name warnings

end Swimlane.Story
