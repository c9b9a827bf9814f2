import Swimlane.Compiler
import Swimlane.Proofs.Drawing
import Swimlane.Proofs.InferredForms

/-!
# Well-formed graphs can be drawn

Every state of a well-formed graph has a lane, a column and a shape, no two states share an
element, and every edge leads to an element.  So a diagram is refused for one reason only: one of
its numbers has too many digits to be written.

## Key results

- `exists_layout_of_wellFormed`: a well-formed graph has a layout
- `elementIds_of_wellFormed`: its states have different elements
- `exists_flows`: its edges are sequence flows
- `exists_process`: its states are elements of a process
-/

namespace Swimlane.Diagram

/-! ## Layouts -/

/-- A text tells who acts in a state with texts. -/
theorem attributed_of_textual {s : State} (h : s.Textual) : s.Attributed := by
  cases h with
  | userTask id prompt assignee form next _ => exact ⟨assignee, rfl⟩
  | task id action next => exact ⟨action, rfl⟩
  | _ => exact trivial

/-- A well-formed graph has a layout. -/
theorem exists_layout_of_wellFormed {g : Graph} (h : g.WellFormed) (geometry : Geometry)
    (default : String) : ∃ l, layout g geometry default = .ok l := by
  obtain ⟨key, _, hstart⟩ := h.start
  obtain ⟨_, _, l, _, _, _, hl⟩ := exists_layout h.toKeyed (h.validate hstart)
    (fun s hs => attributed_of_textual (h.textual s hs)) geometry default
  exact ⟨l, hl⟩

end Swimlane.Diagram

namespace Swimlane.Bpmn

/-! ## Elements -/

/-- The ids of elements tell the ids of states. -/
theorem elementId_inj {kind kind' : Kind} {a b : String} (ha : Text.IsIdentifier a)
    (hb : Text.IsIdentifier b) (h : elementId kind a = elementId kind' b) : a = b := by
  rw [elementId, elementId, Text.xmlId_of_isIdentifier ha, Text.xmlId_of_isIdentifier hb] at h
  -- The first underscore stands behind the mark.
  have hbehind : ∀ (k : Kind) (s : String),
      ((markOf k ++ "_" ++ s).toList.dropWhile (· != '_')) = '_' :: s.toList := by
    intro k s
    have hmark : (markOf k).toList.all (· != '_') = true := by
      cases k <;> decide
    rw [String.toList_append, String.toList_append, List.append_assoc,
      List.dropWhile_append_of_pos (List.all_eq_true.mp hmark)]
    rfl
  have hdrop := hbehind kind a
  rw [h, hbehind kind' b] at hdrop
  exact String.toList_inj.mp (List.cons.inj hdrop).2.symm

/-- No state has the element of the start event. -/
theorem elementId_ne_startEventId (kind : Kind) (id : String) :
    elementId kind id ≠ startEventId := by
  intro h
  have hchars := congrArg String.toList h
  cases kind <;> simp [elementId, markOf, startEventId] at hchars

/-- The element of a state with texts. -/
def elementOf (s : State) : String × String :=
  (s.id.display, elementId s.body.kind s.id.display)

/-- The kind of a state with texts is told by its label. -/
theorem labelledKind_eq {s : State} (h : s.Textual) : labelledKind s = .ok s.body.kind := by
  rw [labelledKind, h.label_eq, Kind.ofLabel?_name]

/-- States with different identifiers have different elements. -/
theorem elementIdsFrom_eq {states : List State} (htextual : ∀ s ∈ states, s.Textual)
    (hnamed : ∀ s ∈ states, Text.IsIdentifier s.id.display)
    (hnodup : (states.map (·.id.display)).Nodup) {used : List String}
    (hused : ∀ s ∈ states, (elementOf s).2 ∉ used) :
    elementIdsFrom used states = .ok (states.map elementOf) := by
  induction states generalizing used with
  | nil => rfl
  | cons s rest ih =>
    have hs := htextual s List.mem_cons_self
    rw [List.map_cons, List.nodup_cons] at hnodup
    have hid : s.id.asSearchable = .ok s.id.display := by
      conv => lhs; rw [hs.id_eq]
      rfl
    -- The element of the first state is taken for the rest, none of which has its id.
    have hrest : ∀ t ∈ rest, (elementOf t).2 ∉ (elementOf s).2 :: used := by
      intro t ht hmem
      rcases List.mem_cons.mp hmem with heq | hmem
      · have hinj := elementId_inj (hnamed t (List.mem_cons_of_mem _ ht))
          (hnamed s List.mem_cons_self) heq
        exact hnodup.1 (List.mem_map.mpr ⟨t, ht, hinj⟩)
      · exact hused t (List.mem_cons_of_mem _ ht) hmem
    have hmore := ih (fun t ht => htextual t (List.mem_cons_of_mem _ ht))
      (fun t ht => hnamed t (List.mem_cons_of_mem _ ht)) hnodup.2 hrest
    have hfresh : elementId s.body.kind s.id.display ∉ used := hused s List.mem_cons_self
    simp only [elementIdsFrom, labelledKind_eq hs, hid, Except.mapError, bind, Except.bind, hfresh,
      ↓reduceIte]
    rw [show elementIdsFrom (elementId s.body.kind s.id.display :: used) rest = _ from hmore]
    rfl

/-- The elements of a well-formed graph stand under its keys. -/
theorem map_elementOf_fst {g : Graph} (h : g.WellFormed) :
    (g.nodes.map elementOf).map (·.1) = g.keys := by
  rw [List.map_map]
  exact h.map_display

/-- The elements of a well-formed graph, by the ids of its states. -/
theorem elementIds_of_wellFormed {g : Graph} (h : g.WellFormed) :
    elementIds g = .ok (g.nodes.map elementOf) := by
  have hnamed : ∀ s ∈ g.nodes, Text.IsIdentifier s.id.display := fun s hs =>
    h.named _ (h.display_mem_keys hs)
  have hstart : ∀ s ∈ g.nodes, (elementOf s).2 ∉ [startEventId] := fun s _ hmem =>
    elementId_ne_startEventId _ _ (List.mem_singleton.mp hmem)
  have hids := elementIdsFrom_eq h.textual hnamed (by rw [h.map_display]; exact h.nodup) hstart
  refine Except.bind_eq_ok.mpr ⟨_, hids, ?_⟩
  rw [Assoc.ofPairs_eq_self (by rw [map_elementOf_fst h]; exact h.nodup)]
  rfl

/-! ## Sequence flows -/

/-- An edge can become a sequence flow. -/
structure Edge.Leads (ids : List (String × String)) (e : Edge) : Prop where
  target : ∃ key, e.target = .str key ∧ key ∈ ids.map (·.1)
  condition : ∀ c ∈ e.condition, ∃ s, c = .str s

/-- An edge to an element is a sequence flow. -/
theorem Edge.Leads.exists_ofEdge {ids : List (String × String)} {e : Edge} (h : e.Leads ids)
    (number : Nat) : ∃ f, SequenceFlow.ofEdge ids number e = .ok f := by
  obtain ⟨key, htarget, hk⟩ := h.target
  obtain ⟨id, hid⟩ := Assoc.exists_get? hk
  have hto : targetOf ids e = .ok id := by
    simp only [targetOf, htarget, Json.isName, Json.asId?, Option.bind_some, hid, Bool.not_true,
      Bool.false_eq_true, ↓reduceIte]
  cases hc : e.condition with
  | none =>
    simp only [SequenceFlow.ofEdge, hc, hto, bind, Except.bind, Option.mapM_none]
    exact ⟨_, rfl⟩
  | some c =>
    obtain ⟨s, rfl⟩ := h.condition c hc
    simp only [SequenceFlow.ofEdge, hc, hto, bind, Except.bind]
    exact ⟨_, rfl⟩

/-- Edges to elements are sequence flows. -/
theorem exists_flowsFrom {ids : List (String × String)} {edges : List Edge}
    (h : ∀ e ∈ edges, e.Leads ids) (number : Nat) :
    ∃ flows, flowsFrom ids number edges = .ok flows := by
  induction edges generalizing number with
  | nil => exact ⟨[], rfl⟩
  | cons e rest ih =>
    obtain ⟨f, hf⟩ := (h e List.mem_cons_self).exists_ofEdge number
    obtain ⟨flows, hflows⟩ := ih (fun e' he => h e' (List.mem_cons_of_mem _ he)) (number + 1)
    exact ⟨_, Except.bind_eq_ok.mpr ⟨f, hf, Except.bind_eq_ok.mpr ⟨flows, hflows, rfl⟩⟩⟩

/-- The edges of a state with texts lead to its targets, under conditions that are texts. -/
theorem edge_of_mem_edgesOf {source : String} {s : State} (h : s.Textual) {e : Edge}
    (he : e ∈ edgesOf source s) : e.target ∈ s.targets ∧ ∀ c ∈ e.condition, ∃ t, c = .str t := by
  -- The edge of a `next` or of a last resort, which is there if it is given.
  have hnext : ∀ (v : Json) (b : Bool), e ∈ (if v.isGiven then [⟨source, v, none, b⟩] else []) →
      e.target ∈ (if v.isGiven then [v] else []) ∧ ∀ c ∈ e.condition, ∃ t, c = .str t := by
    intro v b hmem
    split at hmem
    · rename_i hgiven
      cases List.mem_singleton.mp hmem
      exact ⟨by rw [if_pos hgiven]; exact List.mem_singleton.mpr rfl, fun _ hc => nomatch hc⟩
    · cases hmem
  cases h with
  | stop => cases he
  | choice id exits otherwise =>
    rcases List.mem_append.mp he with he | he
    · obtain ⟨b, hb, rfl⟩ := List.mem_map.mp he
      refine ⟨List.mem_append_left _ (List.mem_map.mpr ⟨b, hb, rfl⟩), fun c hc => ?_⟩
      cases hc
      obtain ⟨exit, _, rfl⟩ := List.mem_map.mp hb
      exact ⟨_, rfl⟩
    · exact (hnext _ true he).imp_left (List.mem_append_right _)
  | _ => exact hnext _ false he

/-- The edges of a well-formed graph are sequence flows. -/
theorem exists_flows {g : Graph} (h : g.WellFormed) :
    ∃ flows, Bpmn.flows g (g.nodes.map elementOf) = .ok flows := by
  have hedges : ∀ e ∈ edges g (g.nodes.map elementOf), e.Leads (g.nodes.map elementOf) := by
    intro e he
    rcases List.mem_cons.mp he with rfl | he
    · -- The edge from the start event, which is no state.
      obtain ⟨key, hk, hstart⟩ := h.start
      exact ⟨⟨key, hstart, by rw [map_elementOf_fst h]; exact hk⟩, fun _ hc => nomatch hc⟩
    · obtain ⟨s, hs, he⟩ := List.mem_flatMap.mp he
      have hs := (List.takeWhile_sublist _).subset hs
      obtain ⟨htarget, hcondition⟩ := edge_of_mem_edgesOf (h.textual s hs) he
      obtain ⟨key, hk, hkey⟩ := h.targets s hs _ htarget
      exact ⟨⟨key, hkey, by rw [map_elementOf_fst h]; exact hk⟩, hcondition⟩
  obtain ⟨flows, hflows⟩ := exists_flowsFrom hedges 1
  have hmisfit : g.edgeMisfit? = none :=
    List.findSome?_eq_none_iff.mpr fun s hs => (h.textual s hs).edgeMisfit?
  simp only [Bpmn.flows, hflows, hmisfit, bind, Except.bind]
  exact ⟨flows, rfl⟩

/-! ## The process -/

/-- The form of a state with texts holds texts. -/
theorem form?_of_textual {s : State} (h : s.Textual) {form : Except Misfit Form}
    (hf : s.form? = some form) : ∃ f : Form, form = .ok f ∧ f.Textual := by
  cases h with
  | userTask id prompt assignee form' next htextual =>
    cases form' with
    | none => cases hf
    | some f => cases hf; exact ⟨f, rfl, htextual f rfl⟩
  | _ => cases hf

/-- A form with texts has an id. -/
theorem exists_formId {f : Form} (h : f.Textual) : ∃ id, formId f = .ok id := by
  obtain ⟨s, hs⟩ := h.id
  exact ⟨Text.xmlId s, by rw [formId, hs]; rfl⟩

/-- The forms of a well-formed graph are elements. -/
theorem exists_formElements {g : Graph} (h : g.WellFormed) :
    ∃ x, formElements g = .ok x := by
  have hforms : ∃ xs, (g.nodes.filterMap (·.form?)).mapM
      (fun form => do formElement (← form)) = .ok xs := by
    refine Except.exists_mapM_eq_ok fun form hmem => ?_
    obtain ⟨s, hs, hform⟩ := List.mem_filterMap.mp hmem
    obtain ⟨f, rfl, hf⟩ := form?_of_textual (h.textual s hs) hform
    obtain ⟨id, hid⟩ := exists_formId hf
    exact ⟨_, Except.bind_eq_ok.mpr ⟨f, rfl, Except.bind_eq_ok.mpr ⟨id, hid, rfl⟩⟩⟩
  obtain ⟨xs, hxs⟩ := hforms
  exact ⟨_, Except.bind_eq_ok.mpr ⟨xs, hxs, rfl⟩⟩

/-- The name of an element is a text. -/
theorem exists_nameAttribute {s : State} (h : s.Textual) :
    ∃ attributes, nameAttribute (elementName s) = .ok attributes := by
  have hstr : ∀ t : String, ∃ attributes, nameAttribute (.str t) = .ok attributes := by
    intro t
    rw [nameAttribute]
    split
    · exact ⟨_, rfl⟩
    · exact ⟨_, rfl⟩
  have hname : ∃ t, elementName s = .str t := by
    cases h with
    | choice id exits otherwise =>
      cases exits with
      | nil => exact ⟨_, rfl⟩
      | cons e rest => exact ⟨_, rfl⟩
    | stop id reason =>
      simp only [elementName, State.make]
      split <;> exact ⟨_, rfl⟩
    | _ => exact ⟨_, rfl⟩
  obtain ⟨t, ht⟩ := hname
  rw [ht]
  exact hstr t

/-- What stands in the element of a state with texts. -/
theorem exists_elementBody {s : State} (h : s.Textual) : ∃ xs, elementBody s = .ok xs := by
  cases h with
  | userTask id prompt assignee form next hform =>
    have hassign : ∃ xs, assignment (.str assignee) = .ok xs := by
      rw [assignment]
      split <;> exact ⟨_, rfl⟩
    have hdef : ∃ ys, formDefinition (form.map .ok) = .ok ys := by
      cases form with
      | none => exact ⟨[], rfl⟩
      | some f =>
        obtain ⟨id, hid⟩ := exists_formId (hform f rfl)
        exact ⟨_, Except.bind_eq_ok.mpr ⟨f, rfl, Except.bind_eq_ok.mpr ⟨id, hid, rfl⟩⟩⟩
    obtain ⟨xs, hxs⟩ := hassign
    obtain ⟨ys, hys⟩ := hdef
    simp only [elementBody, State.make, hxs, hys, bind, Except.bind]
    split <;> exact ⟨_, rfl⟩
  | _ => exact ⟨_, rfl⟩

/-- The states of a well-formed graph are elements of its process. -/
theorem exists_process {g : Graph} (h : g.WellFormed) (executable : Bool) (processId : String)
    (layout : Diagram.Layout) (ids : List (String × String)) (flows : List SequenceFlow) :
    ∃ x, process g executable processId layout ids flows = .ok x := by
  have helements : ∃ xs, g.nodes.mapM (element ids flows) = .ok xs := by
    refine Except.exists_mapM_eq_ok fun s hs => ?_
    obtain ⟨name, hname⟩ := exists_nameAttribute (h.textual s hs)
    obtain ⟨body, hbody⟩ := exists_elementBody (h.textual s hs)
    simp only [element, labelledKind_eq (h.textual s hs), hname, hbody, bind, Except.bind]
    exact ⟨_, rfl⟩
  obtain ⟨forms, hforms⟩ := exists_formElements h
  obtain ⟨elements, helements⟩ := helements
  exact ⟨_, Except.bind_eq_ok.mpr ⟨forms, hforms, Except.bind_eq_ok.mpr ⟨elements, helements, rfl⟩⟩⟩

end Swimlane.Bpmn
