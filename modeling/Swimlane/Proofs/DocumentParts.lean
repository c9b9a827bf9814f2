import Mathlib.Data.List.Nodup
import Mathlib.Data.List.TakeWhile
import Swimlane.Bpmn.Document
import Swimlane.Proofs.Assoc
import Swimlane.Proofs.Except
import Swimlane.Proofs.Textual
import Swimlane.Proofs.XmlTree

/-!
# What a document consists of

A document that could be written has all its parts: a layout, an element for every state, a
sequence flow for every edge, and a shape or a line for each of them.  Every later statement about
documents starts from the parts, and not from the steps that made them.

## Key results

- `elementIdsFrom_eq_ok`: the elements of states
- `flows_eq_ok`: the sequence flows of a graph, one for every edge
- `element_eq_ok`: the element of a state
- `parts_of_definitions`: the parts of a document
- `speaks_root`: the tags and the attributes in a document
-/

namespace Swimlane.Bpmn

/-! ## Elements -/

/-- Elements stand under the ids of their states, and no two of them have the same id. -/
theorem elementIdsFrom_eq_ok {used : List String} {states : List State}
    {pairs : List (String × String)} (h : elementIdsFrom used states = .ok pairs) :
    states.map (·.id) = pairs.map (fun p => .str p.1) ∧
    (∀ p ∈ pairs, ∃ kind, p.2 = elementId kind p.1) ∧
    (pairs.map (·.2)).Nodup ∧ ∀ id ∈ pairs.map (·.2), id ∉ used := by
  induction states generalizing used pairs with
  | nil => cases h; simp
  | cons s rest ih =>
    rw [elementIdsFrom] at h
    obtain ⟨kind, _, h⟩ := Except.bind_eq_ok.mp h
    obtain ⟨key, hkey, h⟩ := Except.bind_eq_ok.mp h
    have hid : s.id = .str key := by
      have hkey := Except.mapError_eq_ok.mp hkey
      cases hs : s.id <;> rw [hs] at hkey <;> cases hkey
      rfl
    by_cases hused : elementId kind key ∈ used
    · simp only [hused, ↓reduceIte] at h; cases h
    · simp only [hused, ↓reduceIte] at h
      obtain ⟨more, hmore, h⟩ := Except.bind_eq_ok.mp h
      cases h
      -- The element of the first state is taken for the rest.
      obtain ⟨hids, hkinds, hnodup, hfree⟩ := ih hmore
      refine ⟨by simp [hid, hids], ?_, ?_, ?_⟩
      · intro p hp
        rcases List.mem_cons.mp hp with rfl | hp
        · exact ⟨kind, rfl⟩
        · exact hkinds p hp
      · rw [List.map_cons, List.nodup_cons]
        exact ⟨fun hmem => hfree _ hmem List.mem_cons_self, hnodup⟩
      · intro id hmem
        rcases List.mem_cons.mp hmem with rfl | hmem
        · exact hused
        · exact fun hu => hfree id hmem (List.mem_cons_of_mem _ hu)

/-- The states of a graph have elements of their own. -/
structure Distinct (g : Graph) (ids : List (String × String)) : Prop where
  states : g.nodes.map (·.id) = ids.map fun p => .str p.1
  keys : (ids.map (·.1)).Nodup
  elements : (startEventId :: ids.map (·.2)).Nodup
  kinds : ∀ p ∈ ids, ∃ kind, p.2 = elementId kind p.1

/-- States have elements of their own if they have ids of their own. -/
theorem distinct_of_elementIds {g : Graph} {ids : List (String × String)}
    (h : elementIds g = .ok ids) (hn : (g.nodes.map (·.id)).Nodup) : Distinct g ids := by
  obtain ⟨pairs, hpairs, h⟩ := Except.bind_eq_ok.mp h
  cases h
  obtain ⟨hstates, hkinds, hnodup, hfree⟩ := elementIdsFrom_eq_ok hpairs
  have hkeys : (pairs.map (·.1)).Nodup := by
    have hmap : g.nodes.map (·.id) = (pairs.map (·.1)).map Json.str := by
      rw [hstates, List.map_map]
      rfl
    rw [hmap] at hn
    exact List.Nodup.of_map _ hn
  rw [Assoc.ofPairs_eq_self hkeys]
  refine ⟨hstates, hkeys, List.nodup_cons.mpr ⟨fun hmem => ?_, hnodup⟩, hkinds⟩
  exact hfree _ hmem List.mem_cons_self

namespace Distinct

variable {g : Graph} {ids : List (String × String)}

/-- The element of a state is found by the id of the state. -/
theorem idOf_key (h : Distinct g ids) {p : String × String} (hp : p ∈ ids) :
    idOf ids (.str p.1) = p.2 := by
  have hget : Assoc.get? p.1 ids = some p.2 := Assoc.get?_of_mem h.keys hp
  simp [idOf, Json.display, hget]

theorem map_idOf (h : Distinct g ids) :
    g.nodes.map (fun s => idOf ids s.id) = ids.map (·.2) := by
  have hmap : g.nodes.map (fun s => idOf ids s.id) = (g.nodes.map (·.id)).map (idOf ids) := by
    rw [List.map_map]
    rfl
  rw [hmap, h.states, List.map_map]
  exact List.map_congr_left fun p hp => h.idOf_key hp

/-- The start event and the states have different elements. -/
theorem nodup_elements (h : Distinct g ids) :
    (startEventId :: g.nodes.map fun s => idOf ids s.id).Nodup := by
  rw [h.map_idOf]
  exact h.elements

end Distinct

/-! ## Sequence flows -/

/-- The sequence flow of an edge to an element, with the given number. -/
def Edge.flow (ids : List (String × String)) (e : Edge) (number : Nat) : SequenceFlow :=
  { id := s!"Flow_{number}"
    source := e.source
    target := idOf ids e.target
    name := if e.isDefault then "Otherwise" else (e.condition.map Json.display).getD ""
    condition := e.condition.map fun c => conditionExpression c.display
    isDefault := e.isDefault }

/-- A value that can be searched is a text. -/
theorem asSearchable_eq_ok {v : Json} {s : String} (h : v.asSearchable = .ok s) : v = .str s := by
  cases v <;> cases h
  rfl

/-- The target of an edge is an element. -/
theorem targetOf_eq_ok {ids : List (String × String)} {e : Edge} {id : String}
    (h : targetOf ids e = .ok id) : ∃ key, e.target = .str key ∧ Assoc.get? key ids = some id := by
  rw [targetOf] at h
  cases ht : e.target with
  | str key =>
    simp only [ht, Json.isName, Json.asId?, Bool.not_true, Bool.false_eq_true, ↓reduceIte,
      Option.bind_some] at h
    cases hget : Assoc.get? key ids with
    | none => simp only [hget] at h; cases h
    | some found => simp only [hget] at h; cases h; exact ⟨key, rfl, hget⟩
  | _ =>
    simp only [ht, Json.isName, Json.asId?, Bool.not_true, Bool.not_false, Bool.false_eq_true,
      ↓reduceIte, Option.bind_none] at h
    cases h

/-- What becomes of an edge to an element. -/
theorem ofEdge_eq_ok {ids : List (String × String)} {number : Nat} {e : Edge} {f : SequenceFlow}
    (h : SequenceFlow.ofEdge ids number e = .ok f) : f = e.flow ids number := by
  rw [SequenceFlow.ofEdge] at h
  obtain ⟨condition, hcondition, h⟩ := Except.bind_eq_ok.mp h
  obtain ⟨target, htarget, h⟩ := Except.bind_eq_ok.mp h
  obtain ⟨key, hkey, hget⟩ := targetOf_eq_ok htarget
  have hto : idOf ids e.target = target := by
    rw [hkey]
    simp [idOf, Json.display, hget]
  cases h
  cases hc : e.condition with
  | none =>
    rw [hc] at hcondition
    cases hcondition
    simp [Edge.flow, hc, hto]
  | some c =>
    rw [hc] at hcondition
    obtain ⟨s, hs, hsome⟩ := Except.bind_eq_ok.mp (Except.mapError_eq_ok.mp hcondition)
    cases hsome
    rw [asSearchable_eq_ok hs] at hc
    simp [Edge.flow, hc, hto, Json.display]

/-- Sequence flows are numbered one after the other. -/
theorem flowsFrom_eq_ok {ids : List (String × String)} {number : Nat} {edges : List Edge}
    {flows : List SequenceFlow} (h : flowsFrom ids number edges = .ok flows) :
    flows = (edges.zipIdx number).map fun p => p.1.flow ids p.2 := by
  induction edges generalizing number flows with
  | nil => cases h; rfl
  | cons e rest ih =>
    rw [flowsFrom] at h
    obtain ⟨f, hf, h⟩ := Except.bind_eq_ok.mp h
    obtain ⟨more, hmore, h⟩ := Except.bind_eq_ok.mp h
    cases h
    rw [List.zipIdx_cons, List.map_cons, ofEdge_eq_ok hf, ih hmore]

/-- The sequence flows of a graph are those of its edges, all of which can be listed. -/
theorem flows_eq_ok {g : Graph} {ids : List (String × String)} {fs : List SequenceFlow}
    (h : flows g ids = .ok fs) :
    fs = ((⟨startEventId, g.start, none, false⟩ :: edgesFrom ids g.nodes).zipIdx 1).map
      fun p => p.1.flow ids p.2 := by
  obtain ⟨all, hall, h⟩ := Except.bind_eq_ok.mp h
  cases hm : g.edgeMisfit? with
  | some misfit => simp only [hm] at h; cases h
  | none =>
    simp only [hm] at h
    cases h
    have hnone : ∀ s ∈ g.nodes, s.edgeMisfit?.isNone = true := fun s hs => by
      rw [List.findSome?_eq_none_iff.mp hm s hs]
      rfl
    rw [flowsFrom_eq_ok hall, edges, List.takeWhile_eq_self_iff.mpr hnone]

/-! ## Lanes -/

/-- The elements in a lane. -/
def members (layout : Diagram.Layout) (ids : List (String × String)) (lane : Diagram.Lane) :
    List String :=
  (if (Assoc.get? Diagram.startNode layout.nodes).map (·.lane) = some lane.id then [startEventId]
    else []) ++ lane.stateIds.map (idOf ids)

/-- A lane refers to the elements in it. -/
theorem laneSet_eq (layout : Diagram.Layout) (ids : List (String × String)) :
    laneSet layout ids = .block "bpmn:laneSet" [("id", "LaneSet_1")] (layout.bands.map fun band =>
      .block "bpmn:lane" [("id", band.lane.id), ("name", band.lane.name)]
        ((members layout ids band.lane).map nodeRef)) := by
  have hlane : ∀ band : Diagram.Band,
      ((if (Assoc.get? Diagram.startNode layout.nodes).map (·.lane) = some band.lane.id then
          [nodeRef startEventId] else []) ++
        band.lane.stateIds.map fun id => nodeRef (idOf ids id)) =
          (members layout ids band.lane).map nodeRef := by
    intro band
    unfold members
    split <;> simp
  simp only [laneSet, hlane]

/-! ## The element of a state -/

/-- The attribute for the flow that an element takes if no other condition holds. -/
def defaultAttribute (flows : List SequenceFlow) (id : String) : List (String × String) :=
  match defaultFlow? flows id with
  | some flow => [("default", flow)]
  | none => []

/-- The mark of an end event. -/
def terminator (s : State) : List Xml :=
  if s.isStop then [.leaf "bpmn:terminateEventDefinition" []] else []

/-- The element of a state has a tag by its label, and holds what its body says. -/
theorem element_eq_ok {ids : List (String × String)} {flows : List SequenceFlow} {s : State}
    {x : Xml} (h : element ids flows s = .ok x) :
    ∃ kind name body, labelledKind s = .ok kind ∧ nameAttribute (elementName s) = .ok name ∧
      elementBody s = .ok body ∧
      x = .block (tagOf kind)
        ([("id", idOf ids s.id)] ++ name ++ defaultAttribute flows (idOf ids s.id))
        (body ++ incoming flows (idOf ids s.id) ++ outgoing flows (idOf ids s.id) ++
          terminator s) := by
  obtain ⟨kind, hkind, h⟩ := Except.bind_eq_ok.mp h
  obtain ⟨name, hname, h⟩ := Except.bind_eq_ok.mp h
  obtain ⟨body, hbody, h⟩ := Except.bind_eq_ok.mp h
  cases h
  exact ⟨kind, name, body, hkind, hname, hbody, rfl⟩

section Texts

variable {α : Type} (query : Xml → List α)

@[simp] theorem collect_incoming (flows : List SequenceFlow) (id : String) :
    (incoming flows id).flatMap (Xml.collect query) = (incoming flows id).flatMap query := by
  simp [incoming, List.flatMap_map]

@[simp] theorem collect_outgoing (flows : List SequenceFlow) (id : String) :
    (outgoing flows id).flatMap (Xml.collect query) = (outgoing flows id).flatMap query := by
  simp [outgoing, List.flatMap_map]

@[simp] theorem collect_terminator (s : State) :
    (terminator s).flatMap (Xml.collect query) = (terminator s).flatMap query := by
  unfold terminator
  split <;> simp

end Texts

theorem tag_of_element {ids : List (String × String)} {flows : List SequenceFlow} {s : State}
    {x : Xml} (h : element ids flows s = .ok x) : ∃ kind, x.tag = tagOf kind := by
  obtain ⟨kind, _, _, _, _, _, rfl⟩ := element_eq_ok h
  exact ⟨kind, rfl⟩

theorem id_of_element {ids : List (String × String)} {flows : List SequenceFlow} {s : State}
    {x : Xml} (h : element ids flows s = .ok x) : x.attribute? "id" = some (idOf ids s.id) := by
  obtain ⟨_, _, _, _, _, _, rfl⟩ := element_eq_ok h
  simp [Xml.attribute?, Assoc.get?]

theorem tag_flowElement (f : SequenceFlow) : (flowElement f).tag = "bpmn:sequenceFlow" := by
  rw [flowElement]
  split <;> rfl

/-! ## Documents -/

/-- The parts of a document. -/
structure Parts where
  layout : Diagram.Layout
  ids : List (String × String)
  flows : List SequenceFlow
  forms : List Xml
  elements : List Xml
  pool : Xml
  bands : List Xml
  shapes : List Xml
  lines : List Xml

/-- The parts belong to the document of a graph. -/
structure Parts.Of (p : Parts) (g : Graph) (settings : Settings) : Prop where
  layout : Diagram.layout g settings.geometry settings.defaultLane = .ok p.layout
  ids : elementIds g = .ok p.ids
  flows : Bpmn.flows g p.ids = .ok p.flows
  forms : (g.nodes.filterMap (·.form?)).mapM (fun form => do formElement (← form)) = .ok p.forms
  elements : g.nodes.mapM (element p.ids p.flows) = .ok p.elements
  pool : horizontalShape "Participant_1" p.layout.pool = .ok p.pool
  bands : p.layout.bands.mapM (fun band => horizontalShape band.lane.id band.bounds) = .ok p.bands
  shapes : (placed p.layout p.ids).mapM nodeShape = .ok p.shapes
  lines : p.flows.mapM (flowLine (placed p.layout p.ids)) = .ok p.lines

namespace Parts

/-- The id of the process of a flow. -/
def processId (g : Graph) : String := "Process_" ++ flowSlug g.name

/-- The collaboration, with the pool of the process in it. -/
def collaboration (g : Graph) : Xml :=
  .block "bpmn:collaboration" [("id", "Collaboration_1")]
    [.leaf "bpmn:participant"
      [("id", "Participant_1"), ("name", g.name), ("processRef", processId g)]]

/-- The forms of the process, behind its version. -/
def formBlock (p : Parts) : Xml :=
  .block "bpmn:extensionElements" [] (.leaf "zeebe:versionTag" [("value", version)] :: p.forms)

/-- The process. -/
def process (p : Parts) (g : Graph) (settings : Settings) : Xml :=
  .block "bpmn:process"
    [("id", processId g), ("name", g.name),
      ("isExecutable", if settings.executable then "true" else "false")]
    ([p.formBlock, laneSet p.layout p.ids, startEvent p.flows] ++ p.elements ++
      p.flows.map flowElement)

/-- The plane of the diagram. -/
def plane (p : Parts) : Xml :=
  .block "bpmndi:BPMNPlane" [("id", "BPMNPlane_1"), ("bpmnElement", "Collaboration_1")]
    (p.pool :: p.bands ++ p.shapes ++ p.lines)

/-- The diagram. -/
def diagram (p : Parts) : Xml :=
  .block "bpmndi:BPMNDiagram" [("id", "BPMNDiagram_1")] [p.plane]

/-- The document that has the parts. -/
def root (p : Parts) (g : Graph) (settings : Settings) : Xml :=
  .block "bpmn:definitions" (definitionsAttributes (flowSlug g.name))
    [collaboration g, p.process g settings, p.diagram]

end Parts

/-- A document that could be made has all its parts. -/
theorem parts_of_definitions {g : Graph} {settings : Settings} {root : Xml}
    (h : definitions g settings = .ok root) :
    ∃ p : Parts, p.Of g settings ∧ root = p.root g settings := by
  obtain ⟨layout, hlayout, h⟩ := Except.bind_eq_ok.mp h
  obtain ⟨ids, hids, h⟩ := Except.bind_eq_ok.mp h
  obtain ⟨flows, hflows, h⟩ := Except.bind_eq_ok.mp h
  obtain ⟨process, hprocess, h⟩ := Except.bind_eq_ok.mp h
  obtain ⟨diagram, hdiagram, h⟩ := Except.bind_eq_ok.mp h
  cases h
  obtain ⟨formBlock, hblock, hprocess⟩ := Except.bind_eq_ok.mp (Except.mapError_eq_ok.mp hprocess)
  obtain ⟨elements, helements, hprocess⟩ := Except.bind_eq_ok.mp hprocess
  obtain ⟨forms, hforms, hblock⟩ := Except.bind_eq_ok.mp hblock
  obtain ⟨pool, hpool, hdiagram⟩ := Except.bind_eq_ok.mp (Except.mapError_eq_ok.mp hdiagram)
  obtain ⟨bands, hbands, hdiagram⟩ := Except.bind_eq_ok.mp hdiagram
  obtain ⟨shapes, hshapes, hdiagram⟩ := Except.bind_eq_ok.mp hdiagram
  obtain ⟨lines, hlines, hdiagram⟩ := Except.bind_eq_ok.mp hdiagram
  cases hblock
  cases hprocess
  cases hdiagram
  exact ⟨⟨layout, ids, flows, forms, elements, pool, bands, shapes, lines⟩,
    ⟨hlayout, hids, hflows, hforms, helements, hpool, hbands, hshapes, hlines⟩, rfl⟩

/-- A query goes through the parts of a document in their order. -/
theorem Parts.collect_root {α : Type} (query : Xml → List α) (p : Parts) (g : Graph)
    (settings : Settings) : (p.root g settings).collect query =
      query (p.root g settings) ++ ((collaboration g).collect query ++
        (query (p.process g settings) ++ (p.formBlock.collect query ++
          ((laneSet p.layout p.ids).collect query ++ ((startEvent p.flows).collect query ++
            (p.elements.flatMap (Xml.collect query) ++
              p.flows.flatMap fun f => (flowElement f).collect query)))) ++
          (query p.diagram ++ (query p.plane ++
            (p.pool :: p.bands ++ p.shapes ++ p.lines).flatMap (Xml.collect query))))) := by
  simp [root, process, diagram, plane, List.flatMap_map]

/-! ## Tags and attributes -/

/-- The tags around the parts of a document. -/
def frameWords : Xml.Vocabulary :=
  [("bpmn:definitions", (definitionsAttributes "").map (·.1)), ("bpmn:collaboration", ["id"]),
    ("bpmn:participant", ["id", "name", "processRef"]),
    ("bpmn:process", ["id", "name", "isExecutable"]), ("bpmndi:BPMNDiagram", ["id"]),
    ("bpmndi:BPMNPlane", ["id", "bpmnElement"])]

/-- The tags of the forms of a process. -/
def formWords : Xml.Vocabulary :=
  [("bpmn:extensionElements", []), ("zeebe:versionTag", ["value"]), ("zeebe:userTaskForm", ["id"])]

/-- The tags of lanes. -/
def laneWords : Xml.Vocabulary :=
  [("bpmn:laneSet", ["id"]), ("bpmn:lane", ["id", "name"]), ("bpmn:flowNodeRef", [])]

/-- The tags in what the body of a state says. -/
def bodyWords : Xml.Vocabulary :=
  [("bpmn:extensionElements", []), ("bpmn:documentation", []), ("zeebe:taskDefinition", ["type"]),
    ("zeebe:assignmentDefinition", ["assignee"]), ("zeebe:formDefinition", ["formKey"])]

/-- The tags inside of elements. -/
def innerWords : Xml.Vocabulary :=
  [("bpmn:incoming", []), ("bpmn:outgoing", []), ("bpmn:terminateEventDefinition", [])] ++ bodyWords

/-- The tags of elements. -/
def nodeWords : Xml.Vocabulary :=
  [("bpmn:startEvent", ["id", "name"]), ("bpmn:userTask", ["id", "name", "default"]),
    ("bpmn:serviceTask", ["id", "name", "default"]),
    ("bpmn:exclusiveGateway", ["id", "name", "default"]),
    ("bpmn:sendTask", ["id", "name", "default"]), ("bpmn:endEvent", ["id", "name", "default"])] ++
  innerWords

/-- The tags of sequence flows. -/
def flowWords : Xml.Vocabulary :=
  [("bpmn:sequenceFlow", ["id", "sourceRef", "targetRef", "name"]),
    ("bpmn:conditionExpression", ["xsi:type"])]

/-- The tags of shapes and lines. -/
def drawingWords : Xml.Vocabulary :=
  [("bpmndi:BPMNShape", ["id", "bpmnElement", "isHorizontal", "isMarkerVisible"]),
    ("dc:Bounds", ["x", "y", "width", "height"]), ("bpmndi:BPMNEdge", ["id", "bpmnElement"]),
    ("di:waypoint", ["x", "y"])]

/-- The vocabularies of the parts of documents. -/
def partWords : List Xml.Vocabulary :=
  [frameWords, formWords, laneWords, nodeWords, flowWords, drawingWords]

/-- The tags of documents. -/
def words : Xml.Vocabulary := partWords.flatten

theorem subset_words {part : Xml.Vocabulary} (h : part ∈ partWords) : part ⊆ words :=
  fun _ hw => List.mem_flatten_of_mem h hw

/-- Forms. -/
theorem speaks_form {form : Form} {x : Xml} (h : formElement form = .ok x) :
    x.Speaks formWords := by
  obtain ⟨id, _, h⟩ := Except.bind_eq_ok.mp h
  cases h
  exact Xml.speaks_text.mpr ⟨["id"], by simp [formWords], by simp⟩

theorem Parts.Of.speaks_formBlock {p : Parts} {g : Graph} {settings : Settings}
    (h : p.Of g settings) : p.formBlock.Speaks formWords := by
  refine Xml.speaks_block.mpr ⟨⟨[], by simp [formWords], by simp⟩, fun x hx => ?_⟩
  rcases List.mem_cons.mp hx with rfl | hx
  · exact Xml.speaks_leaf.mpr ⟨["value"], by simp [formWords], by simp⟩
  · obtain ⟨form, _, hform⟩ := Except.exists_of_mem_mapM h.forms hx
    obtain ⟨f, _, hf⟩ := Except.bind_eq_ok.mp hform
    exact speaks_form hf

/-- Lanes. -/
theorem speaks_laneSet (layout : Diagram.Layout) (ids : List (String × String)) :
    (laneSet layout ids).Speaks laneWords := by
  rw [laneSet_eq]
  refine Xml.speaks_block.mpr ⟨⟨["id"], by simp [laneWords], by simp⟩, fun lane hlane => ?_⟩
  obtain ⟨band, _, rfl⟩ := List.mem_map.mp hlane
  refine Xml.speaks_block.mpr ⟨⟨["id", "name"], by simp [laneWords], by simp⟩, fun x hx => ?_⟩
  obtain ⟨id, _, rfl⟩ := List.mem_map.mp hx
  exact Xml.speaks_text.mpr ⟨[], by simp [laneWords], by simp⟩

/-- What the body of a state says. -/
theorem speaks_body {s : State} {body : List Xml} (h : elementBody s = .ok body) :
    ∀ x ∈ body, x.Speaks bodyWords := by
  have hextension : ∀ children : List Xml, (∀ c ∈ children, c.Speaks bodyWords) →
      (extension children).Speaks bodyWords := fun children hc =>
    Xml.speaks_block.mpr ⟨⟨[], by simp [bodyWords], by simp⟩, hc⟩
  have htask : ∀ type, (taskDefinition type).Speaks bodyWords := fun type =>
    Xml.speaks_leaf.mpr ⟨["type"], by simp [bodyWords], by simp⟩
  rw [elementBody] at h
  split at h
  · obtain ⟨channel, _, h⟩ := Except.bind_eq_ok.mp h
    cases h
    intro x hx
    rcases List.mem_cons.mp hx with rfl | hx
    · exact Xml.speaks_text.mpr ⟨[], by simp [bodyWords], by simp⟩
    · rw [List.mem_singleton.mp hx]
      exact hextension _ fun c hc => by rw [List.mem_singleton.mp hc]; exact htask _
  · cases h
    intro x hx
    rw [List.mem_singleton.mp hx]
    exact hextension _ fun c hc => by rw [List.mem_singleton.mp hc]; exact htask _
  · obtain ⟨assigned, hassigned, h⟩ := Except.bind_eq_ok.mp h
    obtain ⟨formed, hformed, h⟩ := Except.bind_eq_ok.mp h
    -- Who is assigned, and which form is to be filled in.
    have hassign : ∀ c ∈ assigned, c.Speaks bodyWords := by
      rw [assignment] at hassigned
      split at hassigned
      · obtain ⟨name, _, hassigned⟩ := Except.bind_eq_ok.mp hassigned
        cases hassigned
        intro c hc
        rw [List.mem_singleton.mp hc]
        exact Xml.speaks_leaf.mpr ⟨["assignee"], by simp [bodyWords], by simp⟩
      · cases hassigned
        exact fun _ hc => nomatch hc
    have hform : ∀ c ∈ formed, c.Speaks bodyWords := by
      rw [formDefinition.eq_def] at hformed
      split at hformed
      · cases hformed
        exact fun _ hc => nomatch hc
      · obtain ⟨f, _, hformed⟩ := Except.bind_eq_ok.mp hformed
        obtain ⟨id, _, hformed⟩ := Except.bind_eq_ok.mp hformed
        cases hformed
        intro c hc
        rw [List.mem_singleton.mp hc]
        exact Xml.speaks_leaf.mpr ⟨["formKey"], by simp [bodyWords], by simp⟩
    split at h
    · cases h
      exact fun _ hc => nomatch hc
    · cases h
      intro x hx
      rw [List.mem_singleton.mp hx]
      refine hextension _ fun c hc => ?_
      rcases List.mem_append.mp hc with hc | hc
      · exact hassign c hc
      · exact hform c hc
  · cases h
    exact fun _ hc => nomatch hc

/-- References to sequence flows. -/
theorem speaks_incoming (flows : List SequenceFlow) (id : String) :
    ∀ x ∈ incoming flows id, x.Speaks innerWords := by
  intro x hx
  obtain ⟨f, _, rfl⟩ := List.mem_map.mp hx
  exact Xml.speaks_text.mpr ⟨[], by simp [innerWords], by simp⟩

theorem speaks_outgoing (flows : List SequenceFlow) (id : String) :
    ∀ x ∈ outgoing flows id, x.Speaks innerWords := by
  intro x hx
  obtain ⟨f, _, rfl⟩ := List.mem_map.mp hx
  exact Xml.speaks_text.mpr ⟨[], by simp [innerWords], by simp⟩

theorem innerWords_subset : innerWords ⊆ nodeWords := List.subset_append_right _ _

theorem speaks_startEvent (flows : List SequenceFlow) : (startEvent flows).Speaks nodeWords := by
  refine Xml.speaks_block.mpr ⟨⟨["id", "name"], by simp [nodeWords], by simp⟩, fun c hc => ?_⟩
  exact (speaks_outgoing flows startEventId c hc).mono innerWords_subset

theorem speaks_inner (flows : List SequenceFlow) {s : State} {body : List Xml}
    (hbody : elementBody s = .ok body) (id : String) :
    ∀ c ∈ body ++ incoming flows id ++ outgoing flows id ++ terminator s, c.Speaks innerWords := by
  intro c hc
  simp only [List.mem_append] at hc
  rcases hc with ((hc | hc) | hc) | hc
  · exact (speaks_body hbody c hc).mono (List.subset_append_right _ _)
  · exact speaks_incoming flows id c hc
  · exact speaks_outgoing flows id c hc
  · unfold terminator at hc
    split at hc
    · rw [List.mem_singleton.mp hc]
      exact Xml.speaks_leaf.mpr ⟨[], by simp [innerWords], by simp⟩
    · cases hc

/-- The attribute for a name is a name, if there is one. -/
theorem nameAttribute_eq_ok {name : Json} {attributes : List (String × String)}
    (h : nameAttribute name = .ok attributes) :
    (name.isGiven = false ∧ attributes = []) ∨
      ∃ text, name = .str text ∧ name.isGiven = true ∧ attributes = [("name", text)] := by
  rw [nameAttribute] at h
  split at h
  · rename_i hgiven
    obtain ⟨text, htext, h⟩ := Except.bind_eq_ok.mp h
    cases h
    right
    refine ⟨text, ?_, hgiven, rfl⟩
    cases name <;> cases htext
    rfl
  · rename_i hgiven
    cases h
    exact Or.inl ⟨Bool.eq_false_iff.mpr hgiven, rfl⟩

/-- Elements. -/
theorem speaks_element {ids : List (String × String)} {flows : List SequenceFlow} {s : State}
    {x : Xml} (h : element ids flows s = .ok x) : x.Speaks nodeWords := by
  obtain ⟨kind, name, body, _, hname, hbody, rfl⟩ := element_eq_ok h
  have htag : (tagOf kind, ["id", "name", "default"]) ∈ nodeWords := by
    cases kind <;> simp [tagOf, nodeWords]
  have hattributes : ((([("id", idOf ids s.id)] ++ name) ++
      defaultAttribute flows (idOf ids s.id)).map (·.1)).Sublist ["id", "name", "default"] := by
    have hn : (name.map (·.1)).Sublist ["name"] := by
      rcases nameAttribute_eq_ok hname with ⟨_, rfl⟩ | ⟨_, _, _, rfl⟩ <;> simp
    have hd : ((defaultAttribute flows (idOf ids s.id)).map (·.1)).Sublist ["default"] := by
      rw [defaultAttribute]
      split <;> simp
    simp only [List.map_append]
    exact ((List.Sublist.refl ["id"]).append hn).append hd
  refine Xml.speaks_block.mpr ⟨⟨_, htag, hattributes⟩, fun c hc => ?_⟩
  exact (speaks_inner flows hbody _ c hc).mono innerWords_subset

/-- Sequence flows. -/
theorem speaks_flowElement (f : SequenceFlow) : (flowElement f).Speaks flowWords := by
  have hattributes : (([("id", f.id), ("sourceRef", f.source), ("targetRef", f.target)] ++
      (if f.name = "" then [] else [("name", f.name)])).map (·.1)).Sublist
        ["id", "sourceRef", "targetRef", "name"] := by
    split <;> simp
  rw [flowElement]
  split
  · exact Xml.speaks_leaf.mpr ⟨_, by simp [flowWords], hattributes⟩
  · refine Xml.speaks_block.mpr ⟨⟨_, by simp [flowWords], hattributes⟩, fun c hc => ?_⟩
    rw [List.mem_singleton.mp hc]
    exact Xml.speaks_text.mpr ⟨["xsi:type"], by simp [flowWords], by simp⟩

/-- The shape of an element, around its rectangle. -/
theorem shape_eq_ok {id : String} {attributes : List (String × String)} {b : Diagram.Bounds}
    {x : Xml} (h : shape id attributes b = .ok x) : ∃ x' y width height : String,
      x = .block "bpmndi:BPMNShape" ([("id", id ++ "_di"), ("bpmnElement", id)] ++ attributes)
        [.leaf "dc:Bounds" [("x", x'), ("y", y), ("width", width), ("height", height)]] := by
  obtain ⟨bounds, hbounds, h⟩ := Except.bind_eq_ok.mp h
  obtain ⟨x', _, hbounds⟩ := Except.bind_eq_ok.mp hbounds
  obtain ⟨y, _, hbounds⟩ := Except.bind_eq_ok.mp hbounds
  obtain ⟨width, _, hbounds⟩ := Except.bind_eq_ok.mp hbounds
  obtain ⟨height, _, hbounds⟩ := Except.bind_eq_ok.mp hbounds
  cases hbounds
  cases h
  exact ⟨x', y, width, height, rfl⟩

/-- The line of a sequence flow, with its points. -/
theorem flowLine_eq_ok {nodes : List (String × Diagram.Node)} {f : SequenceFlow} {x : Xml}
    (h : flowLine nodes f = .ok x) : ∃ points : List (String × String),
      x = .block "bpmndi:BPMNEdge" [("id", f.id ++ "_di"), ("bpmnElement", f.id)]
        (points.map fun p => .leaf "di:waypoint" [("x", p.1), ("y", p.2)]) := by
  obtain ⟨waypoints, hwaypoints, h⟩ := Except.bind_eq_ok.mp h
  have hpoints : ∃ points : List (String × String),
      waypoints = points.map fun p => .leaf "di:waypoint" [("x", p.1), ("y", p.2)] := by
    generalize flowRoute nodes f = route at hwaypoints
    clear h
    induction route generalizing waypoints with
    | nil => cases hwaypoints; exact ⟨[], rfl⟩
    | cons p rest ih =>
      rw [List.mapM_cons] at hwaypoints
      obtain ⟨first, hfirst, hwaypoints⟩ := Except.bind_eq_ok.mp hwaypoints
      obtain ⟨more, hmore, hwaypoints⟩ := Except.bind_eq_ok.mp hwaypoints
      obtain ⟨px, _, hfirst⟩ := Except.bind_eq_ok.mp hfirst
      obtain ⟨py, _, hfirst⟩ := Except.bind_eq_ok.mp hfirst
      obtain ⟨points, rfl⟩ := ih more hmore
      cases hfirst
      cases hwaypoints
      exact ⟨(px, py) :: points, rfl⟩
  obtain ⟨points, rfl⟩ := hpoints
  cases h
  exact ⟨points, rfl⟩

/-- Shapes and lines. -/
theorem speaks_shape {id : String} {attributes : List (String × String)} {b : Diagram.Bounds}
    (hn : (attributes.map (·.1)).Sublist ["isHorizontal", "isMarkerVisible"]) {x : Xml}
    (h : shape id attributes b = .ok x) : x.Speaks drawingWords := by
  obtain ⟨x', y, width, height, rfl⟩ := shape_eq_ok h
  have hattributes : (([("id", id ++ "_di"), ("bpmnElement", id)] ++ attributes).map (·.1)).Sublist
      ["id", "bpmnElement", "isHorizontal", "isMarkerVisible"] := by
    rw [List.map_append]
    exact (List.Sublist.refl ["id", "bpmnElement"]).append hn
  refine Xml.speaks_block.mpr ⟨⟨_, by simp [drawingWords], hattributes⟩, fun c hc => ?_⟩
  rw [List.mem_singleton.mp hc]
  exact Xml.speaks_leaf.mpr ⟨["x", "y", "width", "height"], by simp [drawingWords], by simp⟩

theorem speaks_nodeShape {node : String × Diagram.Node} {x : Xml} (h : nodeShape node = .ok x) :
    x.Speaks drawingWords := by
  refine speaks_shape ?_ h
  split <;> simp

theorem speaks_flowLine {nodes : List (String × Diagram.Node)} {f : SequenceFlow} {x : Xml}
    (h : flowLine nodes f = .ok x) : x.Speaks drawingWords := by
  obtain ⟨points, rfl⟩ := flowLine_eq_ok h
  refine Xml.speaks_block.mpr ⟨⟨["id", "bpmnElement"], by simp [drawingWords], by simp⟩,
    fun c hc => ?_⟩
  obtain ⟨p, _, rfl⟩ := List.mem_map.mp hc
  exact Xml.speaks_leaf.mpr ⟨["x", "y"], by simp [drawingWords], by simp⟩

/-- All parts of the diagram of a document keep to the words of drawings. -/
theorem Parts.Of.speaks_drawing {p : Parts} {g : Graph} {settings : Settings}
    (h : p.Of g settings) : ∀ x ∈ p.pool :: p.bands ++ p.shapes ++ p.lines,
      x.Speaks drawingWords := by
  intro x hx
  rcases List.mem_append.mp hx with hx | hx
  · rcases List.mem_append.mp hx with hx | hx
    · rcases List.mem_cons.mp hx with rfl | hx
      · exact speaks_shape (by simp) h.pool
      · obtain ⟨band, _, hband⟩ := Except.exists_of_mem_mapM h.bands hx
        exact speaks_shape (by simp) hband
    · obtain ⟨node, _, hnode⟩ := Except.exists_of_mem_mapM h.shapes hx
      exact speaks_nodeShape hnode
  · obtain ⟨f, _, hf⟩ := Except.exists_of_mem_mapM h.lines hx
    exact speaks_flowLine hf

/-- The attributes of the root do not depend on the name of the flow. -/
theorem definitionsAttributes_names (slug : String) :
    (definitionsAttributes slug).map (·.1) = (definitionsAttributes "").map (·.1) := by
  simp [definitionsAttributes]

/-- The frames of a document keep to the words of frames. -/
theorem Parts.has_frameWords (p : Parts) (g : Graph) (settings : Settings) :
    ∀ e ∈ [p.root g settings, collaboration g, .leaf "bpmn:participant"
        [("id", "Participant_1"), ("name", g.name), ("processRef", processId g)],
      p.process g settings, p.diagram, p.plane], frameWords.Has e.tag e.attributes := by
  simp only [List.forall_mem_cons, List.not_mem_nil, false_implies, implies_true, and_true]
  refine ⟨⟨(definitionsAttributes "").map (·.1), ?_, ?_⟩, ⟨["id"], ?_, ?_⟩,
    ⟨["id", "name", "processRef"], ?_, ?_⟩, ⟨["id", "name", "isExecutable"], ?_, ?_⟩,
    ⟨["id"], ?_, ?_⟩, ⟨["id", "bpmnElement"], ?_, ?_⟩⟩
  case refine_2 => rw [Parts.root, Xml.attributes_block, definitionsAttributes_names]
  all_goals simp [Parts.root, collaboration, Parts.process, Parts.diagram, Parts.plane, frameWords]

/-- A document has no other tags and attributes than those of its vocabulary, whatever texts the
    graph holds. -/
theorem Parts.Of.speaks_root {p : Parts} {g : Graph} {settings : Settings} (h : p.Of g settings) :
    (p.root g settings).Speaks words := by
  have hframes := fun e he =>
    (p.has_frameWords g settings e he).mono (subset_words (by simp [partWords]))
  simp only [List.forall_mem_cons, List.not_mem_nil, false_implies, implies_true, and_true]
    at hframes
  obtain ⟨hroot, houter, hparticipant, hinner, hdrawing, hplane⟩ := hframes
  have hcollaboration : (Parts.collaboration g).Speaks words := by
    refine Xml.speaks_block.mpr ⟨houter, ?_⟩
    intro c hc
    rw [List.mem_singleton.mp hc]
    exact Xml.speaks_leaf.mpr hparticipant
  have hprocess : (p.process g settings).Speaks words := by
    refine Xml.speaks_block.mpr ⟨hinner, ?_⟩
    intro c hc
    simp only [List.mem_append, List.mem_cons, List.not_mem_nil, or_false] at hc
    rcases hc with ((rfl | rfl | rfl) | hc) | hc
    · exact h.speaks_formBlock.mono (subset_words (by simp [partWords]))
    · exact (speaks_laneSet _ _).mono (subset_words (by simp [partWords]))
    · exact (speaks_startEvent _).mono (subset_words (by simp [partWords]))
    · obtain ⟨s, _, hs⟩ := Except.exists_of_mem_mapM h.elements hc
      exact (speaks_element hs).mono (subset_words (by simp [partWords]))
    · obtain ⟨f, _, rfl⟩ := List.mem_map.mp hc
      exact (speaks_flowElement f).mono (subset_words (by simp [partWords]))
  have hdiagram : p.diagram.Speaks words := by
    refine Xml.speaks_block.mpr ⟨hdrawing, ?_⟩
    intro c hc
    rw [List.mem_singleton.mp hc]
    refine Xml.speaks_block.mpr ⟨hplane, ?_⟩
    exact fun c hc => (h.speaks_drawing c hc).mono (subset_words (by simp [partWords]))
  refine Xml.speaks_block.mpr ⟨hroot, ?_⟩
  intro c hc
  simp only [List.mem_cons, List.not_mem_nil, or_false] at hc
  rcases hc with rfl | rfl | rfl
  · exact hcollaboration
  · exact hprocess
  · exact hdiagram

/-! ## Queries that ask for some parts only -/

section Silent

variable {α : Type} {query : Xml → List α} {p : Parts} {g : Graph} {settings : Settings}

theorem Parts.Of.collect_elements_eq_nil (h : p.Of g settings) (hq : nodeWords.Silent query) :
    p.elements.flatMap (Xml.collect query) = [] := by
  rw [List.flatMap_eq_nil_iff]
  intro x hx
  obtain ⟨s, _, hs⟩ := Except.exists_of_mem_mapM h.elements hx
  exact Xml.collect_eq_nil (speaks_element hs) hq

theorem Parts.collect_flows_eq_nil (p : Parts) (hq : flowWords.Silent query) :
    (p.flows.flatMap fun f => (flowElement f).collect query) = [] := by
  rw [List.flatMap_eq_nil_iff]
  intro f _
  exact Xml.collect_eq_nil (speaks_flowElement f) hq

theorem Parts.Of.collect_drawing_eq_nil (h : p.Of g settings) (hq : drawingWords.Silent query) :
    (p.pool :: p.bands ++ p.shapes ++ p.lines).flatMap (Xml.collect query) = [] := by
  rw [List.flatMap_eq_nil_iff]
  intro x hx
  exact Xml.collect_eq_nil (h.speaks_drawing x hx) hq

/-- A query that finds nothing in the frames of a document goes through the parts inside of them. -/
theorem Parts.collect_root_inside (p : Parts) (g : Graph) (settings : Settings)
    (hq : frameWords.Silent query) : (p.root g settings).collect query =
      p.formBlock.collect query ++ ((laneSet p.layout p.ids).collect query ++
        ((startEvent p.flows).collect query ++ (p.elements.flatMap (Xml.collect query) ++
          ((p.flows.flatMap fun f => (flowElement f).collect query) ++
            (p.pool :: p.bands ++ p.shapes ++ p.lines).flatMap (Xml.collect query))))) := by
  have hframes := fun e he => hq e (p.has_frameWords g settings e he)
  simp only [List.forall_mem_cons, List.not_mem_nil, false_implies, implies_true, and_true]
    at hframes
  obtain ⟨hroot, hself, hchild, hprocess, hdiagram, hplane⟩ := hframes
  have hcollaboration : (collaboration g).collect query = [] := by
    unfold collaboration at hself ⊢
    simp [hself, hchild]
  rw [Parts.collect_root, hroot, hprocess, hcollaboration, hdiagram, hplane]
  simp

end Silent

end Swimlane.Bpmn
