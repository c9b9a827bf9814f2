import Swimlane.Proofs.DocumentIds

/-!
# References in documents

Elements of a document refer to each other by their ids: sequence flows to their ends, elements to
the flows at them, lanes to the elements in them, shapes and lines to what they show.  These
references are written by different walks over the lanes, the states and the flows.

## Key results

- `references_sources`: where references come from
- `members_perm`: every element is in one lane
- `document_linked`: references in documents lead to the elements that they should
-/

namespace Swimlane.Bpmn

/-! ## References -/

/-- What the elements with a tag may show in a diagram. -/
def shownRoles (tag : String) : List Role :=
  match roleOf tag with
  | .plane => [.collaboration]
  | .shape => [.participant, .lane, .node]
  | .line => [.flow]
  | _ => []

/-- The attributes that refer to other elements, and what these elements should be. -/
def attributeRoles (tag : String) : List (String × List Role) :=
  [("processRef", [.process]), ("sourceRef", [.node]), ("targetRef", [.node]),
    ("default", [.flow]), ("bpmnElement", shownRoles tag)]

/-- The tags of texts that refer to other elements, and what these elements should be. -/
def textRoles : List (String × List Role) :=
  [("bpmn:incoming", [.flow]), ("bpmn:outgoing", [.flow]), ("bpmn:flowNodeRef", [.node])]

/-- The ids that an element refers to, each behind what should have it. -/
def references (x : Xml) : List (List Role × String) :=
  ((attributeRoles x.tag).filterMap fun (name, roles) => (x.attribute? name).map (roles, ·)) ++
    (Assoc.get? x.tag textRoles).toList.map (·, x.content)

/-- The names of the attributes that refer to other elements. -/
def referenceNames : List String :=
  ["processRef", "sourceRef", "targetRef", "default", "bpmnElement"]

theorem references_eq_nil {x : Xml} (htext : x.tag ∉ textRoles.map (·.1))
    (hnames : ∀ name ∈ referenceNames, x.attribute? name = none) : references x = [] := by
  simp only [referenceNames, List.forall_mem_cons] at hnames
  simp [references, attributeRoles, hnames, Assoc.get?_eq_none htext]

theorem silent_references {words : Xml.Vocabulary}
    (hw : ∀ w ∈ words, w.1 ∉ textRoles.map (·.1) ∧ ∀ name ∈ referenceNames, name ∉ w.2) :
    words.Silent references := by
  intro e he
  apply references_eq_nil
  · obtain ⟨names, hmem, _⟩ := he
    exact (hw _ hmem).1
  · exact fun name hname => he.attribute? fun w hmem => (hw w hmem).2 name hname

section Document

variable {g : Graph} {settings : Settings} {ids : List (String × String)}
  {fs : List SequenceFlow} {p : Parts}

theorem references_incoming (id : String) : (incoming fs id).flatMap references =
    (fs.filter (·.target == id)).map fun f => ([.flow], f.id) := by
  have htext : Assoc.get? "bpmn:incoming" textRoles = some [.flow] := by decide
  rw [incoming, List.flatMap_map, List.map_eq_flatMap]
  refine List.flatMap_congr fun f _ => ?_
  simp [references, Xml.attribute?, Assoc.get?, htext]

theorem references_outgoing (id : String) : (outgoing fs id).flatMap references =
    (fs.filter (·.source == id)).map fun f => ([.flow], f.id) := by
  have htext : Assoc.get? "bpmn:outgoing" textRoles = some [.flow] := by decide
  rw [outgoing, List.flatMap_map, List.map_eq_flatMap]
  refine List.flatMap_congr fun f _ => ?_
  simp [references, Xml.attribute?, Assoc.get?, htext]

theorem collect_references_startEvent : (startEvent fs).collect references =
    (fs.filter (·.source == startEventId)).map fun f => ([.flow], f.id) := by
  have htext : Assoc.get? "bpmn:startEvent" textRoles = none := by decide
  rw [startEvent, Xml.collect_block, collect_outgoing, references_outgoing]
  simp [references, attributeRoles, Xml.attribute?, Assoc.get?, htext]

/-- The element of a state refers to sequence flows only. -/
theorem collect_references_element {s : State} {x : Xml} (h : element ids fs s = .ok x) :
    x.collect references =
      ((defaultFlow? fs (idOf ids s.id)).toList ++
        (fs.filter (·.target == idOf ids s.id)).map (·.id) ++
        (fs.filter (·.source == idOf ids s.id)).map (·.id)).map ([.flow], ·) := by
  obtain ⟨kind, name, body, _, hname, hbody, rfl⟩ := element_eq_ok h
  have htext : Assoc.get? (tagOf kind) textRoles = none := by cases kind <;> decide
  have hbodies := List.flatMap_eq_nil_iff.mpr fun c hc =>
    Xml.collect_eq_nil (speaks_body hbody c hc) (silent_references (by decide))
  have hmark : (terminator s).flatMap references = [] := by
    have hmarkText : Assoc.get? "bpmn:terminateEventDefinition" textRoles = none := by decide
    unfold terminator
    split <;> simp [references, Xml.attribute?, Assoc.get?, hmarkText]
  rw [Xml.collect_block]
  simp only [List.flatMap_append, hbodies, collect_incoming, collect_outgoing, collect_terminator,
    references_incoming, references_outgoing, hmark]
  unfold references attributeRoles defaultAttribute
  rcases nameAttribute_eq_ok hname with ⟨_, rfl⟩ | ⟨text, _, _, rfl⟩ <;>
    cases defaultFlow? fs (idOf ids s.id) <;>
    simp [Xml.attribute?, Assoc.get?, htext, Function.comp_def]

theorem collect_references_flowElement (f : SequenceFlow) :
    (flowElement f).collect references = [([.node], f.source), ([.node], f.target)] := by
  have htexts : Assoc.get? "bpmn:sequenceFlow" textRoles = none ∧
      Assoc.get? "bpmn:conditionExpression" textRoles = none := by decide
  unfold flowElement
  by_cases hname : f.name = "" <;> cases f.condition <;>
    simp [references, attributeRoles, Xml.attribute?, Assoc.get?, htexts, hname]

theorem collect_references_laneSet (layout : Diagram.Layout) :
    (laneSet layout ids).collect references =
      layout.bands.flatMap fun band => (members layout ids band.lane).map ([.node], ·) := by
  have htexts : Assoc.get? "bpmn:laneSet" textRoles = none ∧
      Assoc.get? "bpmn:lane" textRoles = none ∧
      Assoc.get? "bpmn:flowNodeRef" textRoles = some [.node] := by decide
  have href : ∀ refs : List String,
      (refs.map nodeRef).flatMap (Xml.collect references) = refs.map ([.node], ·) := by
    intro refs
    rw [List.flatMap_map, List.map_eq_flatMap]
    refine List.flatMap_congr fun id _ => ?_
    simp [nodeRef, references, Xml.attribute?, Assoc.get?, htexts]
  rw [laneSet_eq, Xml.collect_block, List.flatMap_map]
  simp only [Xml.collect_block, href]
  simp [references, attributeRoles, Xml.attribute?, Assoc.get?, htexts]

theorem collect_references_shape {id : String} {attributes : List (String × String)}
    (hnames : attributes.map (·.1) ⊆ ["isHorizontal", "isMarkerVisible"])
    {b : Diagram.Bounds} {x : Xml} (h : shape id attributes b = .ok x) :
    x.collect references = [([.participant, .lane, .node], id)] := by
  have htexts : Assoc.get? "bpmndi:BPMNShape" textRoles = none ∧
      Assoc.get? "dc:Bounds" textRoles = none := by decide
  have hroles : shownRoles "bpmndi:BPMNShape" = [.participant, .lane, .node] := by decide
  obtain ⟨x', y, width, height, rfl⟩ := shape_eq_ok h
  have hfar : ∀ name ∈ referenceNames, name ∉ ["isHorizontal", "isMarkerVisible"] := by decide
  have hnone : ∀ name ∈ referenceNames, Assoc.get? name attributes = none := fun name hname =>
    Assoc.get?_eq_none fun hmem => hfar name hname (hnames hmem)
  simp only [referenceNames, List.forall_mem_cons] at hnone
  simp [references, attributeRoles, Xml.attribute?, Assoc.get?, htexts, hroles, hnone]

theorem collect_references_flowLine {nodes : List (String × Diagram.Node)} {f : SequenceFlow}
    {x : Xml} (h : flowLine nodes f = .ok x) : x.collect references = [([.flow], f.id)] := by
  have htexts : Assoc.get? "bpmndi:BPMNEdge" textRoles = none ∧
      Assoc.get? "di:waypoint" textRoles = none := by decide
  have hroles : shownRoles "bpmndi:BPMNEdge" = [.flow] := by decide
  obtain ⟨points, rfl⟩ := flowLine_eq_ok h
  simp [List.flatMap_map, references, attributeRoles, Xml.attribute?, Assoc.get?, htexts, hroles]

/-! ## Lanes -/

/-- Every element is in one lane, the start event too. -/
theorem members_perm {layout : Diagram.Layout} (hl : Diagram.Drawn g layout)
    (ids : List (String × String)) :
    (layout.bands.flatMap fun band => members layout ids band.lane).Perm (nodeIds g ids) := by
  obtain ⟨n, hn, hlane⟩ := hl.start
  have hstart : (layout.bands.flatMap fun band =>
      if (Assoc.get? Diagram.startNode layout.nodes).map (·.lane) = some band.lane.id then
        [startEventId] else []) = [startEventId] := by
    simp only [hn, Option.map_some, Option.some.injEq]
    exact List.flatMap_ite_key hl.lanes hlane startEventId
  have hstates : (layout.bands.flatMap fun band => band.lane.stateIds.map (idOf ids)).Perm
      (g.nodes.map fun s => idOf ids s.id) := by
    have hmap := hl.members.map (idOf ids)
    rwa [List.map_flatMap, List.map_map] at hmap
  refine (List.flatMap_append_perm _ _ _).symm.trans ?_
  rw [hstart]
  exact List.Perm.cons _ hstates

/-- What the lanes of a document list. -/
theorem Parts.Of.collect_nodeRefs (h : p.Of g settings) :
    (p.root g settings).collect (refs "bpmn:flowNodeRef") = p.layout.bands.flatMap fun band =>
      (members p.layout p.ids band.lane).map (some band.lane.id, ·) := by
  have hincoming : ∀ id, ∀ c ∈ incoming p.flows id, c.tag ≠ "bpmn:flowNodeRef" := by
    intro id c hc
    obtain ⟨f, _, rfl⟩ := List.mem_map.mp hc
    simp
  have houtgoing : ∀ id, ∀ c ∈ outgoing p.flows id, c.tag ≠ "bpmn:flowNodeRef" := by
    intro id c hc
    obtain ⟨f, _, rfl⟩ := List.mem_map.mp hc
    simp
  have helements : p.elements.flatMap (Xml.collect (refs "bpmn:flowNodeRef")) = [] := by
    rw [List.flatMap_eq_nil_iff]
    intro x hx
    obtain ⟨s, _, hs⟩ := Except.exists_of_mem_mapM h.elements hx
    rw [collect_refs_element hs (by decide), tagged_eq_nil (hincoming _),
      tagged_eq_nil (houtgoing _), List.append_nil]
  have hlanes : (laneSet p.layout p.ids).collect (refs "bpmn:flowNodeRef") =
      p.layout.bands.flatMap fun band =>
        (members p.layout p.ids band.lane).map (some band.lane.id, ·) := by
    have hlane : ∀ id name, ∀ members : List String,
        (Xml.block "bpmn:lane" [("id", id), ("name", name)] (members.map nodeRef)).collect
          (refs "bpmn:flowNodeRef") = members.map (some id, ·) := by
      intro id name members
      have htags : ∀ c ∈ members.map nodeRef, c.tag = "bpmn:flowNodeRef" := by
        intro c hc
        obtain ⟨member, _, rfl⟩ := List.mem_map.mp hc
        rfl
      have hinside :
          (members.map nodeRef).flatMap (Xml.collect (refs "bpmn:flowNodeRef")) = [] := by
        rw [List.flatMap_eq_nil_iff]
        intro c hc
        obtain ⟨member, _, rfl⟩ := List.mem_map.mp hc
        rfl
      rw [Xml.collect_block, hinside, List.append_nil, refs, Xml.children_block,
        tagged_eq_map htags, List.map_map]
      simp [Function.comp_def, nodeRef, Xml.attribute?, Assoc.get?]
    rw [laneSet_eq, Xml.collect_block, List.flatMap_map]
    simp only [hlane]
    rw [refs, tagged_eq_nil, List.nil_append]
    intro c hc
    obtain ⟨band, _, rfl⟩ := List.mem_map.mp hc
    simp
  rw [h.collect_refs (by decide), collect_refs_startEvent, tagged_eq_nil (houtgoing _), helements,
    hlanes, List.append_nil, List.append_nil]

/-! ## Shapes and lines -/

/-- What an element shows, if it has the given role. -/
def shown (role : Role) (x : Xml) : List (Option String) :=
  if roleOf x.tag = role then [x.attribute? "bpmnElement"] else []

theorem silent_shown {role : Role} {words : Xml.Vocabulary}
    (hw : ∀ w ∈ words, roleOf w.1 ≠ role) : words.Silent (shown role) := by
  intro e he
  obtain ⟨names, hmem, _⟩ := he
  simp [shown, hw _ hmem]

/-- What is in no other part of a document is found in its diagram. -/
theorem Parts.Of.collect_diagram {α : Type} {query : Xml → List α} (h : p.Of g settings)
    (hsilent : ∀ words ∈ [frameWords, formWords, laneWords, nodeWords, flowWords],
      words.Silent query) : (p.root g settings).collect query =
      (p.pool :: p.bands ++ p.shapes ++ p.lines).flatMap (Xml.collect query) := by
  have hforms := Xml.collect_eq_nil h.speaks_formBlock (hsilent _ (by simp))
  have hlanes := Xml.collect_eq_nil (speaks_laneSet p.layout p.ids) (hsilent _ (by simp))
  have hstart := Xml.collect_eq_nil (speaks_startEvent p.flows) (hsilent _ (by simp))
  rw [Parts.collect_root_inside p g settings (hsilent _ (by simp)), hforms, hlanes, hstart,
    h.collect_elements_eq_nil (hsilent _ (by simp)), p.collect_flows_eq_nil (hsilent _ (by simp))]
  simp

/-- Shapes and lines are found nowhere but in the diagram. -/
theorem roleOf_ne_of_drawn : ∀ role ∈ [Role.shape, .line],
    ∀ words ∈ [frameWords, formWords, laneWords, nodeWords, flowWords],
      ∀ w ∈ words, roleOf w.1 ≠ role := by
  decide

/-- Only shapes and lines show elements, besides the plane that they are on. -/
theorem Parts.Of.collect_shown (h : p.Of g settings) {role : Role} (hr : role ∈ [.shape, .line]) :
    (p.root g settings).collect (shown role) =
      (p.pool :: p.bands ++ p.shapes ++ p.lines).flatMap (Xml.collect (shown role)) :=
  h.collect_diagram fun words hw => silent_shown (roleOf_ne_of_drawn role hr words hw)

theorem collect_shown_shape {id : String} {attributes : List (String × String)}
    {b : Diagram.Bounds} {x : Xml} (h : shape id attributes b = .ok x) :
    x.collect (shown .shape) = [some id] ∧ x.collect (shown .line) = [] := by
  have hroles : roleOf "bpmndi:BPMNShape" = .shape ∧ roleOf "dc:Bounds" = .other := by decide
  obtain ⟨x', y, width, height, rfl⟩ := shape_eq_ok h
  simp [shown, hroles, Xml.attribute?, Assoc.get?]

theorem collect_shown_flowLine {nodes : List (String × Diagram.Node)} {f : SequenceFlow}
    {x : Xml} (h : flowLine nodes f = .ok x) :
    x.collect (shown .shape) = [] ∧ x.collect (shown .line) = [some f.id] := by
  have hroles : roleOf "bpmndi:BPMNEdge" = .line ∧ roleOf "di:waypoint" = .other := by decide
  obtain ⟨points, rfl⟩ := flowLine_eq_ok h
  simp [List.flatMap_map, shown, hroles, Xml.attribute?, Assoc.get?]

/-- There is a shape for the participant, for every lane and for every element. -/
theorem Parts.Of.collect_shapes (h : p.Of g settings) :
    (p.root g settings).collect (shown .shape) = ("Participant_1" ::
      p.layout.bands.map (·.lane.id) ++ (placed p.layout p.ids).map (·.1)).map some := by
  have hbands := Except.flatMap_eq_of_mapM (q := Xml.collect (shown .shape))
    (fun band _ x hx => (collect_shown_shape hx).1) h.bands
  have hshapes := Except.flatMap_eq_of_mapM (q := Xml.collect (shown .shape))
    (fun node _ x hx => (collect_shown_shape hx).1) h.shapes
  have hlines : p.lines.flatMap (Xml.collect (shown .shape)) = [] := by
    rw [List.flatMap_eq_nil_iff]
    intro x hx
    obtain ⟨f, _, hf⟩ := Except.exists_of_mem_mapM h.lines hx
    exact (collect_shown_flowLine hf).1
  rw [← List.map_eq_flatMap] at hbands hshapes
  rw [h.collect_shown (by decide)]
  simp only [List.cons_append, List.flatMap_cons, List.flatMap_append, hbands, hshapes, hlines,
    (collect_shown_shape h.pool).1]
  simp [Function.comp_def]

/-- There is a line for every sequence flow. -/
theorem Parts.Of.collect_lines (h : p.Of g settings) :
    (p.root g settings).collect (shown .line) = p.flows.map fun f => some f.id := by
  have hbands : p.bands.flatMap (Xml.collect (shown .line)) = [] := by
    rw [List.flatMap_eq_nil_iff]
    intro x hx
    obtain ⟨band, _, hband⟩ := Except.exists_of_mem_mapM h.bands hx
    exact (collect_shown_shape hband).2
  have hshapes : p.shapes.flatMap (Xml.collect (shown .line)) = [] := by
    rw [List.flatMap_eq_nil_iff]
    intro x hx
    obtain ⟨node, _, hnode⟩ := Except.exists_of_mem_mapM h.shapes hx
    exact (collect_shown_shape hnode).2
  have hlines := Except.flatMap_eq_of_mapM (q := Xml.collect (shown .line))
    (fun f _ x hx => (collect_shown_flowLine hx).2) h.lines
  rw [← List.map_eq_flatMap] at hlines
  rw [h.collect_shown (by decide)]
  simp only [List.cons_append, List.flatMap_cons, List.flatMap_append, hbands, hshapes, hlines,
    (collect_shown_shape h.pool).2]
  simp

/-! ## Documents -/

/-- Whether elements belong to the model or carry the diagram. -/
def Role.isDeclared : Role → Bool
  | .form | .shape | .line | .other => false
  | _ => true

/-- The elements of a document that others may refer to. -/
def declarations (g : Graph) (layout : Diagram.Layout) (ids : List (String × String))
    (flows : List SequenceFlow) : List (Role × String) :=
  [(Role.definitions, "Definitions_" ++ flowSlug g.name), (Role.collaboration, "Collaboration_1"),
    (Role.participant, "Participant_1"), (Role.process, Parts.processId g),
    (Role.laneSet, "LaneSet_1")] ++
  (layout.bands.map fun band => (Role.lane, band.lane.id)) ++
  (nodeIds g ids).map (Role.node, ·) ++ (flows.map fun f => (Role.flow, f.id)) ++
  [(Role.diagram, "BPMNDiagram_1"), (Role.plane, "BPMNPlane_1")]

theorem Parts.Of.filter_identified (h : p.Of g settings) :
    ((p.root g settings).collect identified).filter (·.1.isDeclared) =
      declarations g p.layout p.ids p.flows := by
  have hforms : (p.forms.flatMap (Xml.collect identified)).filter (·.1.isDeclared) = [] := by
    have hrole : roleOf "zeebe:userTaskForm" = .form := by decide
    rw [List.filter_eq_nil_iff]
    intro d hd
    obtain ⟨x, hx, hd⟩ := List.mem_flatMap.mp hd
    obtain ⟨form, _, hform⟩ := Except.exists_of_mem_mapM h.forms hx
    obtain ⟨f, _, hform⟩ := Except.bind_eq_ok.mp hform
    obtain ⟨id, _, hform⟩ := Except.bind_eq_ok.mp hform
    cases hform
    have hd : d = (.form, id) := by
      simpa [identified, hrole, Xml.attribute?, Assoc.get?] using hd
    simp [hd, Role.isDeclared]
  rw [h.collect_identified]
  simp only [Parts.modelIds, List.filter_append, hforms]
  simp [Parts.diagramIds, declarations, List.filter_map, Function.comp_def, Role.isDeclared]

theorem declarations_nodes (layout : Diagram.Layout) (fs : List SequenceFlow) :
    ((declarations g layout ids fs).filter (·.1 = .node)).map (·.2) = nodeIds g ids := by
  simp [declarations, List.filter_map, Function.comp_def]

/-- The ids of declared elements differ from each other. -/
theorem nodup_declarations {layout : Diagram.Layout} (hd : Distinct g ids)
    (hl : Diagram.Drawn g layout) (hf : flows g ids = .ok fs) :
    ((declarations g layout ids fs).map (·.2)).Nodup := by
  have hp : IsFamily ["Participant"] ["Participant_1"] :=
    isFamily_singleton "1" (by decide) (by decide)
  have hs : IsFamily ["StartEvent"] ["StartEvent_1"] :=
    isFamily_singleton "1" (by decide) (by decide)
  have hforms : IsFamily ["form"] [] := ⟨List.nodup_nil, fun _ hid => nomatch hid⟩
  have hnodup := nodup_idGroups (flowSlug g.name) hp (isFamily_lanes hl) hs hd.isFamily
    (isFamily_flows hf) hforms
  have hnodes : nodeIds g ids = startEventId :: ids.map (·.2) := by rw [nodeIds, hd.map_idOf]
  simpa [idGroups, declarations, hnodes, Parts.processId, startEventId, Function.comp_def]
    using hnodup

/-- A reference leads to a declared element that is what it should be. -/
def Resolves (names : List (Role × String)) (r : List Role × String) : Prop :=
  ∃ d ∈ names, d.2 = r.2 ∧ d.1 ∈ r.1

theorem mem_declarations_lane {layout : Diagram.Layout} {band : Diagram.Band}
    (h : band ∈ layout.bands) : (Role.lane, band.lane.id) ∈ declarations g layout ids fs := by
  have hmem := List.mem_map_of_mem (f := fun band : Diagram.Band => (Role.lane, band.lane.id)) h
  simp only [declarations, List.mem_append]
  exact Or.inl (Or.inl (Or.inl (Or.inr hmem)))

theorem mem_declarations_node {layout : Diagram.Layout} {id : String} (h : id ∈ nodeIds g ids) :
    (Role.node, id) ∈ declarations g layout ids fs := by
  have hmem := List.mem_map_of_mem (f := fun id : String => (Role.node, id)) h
  simp only [declarations, List.mem_append]
  exact Or.inl (Or.inl (Or.inr hmem))

theorem mem_declarations_flow {layout : Diagram.Layout} {f : SequenceFlow} (h : f ∈ fs) :
    (Role.flow, f.id) ∈ declarations g layout ids fs := by
  have hmem := List.mem_map_of_mem (f := fun f : SequenceFlow => (Role.flow, f.id)) h
  simp only [declarations, List.mem_append]
  exact Or.inl (Or.inr hmem)

/-- All references in a document resolve. -/
theorem Parts.Of.resolves (h : p.Of g settings) (hd : Distinct g p.ids)
    (hl : Diagram.Drawn g p.layout) :
    ∀ r ∈ (p.root g settings).collect references,
      Resolves (declarations g p.layout p.ids p.flows) r := by
  have htexts : ∀ tag ∈ frameWords.map (·.1), Assoc.get? tag textRoles = none := by decide
  simp only [frameWords, List.map_cons, List.map_nil, List.forall_mem_cons] at htexts
  have hplane : shownRoles "bpmndi:BPMNPlane" = [.collaboration] := by decide
  have hroot : references (p.root g settings) = [] := by
    have hfar : ∀ name ∈ referenceNames, name ∉ (definitionsAttributes "").map (·.1) := by decide
    refine references_eq_nil (by rw [Parts.root, Xml.tag_block]; decide) fun name hname => ?_
    apply Assoc.get?_eq_none
    rw [Parts.root, Xml.attributes_block, definitionsAttributes_names]
    exact hfar name hname
  have hframes : (Parts.collaboration g).collect references = [([.process], processId g)] ∧
      references (p.process g settings) = [] ∧ references p.diagram = [] ∧
      references p.plane = [([.collaboration], "Collaboration_1")] := by
    simp [Parts.collaboration, Parts.process, Parts.diagram, Parts.plane, references,
      attributeRoles, Xml.attribute?, Assoc.get?, htexts, hplane]
  have hforms : p.formBlock.collect references = [] :=
    Xml.collect_eq_nil h.speaks_formBlock (silent_references (by decide))
  have hflow : ∀ f ∈ p.flows, Resolves (declarations g p.layout p.ids p.flows) ([.flow], f.id) :=
    fun f hf => ⟨_, mem_declarations_flow hf, rfl, by simp⟩
  have hnode : ∀ id ∈ nodeIds g p.ids,
      Resolves (declarations g p.layout p.ids p.flows) ([.node], id) :=
    fun id hid => ⟨_, mem_declarations_node hid, rfl, by simp⟩
  intro r hr
  rw [Parts.collect_root, hroot, hframes.1, hframes.2.1, hframes.2.2.1, hframes.2.2.2, hforms,
    collect_references_laneSet, collect_references_startEvent] at hr
  simp only [List.nil_append, List.mem_append, List.mem_singleton] at hr
  rcases hr with rfl | (hr | hr | hr | hr) | rfl | hr
  · exact ⟨(.process, processId g), by simp [declarations], rfl, by simp⟩
  · -- What the lanes list.
    obtain ⟨band, hband, hr⟩ := List.mem_flatMap.mp hr
    obtain ⟨id, hid, rfl⟩ := List.mem_map.mp hr
    exact hnode id ((members_perm hl p.ids).mem_iff.mp (List.mem_flatMap.mpr ⟨band, hband, hid⟩))
  · obtain ⟨f, hf, rfl⟩ := List.mem_map.mp hr
    exact hflow f (List.mem_of_mem_filter hf)
  · -- The flows at the elements of states.
    obtain ⟨x, hx, hr⟩ := List.mem_flatMap.mp hr
    obtain ⟨s, hs, hx⟩ := Except.exists_of_mem_mapM h.elements hx
    rw [collect_references_element hx, defaultFlow?_toList hd h.flows hs] at hr
    obtain ⟨id, hid, rfl⟩ := List.mem_map.mp hr
    simp only [List.mem_append, List.mem_map] at hid
    rcases hid with (⟨f, hf, rfl⟩ | ⟨f, hf, rfl⟩) | ⟨f, hf, rfl⟩ <;>
      exact hflow f (List.mem_of_mem_filter hf)
  · -- The ends of sequence flows.
    obtain ⟨f, hf, hr⟩ := List.mem_flatMap.mp hr
    rw [collect_references_flowElement] at hr
    simp only [List.mem_cons, List.not_mem_nil, or_false] at hr
    rcases hr with rfl | rfl
    · exact hnode _ (source_of_flows h.flows hf)
    · have htarget := target_of_flows h.flows hf
      rw [← hd.map_idOf] at htarget
      exact hnode _ (List.mem_cons_of_mem _ htarget)
  · exact ⟨(.collaboration, "Collaboration_1"), by simp [declarations], rfl, by simp⟩
  · -- What shapes and lines show.
    obtain ⟨x, hx, hr⟩ := List.mem_flatMap.mp hr
    simp only [List.mem_append, List.mem_cons] at hx
    rcases hx with ((rfl | hx) | hx) | hx
    · rw [collect_references_shape (by simp) h.pool] at hr
      rw [List.mem_singleton.mp hr]
      exact ⟨(.participant, "Participant_1"), by simp [declarations], rfl, by simp⟩
    · obtain ⟨band, hband, hx⟩ := Except.exists_of_mem_mapM h.bands hx
      rw [collect_references_shape (by simp) hx] at hr
      rw [List.mem_singleton.mp hr]
      exact ⟨_, mem_declarations_lane hband, rfl, by simp⟩
    · obtain ⟨node, hnode, hx⟩ := Except.exists_of_mem_mapM h.shapes hx
      have hmarker : (if node.2.label.isText Kind.choice.name then [("isMarkerVisible", "true")]
          else []).map (·.1) ⊆ ["isHorizontal", "isMarkerVisible"] := by
        split <;> simp
      rw [collect_references_shape hmarker hx] at hr
      rw [List.mem_singleton.mp hr]
      have hid : node.1 ∈ nodeIds g p.ids := placed_ids hd hl ▸ List.mem_map_of_mem hnode
      exact ⟨_, mem_declarations_node hid, rfl, by simp⟩
    · obtain ⟨f, hf, hx⟩ := Except.exists_of_mem_mapM h.lines hx
      rw [collect_references_flowLine hx] at hr
      rw [List.mem_singleton.mp hr]
      exact hflow f hf

/-- The references in a document lead where they should: the ids that can be referred to differ
    from each other, every reference is one of them and belongs to what it should, every element
    is listed once and by a lane, and there is one shape for the participant, for each lane and for
    each element and one line for each sequence flow. -/
structure Linked (root : Xml) (names : List (Role × String)) : Prop where
  declared : (root.collect identified).filter (·.1.isDeclared) = names
  distinct : (names.map (·.2)).Nodup
  resolved : ∀ r ∈ root.collect references, Resolves names r
  listed : ((root.collect (refs "bpmn:flowNodeRef")).map (·.2)).Perm
    ((names.filter (·.1 = .node)).map (·.2))
  lanes : ∀ r ∈ root.collect (refs "bpmn:flowNodeRef"),
    ∃ lane, r.1 = some lane ∧ (Role.lane, lane) ∈ names
  shapes : root.collect (shown .shape) =
    (names.filter (·.1 ∈ [.participant, .lane, .node])).map fun d => some d.2
  lines : root.collect (shown .line) = (names.filter (·.1 = .flow)).map fun d => some d.2

/-- The references in a document lead where they should if no two states have the same id. -/
theorem document_linked {text : String} (h : document g settings = .ok text) :
    ∃ root layout ids flows, definitions g settings = .ok root ∧ text = root.document ∧
      Diagram.layout g settings.geometry settings.defaultLane = .ok layout ∧
      elementIds g = .ok ids ∧ Bpmn.flows g ids = .ok flows ∧
      ((g.nodes.map (·.id)).Nodup → Linked root (declarations g layout ids flows)) := by
  obtain ⟨root, hroot, htext⟩ := Except.bind_eq_ok.mp h
  obtain ⟨p, hp, rfl⟩ := parts_of_definitions hroot
  cases htext
  refine ⟨_, p.layout, p.ids, p.flows, hroot, rfl, hp.layout, hp.ids, hp.flows, fun hn => ?_⟩
  have hd := distinct_of_elementIds hp.ids hn
  have hl := hd.drawn hp.layout
  refine ⟨hp.filter_identified, nodup_declarations hd hl hp.flows, hp.resolves hd hl, ?_, ?_, ?_,
    ?_⟩
  · have hmembers := members_perm hl p.ids
    have hmap : ∀ band : Diagram.Band, ((members p.layout p.ids band.lane).map
        ((some band.lane.id, ·))).map (·.2) = members p.layout p.ids band.lane := by
      simp [Function.comp_def]
    rw [hp.collect_nodeRefs, List.map_flatMap]
    rw [declarations_nodes]
    simpa only [hmap] using hmembers
  · rw [hp.collect_nodeRefs]
    intro r hr
    obtain ⟨band, hband, hr⟩ := List.mem_flatMap.mp hr
    obtain ⟨member, _, rfl⟩ := List.mem_map.mp hr
    exact ⟨_, rfl, mem_declarations_lane hband⟩
  · rw [hp.collect_shapes, placed_ids hd hl]
    simp [declarations, List.filter_map, Function.comp_def]
  · rw [hp.collect_lines]
    simp [declarations, List.filter_map, Function.comp_def]

/-- The elements that can be referred to in the document of a graph with a choice. -/
theorem document_linked_choosingFlow : ∃ root layout ids flows,
    definitions choosingFlow {} = .ok root ∧
    Linked root (declarations choosingFlow layout ids flows) ∧
    declarations choosingFlow layout ids flows =
      [(.definitions, "Definitions_f"), (.collaboration, "Collaboration_1"),
        (.participant, "Participant_1"), (.process, "Process_f"), (.laneSet, "LaneSet_1"),
        (.lane, "Lane_system"), (.node, "StartEvent_1"), (.node, "GW_g"), (.node, "End_b"),
        (.flow, "Flow_1"), (.flow, "Flow_2"), (.flow, "Flow_3"), (.flow, "Flow_4"),
        (.diagram, "BPMNDiagram_1"), (.plane, "BPMNPlane_1")] := by
  have hnames : (do
      let layout ← Diagram.layout choosingFlow {} "System"
      let ids ← elementIds choosingFlow
      let fs ← flows choosingFlow ids
      return declarations choosingFlow layout ids fs) = .ok
      [(.definitions, "Definitions_f"), (.collaboration, "Collaboration_1"),
        (.participant, "Participant_1"), (.process, "Process_f"), (.laneSet, "LaneSet_1"),
        (.lane, "Lane_system"), (.node, "StartEvent_1"), (.node, "GW_g"), (.node, "End_b"),
        (.flow, "Flow_1"), (.flow, "Flow_2"), (.flow, "Flow_3"), (.flow, "Flow_4"),
        (.diagram, "BPMNDiagram_1"), (.plane, "BPMNPlane_1")] := by cbv
  obtain ⟨root, hroot⟩ := definitions_choosingFlow
  have hdocument : document choosingFlow {} = .ok root.document := by rw [document, hroot]; rfl
  obtain ⟨root', layout, ids, fs, hroot', _, hlayout, hids, hfs, hlinked⟩ :=
    document_linked hdocument
  cases hroot.symm.trans hroot'
  obtain ⟨layout', hlayout', hnames⟩ := Except.bind_eq_ok.mp hnames
  cases hlayout.symm.trans hlayout'
  obtain ⟨ids', hids', hnames⟩ := Except.bind_eq_ok.mp hnames
  cases hids.symm.trans hids'
  obtain ⟨fs', hfs', hnames⟩ := Except.bind_eq_ok.mp hnames
  cases hfs.symm.trans hfs'
  exact ⟨root, layout, ids, fs, hroot, hlinked nodup_choosingFlow, Except.ok.inj hnames⟩

/-- The graph with two states that share an id is accepted, but the ids that can be referred to in
    its document do not differ from each other. -/
theorem identified_of_sharedFlow : ∃ g root, sharedFlow = .ok g ∧ g.validate = .ok [] ∧
    definitions g {} = .ok root ∧
    ¬ (((root.collect identified).filter (·.1.isDeclared)).map (·.2)).Nodup := by
  have hmade : (do
      let g ← sharedFlow
      let warnings ← g.validate
      let ids ← elementIds g
      let _ ← definitions g {}
      return (warnings, nodeIds g ids)) =
      .ok ([], ["StartEvent_1", "ST_a", "End_b", "ST_a"]) := by cbv
  obtain ⟨g, hg, hmade⟩ := Except.bind_eq_ok.mp hmade
  obtain ⟨warnings, hwarnings, hmade⟩ := Except.bind_eq_ok.mp hmade
  obtain ⟨ids, hids, hmade⟩ := Except.bind_eq_ok.mp hmade
  obtain ⟨root, hroot, hmade⟩ := Except.bind_eq_ok.mp hmade
  obtain ⟨rfl, hnodes⟩ := Prod.mk.inj (Except.ok.inj hmade)
  refine ⟨g, root, hg, hwarnings, hroot, fun hnodup => ?_⟩
  obtain ⟨p, hp, rfl⟩ := parts_of_definitions hroot
  cases hids.symm.trans hp.ids
  rw [hp.filter_identified] at hnodup
  have hdouble : (nodeIds g p.ids).Nodup := by
    rw [← declarations_nodes p.layout p.flows]
    exact (List.filter_sublist.map _).nodup hnodup
  rw [hnodes] at hdouble
  revert hdouble
  decide

end Document

end Swimlane.Bpmn
