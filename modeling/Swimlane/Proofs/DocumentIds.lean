import Swimlane.Proofs.LayoutParts
import Swimlane.Proofs.SequenceFlows

/-!
# The ids in a document

The elements of a document have ids from several sources: fixed ones, ids made of the name of the
flow, of lanes, of states and of forms, and numbers.  What stands in front of the first underscore
of an id, its family, tells the sources apart.

## Key results

- `collect_identified`: all ids in a document
- `nodup_of_families`: ids of different families differ
-/

namespace Swimlane.Bpmn

/-! ## Elements with ids -/

/-- What an element of a document is. -/
inductive Role where
  | definitions
  | collaboration
  | participant
  | process
  | laneSet
  | lane
  /-- The start event or the element of a state. -/
  | node
  | flow
  | form
  | diagram
  | plane
  | shape
  | line
  | other
  deriving DecidableEq, Repr

/-- What the elements with a tag are. -/
def roles : List (String × Role) :=
  [("bpmn:definitions", .definitions), ("bpmn:collaboration", .collaboration),
    ("bpmn:participant", .participant), ("bpmn:process", .process), ("bpmn:laneSet", .laneSet),
    ("bpmn:lane", .lane), ("bpmn:startEvent", .node), ("bpmn:userTask", .node),
    ("bpmn:serviceTask", .node), ("bpmn:exclusiveGateway", .node), ("bpmn:sendTask", .node),
    ("bpmn:endEvent", .node), ("bpmn:sequenceFlow", .flow), ("zeebe:userTaskForm", .form),
    ("bpmndi:BPMNDiagram", .diagram), ("bpmndi:BPMNPlane", .plane), ("bpmndi:BPMNShape", .shape),
    ("bpmndi:BPMNEdge", .line)]

/-- What an element is, by its tag. -/
def roleOf (tag : String) : Role := (Assoc.get? tag roles).getD .other

theorem roleOf_tagOf (kind : Kind) : roleOf (tagOf kind) = .node := by
  cases kind <;> decide

/-- The id of an element, next to what the element is. -/
def identified (x : Xml) : List (Role × String) :=
  (x.attribute? "id").toList.map (roleOf x.tag, ·)

theorem silent_identified {words : Xml.Vocabulary} (hw : ∀ w ∈ words, "id" ∉ w.2) :
    words.Silent identified := by
  intro e he
  simp [identified, he.attribute? hw]

section Parts

variable {g : Graph} {settings : Settings} {ids : List (String × String)} {fs : List SequenceFlow}

theorem collect_identified_element {s : State} {x : Xml} (h : element ids fs s = .ok x) :
    x.collect identified = [(.node, idOf ids s.id)] := by
  have hid := id_of_element h
  obtain ⟨kind, name, body, _, _, hbody, rfl⟩ := element_eq_ok h
  have hinner := List.flatMap_eq_nil_iff.mpr fun c hc =>
    Xml.collect_eq_nil (speaks_inner fs hbody (idOf ids s.id) c hc) (silent_identified (by decide))
  rw [Xml.collect_block, hinner, List.append_nil, identified, hid]
  simp [roleOf_tagOf]

theorem collect_identified_startEvent : (startEvent fs).collect identified =
    [(.node, startEventId)] := by
  have hinner := List.flatMap_eq_nil_iff.mpr fun c hc =>
    Xml.collect_eq_nil (speaks_outgoing fs startEventId c hc) (silent_identified (by decide))
  have hrole : roleOf "bpmn:startEvent" = .node := by decide
  rw [startEvent, Xml.collect_block, hinner]
  simp [identified, hrole, Xml.attribute?, Assoc.get?]

theorem collect_identified_laneSet (layout : Diagram.Layout) :
    (laneSet layout ids).collect identified =
      (.laneSet, "LaneSet_1") :: (layout.bands.map fun band => (.lane, band.lane.id)) := by
  have href : ∀ refs : List String,
      (refs.map nodeRef).flatMap (Xml.collect identified) = [] := by
    intro refs
    simp [List.flatMap_map, nodeRef, identified, Xml.attribute?, Assoc.get?]
  have hset : roleOf "bpmn:laneSet" = .laneSet := by decide
  have hlane : roleOf "bpmn:lane" = .lane := by decide
  rw [laneSet_eq, Xml.collect_block, List.flatMap_map]
  simp only [Xml.collect_block, href]
  simp [identified, hset, hlane, Xml.attribute?, Assoc.get?, List.map_eq_flatMap]

theorem collect_identified_flowElement (f : SequenceFlow) :
    (flowElement f).collect identified = [(.flow, f.id)] := by
  have hrole : roleOf "bpmn:sequenceFlow" = .flow := by decide
  unfold flowElement
  cases f.condition <;> simp [identified, hrole, Xml.attribute?, Assoc.get?]

theorem collect_identified_shape {id : String} {attributes : List (String × String)}
    {b : Diagram.Bounds} {x : Xml} (h : shape id attributes b = .ok x) :
    x.collect identified = [(.shape, id ++ "_di")] := by
  have hrole : roleOf "bpmndi:BPMNShape" = .shape := by decide
  obtain ⟨x', y, width, height, rfl⟩ := shape_eq_ok h
  simp [identified, hrole, Xml.attribute?, Assoc.get?]

theorem collect_identified_flowLine {nodes : List (String × Diagram.Node)} {f : SequenceFlow}
    {x : Xml} (h : flowLine nodes f = .ok x) : x.collect identified = [(.line, f.id ++ "_di")] := by
  have hrole : roleOf "bpmndi:BPMNEdge" = .line := by decide
  obtain ⟨points, rfl⟩ := flowLine_eq_ok h
  simp [List.flatMap_map, identified, hrole, Xml.attribute?, Assoc.get?]

/-- The ids of the start event and of the elements of states. -/
def nodeIds (g : Graph) (ids : List (String × String)) : List String :=
  startEventId :: g.nodes.map fun s => idOf ids s.id

variable {p : Parts}

/-- The ids in the model of a document. -/
def Parts.modelIds (p : Parts) (g : Graph) : List (Role × String) :=
  [(Role.definitions, "Definitions_" ++ flowSlug g.name), (Role.collaboration, "Collaboration_1"),
    (Role.participant, "Participant_1"), (Role.process, processId g)] ++
  p.forms.flatMap (Xml.collect identified) ++ [(Role.laneSet, "LaneSet_1")] ++
  (p.layout.bands.map fun band => (Role.lane, band.lane.id)) ++
  (nodeIds g p.ids).map (Role.node, ·) ++ p.flows.map fun f => (Role.flow, f.id)

/-- The ids in the diagram of a document. -/
def Parts.diagramIds (p : Parts) : List (Role × String) :=
  [(Role.diagram, "BPMNDiagram_1"), (Role.plane, "BPMNPlane_1")] ++
  ("Participant_1" :: p.layout.bands.map (·.lane.id) ++ (placed p.layout p.ids).map (·.1)).map
    (fun id => (Role.shape, id ++ "_di")) ++
  p.flows.map fun f => (Role.line, f.id ++ "_di")

/-- All ids in a document. -/
theorem Parts.Of.collect_identified (h : p.Of g settings) :
    (p.root g settings).collect identified = p.modelIds g ++ p.diagramIds := by
  have hroles : roleOf "bpmn:definitions" = .definitions ∧
      roleOf "bpmn:collaboration" = .collaboration ∧ roleOf "bpmn:participant" = .participant ∧
      roleOf "bpmn:process" = .process ∧ roleOf "bpmndi:BPMNDiagram" = .diagram ∧
      roleOf "bpmndi:BPMNPlane" = .plane := by decide
  have hroot : identified (p.root g settings) =
      [(.definitions, "Definitions_" ++ flowSlug g.name)] := by
    simp [Parts.root, identified, hroles, definitionsAttributes, Xml.attribute?, Assoc.get?]
  have hcollaboration : (collaboration g).collect identified =
      [(.collaboration, "Collaboration_1"), (.participant, "Participant_1")] := by
    simp [collaboration, identified, hroles, Xml.attribute?, Assoc.get?]
  have hframes : identified (p.process g settings) = [(.process, processId g)] ∧
      identified p.diagram = [(.diagram, "BPMNDiagram_1")] ∧
      identified p.plane = [(.plane, "BPMNPlane_1")] := by
    simp [Parts.process, Parts.diagram, Parts.plane, identified, hroles, Xml.attribute?, Assoc.get?]
  have hforms : p.formBlock.collect identified = p.forms.flatMap (Xml.collect identified) := by
    simp [Parts.formBlock, identified, Xml.attribute?, Assoc.get?]
  have helements := Except.flatMap_eq_of_mapM (q := Xml.collect identified)
    (fun s _ x hx => collect_identified_element hx) h.elements
  have hflows : (p.flows.flatMap fun f => (flowElement f).collect identified) =
      p.flows.map fun f => (.flow, f.id) := by
    simp only [collect_identified_flowElement, List.map_eq_flatMap]
  have hbands := Except.flatMap_eq_of_mapM (q := Xml.collect identified)
    (fun band _ x hx => collect_identified_shape hx) h.bands
  have hshapes := Except.flatMap_eq_of_mapM (q := Xml.collect identified)
    (fun node _ x hx => collect_identified_shape hx) h.shapes
  have hlines := Except.flatMap_eq_of_mapM (q := Xml.collect identified)
    (fun f _ x hx => collect_identified_flowLine hx) h.lines
  rw [← List.map_eq_flatMap] at helements hbands hshapes hlines
  rw [Parts.collect_root, hroot, hcollaboration, hframes.1, hframes.2.1, hframes.2.2, hforms,
    collect_identified_laneSet, collect_identified_startEvent, hflows, helements]
  simp only [List.cons_append, List.flatMap_cons, List.flatMap_append, hbands, hshapes, hlines,
    collect_identified_shape h.pool]
  simp [Parts.modelIds, Parts.diagramIds, nodeIds, Function.comp_def]

theorem Distinct.drawn {geometry : Geometry} {default : String} {layout : Diagram.Layout}
    (hd : Distinct g ids) (h : Diagram.layout g geometry default = .ok layout) :
    Diagram.Drawn g layout := by
  have hkeys : g.nodes.map (·.id) = (ids.map (·.1)).map .str := by
    rw [hd.states, List.map_map]
    rfl
  exact Diagram.drawn_of_layout hkeys h

/-- Every element that was placed has a shape. -/
theorem placed_ids {layout : Diagram.Layout} (hd : Distinct g ids) (hl : Diagram.Drawn g layout) :
    (placed layout ids).map (·.1) = nodeIds g ids := by
  have hfound : ∀ names : List (String × Json),
      (∀ x ∈ names, ∃ n, Assoc.get? x.2 layout.nodes = some n) →
      (names.filterMap fun x => (Assoc.get? x.2 layout.nodes).map (x.1, ·)).map (·.1) =
        names.map (·.1) := by
    intro names hnames
    induction names with
    | nil => rfl
    | cons x rest ih =>
      obtain ⟨n, hn⟩ := hnames x List.mem_cons_self
      have hrest := ih fun y hy => hnames y (List.mem_cons_of_mem _ hy)
      simp [hn, hrest]
  refine (hfound ((startEventId, Diagram.startNode) ::
    ids.map fun q => (q.2, .str q.1)) ?_).trans ?_
  · intro x hx
    rcases List.mem_cons.mp hx with rfl | hx
    · obtain ⟨n, hn, _⟩ := hl.start
      exact ⟨n, hn⟩
    · obtain ⟨q, hq, rfl⟩ := List.mem_map.mp hx
      apply hl.node
      rw [hd.states]
      exact List.mem_map.mpr ⟨q, hq, rfl⟩
  · rw [List.map_cons, List.map_map, nodeIds, hd.map_idOf]
    rfl

end Parts

/-! ## Families of ids -/

/-- An id begins with one of the given words and an underscore. -/
def InFamily (words : List String) (id : String) : Prop :=
  ∃ word ∈ words, '_' ∉ word.toList ∧ ∃ rest, id = word ++ "_" ++ rest

theorem InFamily.append {words : List String} {id : String} (h : InFamily words id)
    (more : String) : InFamily words (id ++ more) := by
  obtain ⟨word, hword, hplain, rest, rfl⟩ := h
  exact ⟨word, hword, hplain, rest ++ more, by simp only [String.append_assoc]⟩

/-- The word in front of the first underscore is the same for equal ids. -/
theorem InFamily.inter {words words' : List String} {id : String} (h : InFamily words id)
    (h' : InFamily words' id) : ∃ word ∈ words, word ∈ words' := by
  obtain ⟨word, hword, hplain, rest, rfl⟩ := h
  obtain ⟨word', hword', hplain', rest', heq⟩ := h'
  have htake : ∀ (w r : String), '_' ∉ w.toList →
      (w ++ "_" ++ r).toList.takeWhile (· != '_') = w.toList := by
    intro w r hw
    have hall : ∀ c ∈ w.toList, (c != '_') = true := fun c hc =>
      bne_iff_ne.mpr fun heq => hw (heq ▸ hc)
    rw [String.toList_append, String.toList_append, List.append_assoc,
      List.takeWhile_append_of_pos hall]
    simp
  have hsame : word = word' := by
    rw [← String.toList_inj, ← htake word rest hplain, heq, htake word' rest' hplain']
  exact ⟨word, hword, hsame ▸ hword'⟩

/-- Different ids of one family. -/
def IsFamily (words ids : List String) : Prop := ids.Nodup ∧ ∀ id ∈ ids, InFamily words id

theorem isFamily_singleton {word id : String} (rest : String) (hword : '_' ∉ word.toList)
    (hid : id = word ++ "_" ++ rest) : IsFamily [word] [id] := by
  refine ⟨List.nodup_singleton id, fun id' hid' => ?_⟩
  rw [List.mem_singleton.mp hid']
  exact ⟨word, List.mem_singleton_self word, hword, rest, hid⟩

/-- Ids of families with different words differ from each other. -/
theorem nodup_of_families {groups : List (List String × List String)}
    (hwords : (groups.flatMap (·.1)).Nodup) (hgroups : ∀ group ∈ groups, IsFamily group.1 group.2) :
    (groups.flatMap (·.2)).Nodup := by
  induction groups with
  | nil => exact List.nodup_nil
  | cons group rest ih =>
    rw [List.flatMap_cons, List.nodup_append] at hwords ⊢
    obtain ⟨hnodup, hfamily⟩ := hgroups group List.mem_cons_self
    have hrest := fun other hother => hgroups other (List.mem_cons_of_mem _ hother)
    refine ⟨hnodup, ih hwords.2.1 hrest, fun id hid id' hid' heq => ?_⟩
    -- Equal ids of two groups would have a word in common.
    obtain ⟨other, hother, hid'⟩ := List.mem_flatMap.mp hid'
    obtain ⟨word, hword, hword'⟩ := (hfamily id hid).inter (heq ▸ (hrest other hother).2 id' hid')
    exact hwords.2.2 word hword word (List.mem_flatMap.mpr ⟨other, hother, hword'⟩) rfl

/-- The marks of elements. -/
def marks : List String := ["UT", "ST", "GW", "SND", "End"]

/-- The ids of a document in their families. -/
def idGroups (slug : String) (participants lanes starts elements flows forms : List String) :
    List (List String × List String) :=
  [(["Definitions"], ["Definitions_" ++ slug]), (["Collaboration"], ["Collaboration_1"]),
    (["Participant"], participants), (["Process"], ["Process_" ++ slug]), (["form"], forms),
    (["LaneSet"], ["LaneSet_1"]), (["Lane"], lanes), (["StartEvent"], starts), (marks, elements),
    (["Flow"], flows), (["BPMNDiagram"], ["BPMNDiagram_1"]), (["BPMNPlane"], ["BPMNPlane_1"])]

theorem nodup_idGroups (slug : String)
    {participants lanes starts elements flows forms : List String}
    (hp : IsFamily ["Participant"] participants) (hl : IsFamily ["Lane"] lanes)
    (hs : IsFamily ["StartEvent"] starts) (he : IsFamily marks elements)
    (hf : IsFamily ["Flow"] flows) (hform : IsFamily ["form"] forms) :
    ((idGroups slug participants lanes starts elements flows forms).flatMap (·.2)).Nodup := by
  apply nodup_of_families
  · show (["Definitions", "Collaboration", "Participant", "Process", "form", "LaneSet", "Lane",
      "StartEvent"] ++ marks ++ ["Flow", "BPMNDiagram", "BPMNPlane"]).Nodup
    decide
  · simp only [idGroups, List.forall_mem_cons]
    refine ⟨isFamily_singleton slug (by decide) (by simp), ?_, hp,
      isFamily_singleton slug (by decide) (by simp), hform, ?_, hl, hs, he, hf, ?_, ?_,
      fun _ hx => nomatch hx⟩ <;>
      exact isFamily_singleton "1" (by decide) (by decide)

section Sources

variable {g : Graph} {ids : List (String × String)} {fs : List SequenceFlow}

theorem inFamily_elementId (kind : Kind) (id : String) : InFamily marks (elementId kind id) :=
  ⟨markOf kind, by cases kind <;> decide, by cases kind <;> decide, Text.xmlId id, rfl⟩

theorem Distinct.isFamily (hd : Distinct g ids) : IsFamily marks (ids.map (·.2)) := by
  refine ⟨(List.nodup_cons.mp hd.elements).2, fun id hid => ?_⟩
  obtain ⟨q, hq, rfl⟩ := List.mem_map.mp hid
  obtain ⟨kind, hkind⟩ := hd.kinds q hq
  rw [hkind]
  exact inFamily_elementId kind q.1

theorem isFamily_lanes {layout : Diagram.Layout} (hl : Diagram.Drawn g layout) :
    IsFamily ["Lane"] (layout.bands.map (·.lane.id)) := by
  refine ⟨hl.lanes, fun id hid => ?_⟩
  obtain ⟨rest, rfl⟩ := hl.named id hid
  exact ⟨"Lane", by simp, by decide, rest, by simp⟩

theorem flowId_eq (n : Nat) : s!"Flow_{n}" = "Flow" ++ "_" ++ toString n := by
  simp [toString]

theorem isFamily_flows (h : flows g ids = .ok fs) : IsFamily ["Flow"] (fs.map (·.id)) := by
  rw [flows_ids h]
  constructor
  · refine List.Nodup.map_on (fun m _ n _ heq => ?_) List.nodup_range'
    exact Text.numberedName_inj "Flow" m n heq
  · intro id hid
    obtain ⟨n, _, rfl⟩ := List.mem_map.mp hid
    exact ⟨"Flow", by simp, by decide, toString n, flowId_eq n⟩

end Sources

end Swimlane.Bpmn
