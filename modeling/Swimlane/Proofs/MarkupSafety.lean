import Swimlane.Proofs.DocumentIds
import Swimlane.Proofs.MarkupReader

/-!
# Texts in documents

A graph holds texts of all kinds: the name of the flow, prompts, actions, conditions, assignees,
messages, reasons and forms.  In the document of the graph they stand as values of attributes and
as texts of elements.  A reader of markup that knows nothing of graphs finds each of them there as
it was, and nothing of a text is taken for markup: the tags and the attributes in a document are
those of the fixed vocabulary, whatever the graph says.

## Key results

- `Parts.Of.elementsOf_root`: which elements a document has
- `name_of_element`, `notes_of_element`: the texts in the element of a state
- `document_markup`: the document of a graph as markup
-/

namespace Swimlane

/-- The text of a value, if it is given. -/
def Json.given? (v : Json) : Option String := if v.isGiven then some v.display else none

namespace Bpmn

/-! ## What is written -/

/-- What is written as the name of the element of a state. -/
def caption (s : State) : Option String :=
  match s.body with
  | .userTask prompt _ _ => prompt.given?
  | .task action => action.given?
  | .choice branches _ => branches.items.head?.map fun b => b.condition.display ++ "?"
  | .send _ _ message => some ("Send " ++ message.display)
  | .stop reason => some (reason.given?.getD "End")

/-- The id of the form of a state, if it has one. -/
def formKey? (s : State) : Option String :=
  match s.form? with
  | some (.ok form) => some (Text.xmlId form.id.display)
  | _ => none

/-- What is written into the element of a state, each text next to the tag that it stands in. -/
def notes (s : State) : List (String × String) :=
  match s.body with
  | .userTask _ assignee _ =>
    (assignee.given?.toList.map fun name =>
      ("zeebe:assignmentDefinition", assigneeExpression name)) ++
      (formKey? s).toList.map fun key => ("zeebe:formDefinition", "camunda-forms:bpmn:" ++ key)
  | .task _ => [("zeebe:taskDefinition", s.id.display)]
  | .send channel recipient message =>
    [("bpmn:documentation", s!"To {recipient.display}: {message.display}"),
      ("zeebe:taskDefinition", channelType channel.display)]
  | _ => []

/-- What is written at the sequence flows of a state: their names, and what they hold. -/
def edgeTexts (s : State) : List (Option String × List (String × String)) :=
  match s.body with
  | .choice .. =>
    (s.branchList.map fun b => ((Json.str b.condition.display).given?,
      [("bpmn:conditionExpression", conditionExpression b.condition.display)])) ++
    s.otherwiseList.map fun _ => (some "Otherwise", [])
  | _ => s.targets.map fun _ => (none, [])

/-- The text of an element that holds one, next to its tag. -/
def note (x : Xml) : List (String × String) :=
  if x.tag ∈ ["bpmn:documentation", "bpmn:conditionExpression"] then [(x.tag, x.content)]
  else if x.tag ∈
      ["zeebe:taskDefinition", "zeebe:assignmentDefinition", "zeebe:formDefinition"] then
    x.attributes.map fun a => (x.tag, a.2)
  else []

/-! ## Elements by their roles -/

/-- An element, if it has the given role. -/
def pick (role : Role) (x : Xml) : List Xml := if roleOf x.tag = role then [x] else []

/-- The elements with the given role, in the order of the text. -/
def elementsOf (role : Role) (x : Xml) : List Xml := x.collect (pick role)

theorem silent_pick {role : Role} {words : Xml.Vocabulary}
    (hw : ∀ tag ∈ words.map (·.1), roleOf tag ≠ role) : words.Silent (pick role) := by
  intro e he
  simp [pick, hw e.tag he.tag_mem]

/-- An element with a role has none inside of it. -/
theorem elementsOf_block {role : Role} {words : Xml.Vocabulary}
    (hw : ∀ tag ∈ words.map (·.1), roleOf tag ≠ role) {tag : String}
    {attributes : List (String × String)} {children : List Xml}
    (h : ∀ c ∈ children, c.Speaks words) :
    elementsOf role (.block tag attributes children) =
      pick role (.block tag attributes children) := by
  have hinner : children.flatMap (Xml.collect (pick role)) = [] :=
    List.flatMap_eq_nil_iff.mpr fun c hc => Xml.collect_eq_nil (h c hc) (silent_pick hw)
  rw [elementsOf, Xml.collect_block, hinner, List.append_nil]

variable {g : Graph} {settings : Settings} {ids : List (String × String)} {fs : List SequenceFlow}
  {p : Parts}

/-- The roles of the elements that texts of a graph are written to. -/
def writtenRoles : List Role := [.participant, .process, .form, .lane, .node, .flow]

/-- The lanes of a layout as elements. -/
def lanes (layout : Diagram.Layout) (ids : List (String × String)) : List Xml :=
  layout.bands.map fun band => .block "bpmn:lane" [("id", band.lane.id), ("name", band.lane.name)]
    ((members layout ids band.lane).map nodeRef)

theorem formId_eq_ok {form : Form} {id : String} (h : formId form = .ok id) :
    id = Text.xmlId form.id.display := by
  obtain ⟨name, hname, h⟩ := Except.bind_eq_ok.mp h
  rw [← Except.ok.inj h, asSearchable_eq_ok hname, Json.display]

/-- The element of a form has the id of the form, and its content. -/
theorem formElement_eq_ok {form : Form} {x : Xml} (h : formElement form = .ok x) :
    x = .text "zeebe:userTaskForm" [("id", Text.xmlId form.id.display)] form.toJson.dense := by
  obtain ⟨id, hid, h⟩ := Except.bind_eq_ok.mp h
  rw [← formId_eq_ok hid]
  exact (Except.ok.inj h).symm

/-- The elements of a document with a role. -/
def Parts.ofRole (p : Parts) (g : Graph) (settings : Settings) : Role → List Xml
  | .participant => (collaboration g).children
  | .process => [p.process g settings]
  | .form => p.forms
  | .lane => lanes p.layout p.ids
  | .node => startEvent p.flows :: p.elements
  | .flow => p.flows.map flowElement
  | _ => []

section Roles

variable {role : Role} (hr : role ∈ writtenRoles)

include hr

/-- Frames around other elements, references, drawings and what is inside of elements have none of
    these roles. -/
theorem roleOf_ne : ∀ tag ∈ ["bpmn:definitions", "bpmn:collaboration", "bpmn:laneSet",
      "bpmn:flowNodeRef", "bpmn:extensionElements", "zeebe:versionTag", "bpmndi:BPMNDiagram",
      "bpmndi:BPMNPlane", "bpmn:conditionExpression"] ++ innerWords.map (·.1) ++
      drawingWords.map (·.1), roleOf tag ≠ role := by
  revert role
  decide

theorem elementsOf_collaboration (g : Graph) : elementsOf role (Parts.collaboration g) =
    if .participant = role then (Parts.collaboration g).children else [] := by
  have hown : roleOf "bpmn:participant" = .participant := by decide
  have hframe : roleOf "bpmn:collaboration" ≠ role := roleOf_ne hr _ (by simp)
  simp [elementsOf, Parts.collaboration, pick, hframe, hown]

theorem elementsOf_startEvent (fs : List SequenceFlow) : elementsOf role (startEvent fs) =
    if .node = role then [startEvent fs] else [] := by
  have hown : roleOf "bpmn:startEvent" = .node := by decide
  unfold startEvent
  rw [elementsOf_block (fun tag ht => roleOf_ne hr tag (by simp [ht]))
    (speaks_outgoing fs startEventId)]
  simp [pick, hown]

theorem elementsOf_element {s : State} {x : Xml} (h : element ids fs s = .ok x) :
    elementsOf role x = if .node = role then [x] else [] := by
  obtain ⟨kind, name, body, _, _, hbody, rfl⟩ := element_eq_ok h
  rw [elementsOf_block (fun tag ht => roleOf_ne hr tag (by simp [ht])) (speaks_inner fs hbody _)]
  simp [pick, roleOf_tagOf]

theorem elementsOf_flowElement (f : SequenceFlow) : elementsOf role (flowElement f) =
    if .flow = role then [flowElement f] else [] := by
  have hown : roleOf "bpmn:sequenceFlow" = .flow := by decide
  have hinner : roleOf "bpmn:conditionExpression" ≠ role := roleOf_ne hr _ (by simp)
  unfold flowElement elementsOf
  cases f.condition <;> simp [pick, hown, hinner]

theorem elementsOf_laneSet (layout : Diagram.Layout) (ids : List (String × String)) :
    elementsOf role (laneSet layout ids) = if .lane = role then lanes layout ids else [] := by
  have hown : roleOf "bpmn:lane" = .lane := by decide
  have hframe : roleOf "bpmn:laneSet" ≠ role := roleOf_ne hr _ (by simp)
  have hinner : roleOf "bpmn:flowNodeRef" ≠ role := roleOf_ne hr _ (by simp)
  have href : ∀ refs : List String, (refs.map nodeRef).flatMap (Xml.collect (pick role)) = [] := by
    intro refs
    simp [List.flatMap_map, nodeRef, pick, hinner]
  rw [elementsOf, laneSet_eq, Xml.collect_block, List.flatMap_map]
  simp only [Xml.collect_block, href, List.append_nil]
  by_cases hlane : .lane = role <;> simp [pick, hframe, hown, hlane, lanes, List.map_eq_flatMap]

theorem Parts.Of.elementsOf_formBlock (h : p.Of g settings) : elementsOf role p.formBlock =
    if .form = role then p.forms else [] := by
  have hown : roleOf "zeebe:userTaskForm" = .form := by decide
  have hframe : roleOf "bpmn:extensionElements" ≠ role := roleOf_ne hr _ (by simp)
  have hversion : roleOf "zeebe:versionTag" ≠ role := roleOf_ne hr _ (by simp)
  have hforms : ∀ x ∈ p.forms, x.collect (pick role) = if .form = role then [x] else [] := by
    intro x hx
    obtain ⟨form, _, hform⟩ := Except.exists_of_mem_mapM h.forms hx
    obtain ⟨f, _, hf⟩ := Except.bind_eq_ok.mp hform
    simp [formElement_eq_ok hf, pick, hown]
  rw [elementsOf, Parts.formBlock, Xml.collect_block, List.flatMap_cons,
    List.flatMap_congr hforms]
  by_cases hform : .form = role <;> simp [pick, hframe, hversion, hform]

/-- The elements with a role of texts are the parts of the document with this role. -/
theorem Parts.Of.elementsOf_root (h : p.Of g settings) :
    elementsOf role (p.root g settings) = p.ofRole g settings role := by
  have hown : roleOf "bpmn:process" = .process := by decide
  have hframes : roleOf "bpmn:definitions" ≠ role ∧ roleOf "bpmndi:BPMNDiagram" ≠ role ∧
      roleOf "bpmndi:BPMNPlane" ≠ role :=
    ⟨roleOf_ne hr _ (by simp), roleOf_ne hr _ (by simp), roleOf_ne hr _ (by simp)⟩
  have hroot : pick role (p.root g settings) = [] ∧ pick role p.diagram = [] ∧
      pick role p.plane = [] := by
    simp [pick, Parts.root, Parts.diagram, Parts.plane, hframes]
  have hprocess : pick role (p.process g settings) =
      if .process = role then [p.process g settings] else [] := by
    simp [pick, Parts.process, hown]
  have helements : p.elements.flatMap (elementsOf role) =
      if .node = role then p.elements else [] := by
    have heach : ∀ x ∈ p.elements, elementsOf role x = if .node = role then [x] else [] := by
      intro x hx
      obtain ⟨s, _, hs⟩ := Except.exists_of_mem_mapM h.elements hx
      exact elementsOf_element hr hs
    rw [List.flatMap_congr heach]
    split <;> simp
  have hflows : (p.flows.flatMap fun f => elementsOf role (flowElement f)) =
      if .flow = role then p.flows.map flowElement else [] := by
    simp only [elementsOf_flowElement hr]
    split <;> simp [List.map_eq_flatMap]
  have hdrawn := h.collect_drawing_eq_nil
    (silent_pick fun tag ht => roleOf_ne hr tag (by simp [ht]))
  have hcollaboration := elementsOf_collaboration hr g
  have hforms := h.elementsOf_formBlock hr
  have hlanes := elementsOf_laneSet hr p.layout p.ids
  have hstart := elementsOf_startEvent hr p.flows
  unfold elementsOf at *
  rw [Parts.collect_root, hroot.1, hcollaboration, hprocess, hforms, hlanes, hstart, helements,
    hflows, hroot.2.1, hroot.2.2, hdrawn]
  -- Only one of the parts has elements with the role.
  simp only [writtenRoles, List.mem_cons, List.not_mem_nil, or_false] at hr
  rcases hr with rfl | rfl | rfl | rfl | rfl | rfl <;> simp [Parts.ofRole]

end Roles

/-! ## The texts in elements -/

theorem given?_str (text : String) :
    (Json.str text).given? = if text = "" then none else some text := by
  by_cases h : text = "" <;> simp [Json.given?, Json.isGiven, Json.display, h]

theorem given?_of_isGiven {v : Json} {text : String} (hv : v = .str text) (h : v.isGiven = true) :
    v.given? = some text := by
  subst hv
  simp [Json.given?, h, Json.display]

/-- A name as it is written is the caption of the state. -/
theorem given?_elementName (s : State) : (elementName s).given? = caption s := by
  unfold elementName caption
  cases s.body with
  | choice branches otherwise => cases hitems : branches.items <;> simp [hitems, given?_str]
  | send channel recipient message => simp [given?_str]
  | stop reason =>
    by_cases hgiven : reason.isGiven = true
    · simp [Json.given?, hgiven]
    · simp only [hgiven, Bool.false_eq_true, ↓reduceIte, given?_str]
      simp [Json.given?, hgiven]
  | _ => rfl

/-- The element of a state has the name that the state says. -/
theorem name_of_element {s : State} {x : Xml} (h : element ids fs s = .ok x) :
    x.attribute? "name" = caption s := by
  obtain ⟨kind, name, body, _, hname, _, rfl⟩ := element_eq_ok h
  rw [← given?_elementName]
  rcases nameAttribute_eq_ok hname with ⟨hgiven, rfl⟩ | ⟨text, htext, hgiven, rfl⟩
  · -- A default flow is no name.
    unfold defaultAttribute
    cases defaultFlow? fs (idOf ids s.id) <;> simp [Xml.attribute?, Assoc.get?, Json.given?, hgiven]
  · simp [Xml.attribute?, Assoc.get?, given?_of_isGiven htext hgiven]

theorem collect_note_assignment {assignee : Json} {assigned : List Xml}
    (h : assignment assignee = .ok assigned) : assigned.flatMap (Xml.collect note) =
      assignee.given?.toList.map fun name =>
        ("zeebe:assignmentDefinition", assigneeExpression name) := by
  unfold assignment at h
  split at h
  · rename_i hgiven
    obtain ⟨name, hname, h⟩ := Except.bind_eq_ok.mp h
    cases h
    rw [given?_of_isGiven (asSearchable_eq_ok hname) hgiven]
    simp [note]
  · rename_i hgiven
    cases h
    simp [Json.given?, hgiven]

theorem collect_note_formDefinition {s : State} {form : Option (Except Misfit Form)}
    (hs : s.form? = form) {formed : List Xml} (h : formDefinition form = .ok formed) :
    formed.flatMap (Xml.collect note) = (formKey? s).toList.map fun key =>
      ("zeebe:formDefinition", "camunda-forms:bpmn:" ++ key) := by
  subst hs
  unfold formKey?
  unfold formDefinition at h
  cases hform : s.form? with
  | none =>
    rw [hform] at h
    cases h
    rfl
  | some form =>
    rw [hform] at h
    obtain ⟨f, hf, h⟩ := Except.bind_eq_ok.mp h
    obtain ⟨id, hid, h⟩ := Except.bind_eq_ok.mp h
    cases h
    rw [hf, formId_eq_ok hid]
    simp [note]

theorem asText_eq_ok {v : Json} {text : String} (h : v.asText = .ok text) : v = .str text := by
  cases v <;> cases h
  rfl

/-- What the body of a state says is written. -/
theorem collect_note_body {s : State} {body : List Xml} (h : elementBody s = .ok body) :
    body.flatMap (Xml.collect note) = notes s := by
  have hinner : ∀ children : List Xml, (extension children).collect note =
      children.flatMap (Xml.collect note) := by
    intro children
    simp [extension, note]
  unfold elementBody at h
  unfold notes
  cases hbody : s.body with
  | send channel recipient message =>
    rw [hbody] at h
    obtain ⟨text, htext, h⟩ := Except.bind_eq_ok.mp h
    cases h
    rw [asText_eq_ok htext]
    simp [hinner, taskDefinition, note, Json.display]
  | task action =>
    rw [hbody] at h
    cases h
    simp [hinner, taskDefinition, note]
  | userTask prompt assignee form =>
    rw [hbody] at h
    obtain ⟨assigned, hassigned, h⟩ := Except.bind_eq_ok.mp h
    obtain ⟨formed, hformed, h⟩ := Except.bind_eq_ok.mp h
    have hform : s.form? = form := by simp [State.form?, hbody]
    -- There is no extension around nothing.
    have hboth : body.flatMap (Xml.collect note) =
        (assigned ++ formed).flatMap (Xml.collect note) := by
      split at h
      · rename_i hnil
        cases h
        rw [hnil]
      · cases h
        simp [hinner]
    rw [hboth, List.flatMap_append, collect_note_assignment hassigned,
      collect_note_formDefinition hform hformed]
  | choice branches otherwise =>
    rw [hbody] at h
    cases h
    rfl
  | stop reason =>
    rw [hbody] at h
    cases h
    rfl

theorem note_incoming (id : String) : (incoming fs id).flatMap note = [] := by
  simp [incoming, List.flatMap_map, note]

theorem note_outgoing (id : String) : (outgoing fs id).flatMap note = [] := by
  simp [outgoing, List.flatMap_map, note]

/-- The element of a state holds the texts that the state says. -/
theorem notes_of_element {s : State} {x : Xml} (h : element ids fs s = .ok x) :
    x.collect note = notes s := by
  obtain ⟨kind, name, body, _, _, hbody, rfl⟩ := element_eq_ok h
  have hself : ∀ attributes children, note (.block (tagOf kind) attributes children) = [] := by
    intro attributes children
    cases kind <;> simp [note, tagOf]
  have hmark : (terminator s).flatMap note = [] := by
    unfold terminator
    split <;> simp [note]
  rw [Xml.collect_block, hself]
  simp [collect_note_body hbody, note_incoming, note_outgoing, hmark]

/-- The start event holds no texts of the graph. -/
theorem notes_of_startEvent (fs : List SequenceFlow) : (startEvent fs).collect note = [] := by
  rw [startEvent, Xml.collect_block, collect_outgoing, note_outgoing]
  simp [note]

/-- The element of a sequence flow has the name of the flow, and holds its condition. -/
theorem texts_of_flowElement (f : SequenceFlow) :
    ((flowElement f).attribute? "name", (flowElement f).collect note) =
      ((Json.str f.name).given?,
        f.condition.toList.map fun c => ("bpmn:conditionExpression", c)) := by
  rw [given?_str]
  unfold flowElement
  by_cases hname : f.name = "" <;> cases f.condition <;>
    simp [hname, Xml.attribute?, Assoc.get?, note]

/-- The sequence flows of a graph carry the texts of its states. -/
theorem flows_texts (h : flows g ids = .ok fs) :
    fs.map (fun f => ((Json.str f.name).given?,
        f.condition.toList.map fun c => ("bpmn:conditionExpression", c))) =
      (none, []) :: g.nodes.flatMap edgeTexts := by
  rw [flows_map h (q := fun e => ((Json.str (if e.isDefault then "Otherwise" else
      (e.condition.map Json.display).getD "")).given?,
      (e.condition.map fun c => conditionExpression c.display).toList.map
        fun c => ("bpmn:conditionExpression", c))) fun _ _ => rfl,
    allEdges, List.map_cons, edgesFrom, List.map_flatMap]
  congr 1
  -- State by state, the edges to branches carry conditions, and the last one of a choice its mark.
  refine List.flatMap_congr fun s _ => ?_
  unfold edgesOf edgeTexts State.branchList State.otherwiseList State.targets
  cases s.body with
  | choice branches otherwise =>
    by_cases hgiven : otherwise.isGiven = true <;> simp [hgiven, given?_str, Function.comp_def]
  | stop reason => rfl
  | _ => by_cases hgiven : s.next.isGiven = true <;> simp [hgiven, given?_str]

/-- Forms are written as they are. -/
theorem forms_eq_ok {asked : List (Except Misfit Form)} {xs : List Xml}
    (h : asked.mapM (fun form => do formElement (← form)) = .ok xs) :
    ∃ forms : List Form, asked = forms.map .ok ∧ xs = forms.map fun f =>
      .text "zeebe:userTaskForm" [("id", Text.xmlId f.id.display)] f.toJson.dense := by
  induction asked generalizing xs with
  | nil => cases h; exact ⟨[], rfl, rfl⟩
  | cons form rest ih =>
    rw [List.mapM_cons] at h
    obtain ⟨x, hx, h⟩ := Except.bind_eq_ok.mp h
    obtain ⟨more, hmore, h⟩ := Except.bind_eq_ok.mp h
    obtain ⟨f, hf, hx⟩ := Except.bind_eq_ok.mp hx
    obtain ⟨forms, hforms, hmap⟩ := ih hmore
    refine ⟨f :: forms, by rw [hf, hforms]; rfl, ?_⟩
    rw [← Except.ok.inj h, formElement_eq_ok hx, hmap]
    rfl

/-! ## Documents -/

/-- A document holds the texts of a graph as they are, each of them in its place: the name of the
    flow, the names of the lanes, what the states say, the conditions, and the forms. -/
structure TextsKept (g : Graph) (layout : Diagram.Layout) (ids : List (String × String))
    (root : Xml) : Prop where
  flow : ∀ role ∈ [Role.participant, Role.process],
    (elementsOf role root).map (·.attribute? "name") = [some g.name]
  lanes : (elementsOf .lane root).map (fun e => (e.attribute? "id", e.attribute? "name")) =
    layout.bands.map fun band => (some band.lane.id, some band.lane.name)
  states : (elementsOf .node root).map
      (fun e => (e.attribute? "id", e.attribute? "name", e.collect note)) =
    (some startEventId, some "Start", []) ::
      g.nodes.map fun s => (some (idOf ids s.id), caption s, notes s)
  edges : (elementsOf .flow root).map (fun e => (e.attribute? "name", e.collect note)) =
    (none, []) :: g.nodes.flatMap edgeTexts
  forms : ∃ forms : List Form, g.nodes.filterMap (·.form?) = forms.map .ok ∧
    (elementsOf .form root).map (fun e => (e.attribute? "id", e.content)) =
      forms.map fun f => (some (Text.xmlId f.id.display), f.toJson.dense)

theorem Parts.Of.textsKept (h : p.Of g settings) :
    TextsKept g p.layout p.ids (p.root g settings) where
  flow := by
    intro role hrole
    simp only [List.mem_cons, List.not_mem_nil, or_false] at hrole
    rcases hrole with rfl | rfl
    · rw [h.elementsOf_root (by decide)]
      simp [Parts.ofRole, Parts.collaboration, Xml.attribute?, Assoc.get?]
    · rw [h.elementsOf_root (by decide)]
      simp [Parts.ofRole, Parts.process, Xml.attribute?, Assoc.get?]
  lanes := by
    rw [h.elementsOf_root (by decide)]
    simp [Parts.ofRole, Bpmn.lanes, Xml.attribute?, Assoc.get?]
  states := by
    have hstart : (startEvent p.flows).attribute? "id" = some startEventId ∧
        (startEvent p.flows).attribute? "name" = some "Start" := by
      simp [startEvent, Xml.attribute?, Assoc.get?]
    have helements := Except.map_eq_of_mapM
      (q := fun e : Xml => (e.attribute? "id", e.attribute? "name", e.collect note))
      (p := fun s => (some (idOf p.ids s.id), caption s, notes s))
      (fun s _ x hx => by rw [id_of_element hx, name_of_element hx, notes_of_element hx]) h.elements
    rw [h.elementsOf_root (by decide), Parts.ofRole, List.map_cons, helements, hstart.1, hstart.2,
      notes_of_startEvent]
  edges := by
    rw [h.elementsOf_root (by decide), Parts.ofRole, List.map_map, ← flows_texts h.flows]
    exact List.map_congr_left fun f _ => texts_of_flowElement f
  forms := by
    obtain ⟨forms, hasked, hforms⟩ := forms_eq_ok h.forms
    refine ⟨forms, hasked, ?_⟩
    rw [h.elementsOf_root (by decide), Parts.ofRole, hforms]
    simp [Xml.attribute?, Assoc.get?]

/-- The words of documents are names. -/
theorem isNamed_words : words.isNamed = true := by
  decide +kernel

/-- The document of a graph is read as markup without fail, and what is read is the tree of the
    document: the tags and the attributes are those of the vocabulary of documents, and the texts of
    the graph are there as they are. -/
theorem document_markup {text : String} (h : document g settings = .ok text) :
    ∃ root layout ids, definitions g settings = .ok root ∧
      Diagram.layout g settings.geometry settings.defaultLane = .ok layout ∧
      elementIds g = .ok ids ∧ Markup.read text = some (root.markup 0) ∧ root.Speaks words ∧
      TextsKept g layout ids root := by
  obtain ⟨root, hroot, htext⟩ := Except.bind_eq_ok.mp h
  obtain ⟨p, hp, rfl⟩ := parts_of_definitions hroot
  cases htext
  exact ⟨_, p.layout, p.ids, hroot, hp.layout, hp.ids,
    Markup.read_document isNamed_words hp.speaks_root, hp.speaks_root, hp.textsKept⟩

/-- A graph whose texts look like markup. -/
def markedFlow : Graph :=
  { name := "<F> & \"G\""
    start := .str "a"
    states := [
      ("a", State.make "a" (.send (.str "mail") (.str "&amp;") (.str "</bpmn:documentation>"))
        (.str "b")),
      ("b", State.make "b" (.stop (.str "it's \" over=\"")) .null)]
    warnings := [] }

/-- All of them are read back. -/
theorem document_markup_markedFlow : ∃ root,
    definitions markedFlow {} = .ok root ∧ Markup.read root.document = some (root.markup 0) ∧
    (elementsOf .process root).map (·.attribute? "name") = [some "<F> & \"G\""] ∧
    (elementsOf .node root).map (fun e => (e.attribute? "name", e.collect note)) =
      [(some "Start", []),
        (some "Send </bpmn:documentation>",
          [("bpmn:documentation", "To &amp;: </bpmn:documentation>"),
            ("zeebe:taskDefinition", "send-mail")]),
        (some "it's \" over=\"", [])] := by
  have hmade : (definitions markedFlow {}).isOk = true := by cbv
  cases hroot : definitions markedFlow {} with
  | error e => rw [hroot] at hmade; cases hmade
  | ok root =>
    have hdocument : document markedFlow {} = .ok root.document := by rw [document, hroot]; rfl
    obtain ⟨root', layout, ids, hroot', _, _, hread, _, hkept⟩ := document_markup hdocument
    cases hroot.symm.trans hroot'
    refine ⟨root, rfl, hread, hkept.flow .process (by simp), ?_⟩
    have hstates := congrArg (List.map (·.2)) hkept.states
    rw [List.map_map] at hstates
    refine hstates.trans ?_
    cbv

end Bpmn

end Swimlane
