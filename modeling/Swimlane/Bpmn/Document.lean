import Swimlane.Bpmn.Process
import Swimlane.Diagram.Route

/-!
# BPMN documents

The whole document of a flow: the collaboration with its one participant, the process, and the
diagram with the shapes of the layout and the routes of the sequence flows.
-/

namespace Swimlane.Bpmn

open Diagram (Bounds Layout)

/-- A number in the text of a document.  One with too many digits cannot be written. -/
def numeral (n : Int) : Except Misfit String :=
  if (Nat.toDigits 10 n.natAbs).length ≤ Numeral.maxDigits then .ok (toString n)
  else .error .longInteger

/-- A rectangle as an element. -/
def boundsElement (b : Bounds) : Except Misfit Xml := do
  return .leaf "dc:Bounds" [("x", ← numeral b.x), ("y", ← numeral b.y),
    ("width", ← numeral b.width), ("height", ← numeral b.height)]

/-- The shape of an element. -/
def shape (id : String) (attributes : List (String × String)) (b : Bounds) :
    Except Misfit Xml := do
  return .block "bpmndi:BPMNShape" ([("id", id ++ "_di"), ("bpmnElement", id)] ++ attributes)
    [← boundsElement b]

/-- The shape of a pool or a lane. -/
def horizontalShape (id : String) (b : Bounds) : Except Misfit Xml :=
  shape id [("isHorizontal", "true")] b

/-- The nodes of the layout by their element ids, the start event first. -/
def placed (layout : Layout) (ids : List (String × String)) : List (String × Diagram.Node) :=
  ((startEventId, Diagram.startNode) :: ids.map fun (stateId, id) => (id, .str stateId)).filterMap
    fun (id, name) => (Assoc.get? name layout.nodes).map (id, ·)

/-- The shape of a node. -/
def nodeShape (node : String × Diagram.Node) : Except Misfit Xml :=
  shape node.1 (if node.2.label.isText Kind.choice.name then [("isMarkerVisible", "true")] else [])
    node.2.bounds

/-- The points of a sequence flow. -/
def flowRoute (nodes : List (String × Diagram.Node)) (f : SequenceFlow) : List Diagram.Point :=
  match Assoc.get? f.source nodes, Assoc.get? f.target nodes with
  | some source, some target => Diagram.route source target
  | _, _ => []

/-- A point of a line. -/
def waypoint (p : Diagram.Point) : Except Misfit Xml := do
  return .leaf "di:waypoint" [("x", ← numeral p.x), ("y", ← numeral p.y)]

/-- The line of a sequence flow. -/
def flowLine (nodes : List (String × Diagram.Node)) (f : SequenceFlow) : Except Misfit Xml := do
  return .block "bpmndi:BPMNEdge" [("id", f.id ++ "_di"), ("bpmnElement", f.id)]
    (← (flowRoute nodes f).mapM waypoint)

/-- The diagram of a layout. -/
def diagram (layout : Layout) (ids : List (String × String)) (flows : List SequenceFlow) :
    Except Misfit Xml := do
  let nodes := placed layout ids
  let pool ← horizontalShape "Participant_1" layout.pool
  let bands ← layout.bands.mapM fun band => horizontalShape band.lane.id band.bounds
  let shapes ← nodes.mapM nodeShape
  let lines ← flows.mapM (flowLine nodes)
  return .block "bpmndi:BPMNDiagram" [("id", "BPMNDiagram_1")]
    [.block "bpmndi:BPMNPlane" [("id", "BPMNPlane_1"), ("bpmnElement", "Collaboration_1")]
      (pool :: bands ++ shapes ++ lines)]

/-- The attributes of the root element. -/
def definitionsAttributes (slug : String) : List (String × String) :=
  [ ("xmlns:bpmn", "http://www.omg.org/spec/BPMN/20100524/MODEL"),
    ("xmlns:bpmndi", "http://www.omg.org/spec/BPMN/20100524/DI"),
    ("xmlns:dc", "http://www.omg.org/spec/DD/20100524/DC"),
    ("xmlns:di", "http://www.omg.org/spec/DD/20100524/DI"),
    ("xmlns:zeebe", "http://camunda.org/schema/zeebe/1.0"),
    ("xmlns:modeler", "http://camunda.org/schema/modeler/1.0"),
    ("xmlns:xsi", "http://www.w3.org/2001/XMLSchema-instance"),
    ("id", "Definitions_" ++ slug),
    ("targetNamespace", "http://bpmn.io/schema/bpmn"),
    ("exporter", "storyflow"),
    ("exporterVersion", version),
    ("modeler:executionPlatform", "Camunda Cloud"),
    ("modeler:executionPlatformVersion", "8.8.0") ]

/-- The name of a flow as a part of ids. -/
def flowSlug (name : String) : String :=
  Text.xmlId (match Text.slug name with
    | "" => "flow"
    | slug => slug)

/-- The document of a flow as an element. -/
def definitions (g : Graph) (settings : Settings) : Except Failure Xml := do
  let layout ← Diagram.layout g settings.geometry settings.defaultLane
  let ids ← elementIds g
  let flows ← flows g ids
  let slug := flowSlug g.name
  let processId := "Process_" ++ slug
  let process ← (process g settings.executable processId layout ids flows).mapError .misfit
  let diagram ← (diagram layout ids flows).mapError .misfit
  return .block "bpmn:definitions" (definitionsAttributes slug)
    [ .block "bpmn:collaboration" [("id", "Collaboration_1")]
        [.leaf "bpmn:participant"
          [("id", "Participant_1"), ("name", g.name), ("processRef", processId)]],
      process,
      diagram ]

/-- The text of the document of a flow. -/
def document (g : Graph) (settings : Settings) : Except Failure String := do
  return (← definitions g settings).document

end Swimlane.Bpmn
