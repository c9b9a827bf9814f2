import Swimlane.Bpmn.SequenceFlow
import Swimlane.Bpmn.Xml
import Swimlane.Diagram.Layout
import Swimlane.Json.Printer

/-!
# Processes

The process of a flow as XML: its forms, its lanes, its elements and its sequence flows.
-/

namespace Swimlane.Bpmn

/-! ## Forms -/

/-- The id of a form as an XML id. -/
def formId (form : Form) : Except Misfit String := do
  return Text.xmlId (← form.id.asSearchable)

/-- A form as an element. -/
def formElement (form : Form) : Except Misfit Xml := do
  return .text "zeebe:userTaskForm" [("id", ← formId form)] form.toJson.dense

/-- The version of the exported documents. -/
def version : String := "1.0"

/-- The version mark of the process, and its forms. -/
def formElements (g : Graph) : Except Misfit Xml := do
  let forms ← (g.nodes.filterMap (·.form?)).mapM fun form => do formElement (← form)
  return .block "bpmn:extensionElements" [] (.leaf "zeebe:versionTag" [("value", version)] :: forms)

/-! ## Lanes -/

/-- A reference to an element in a lane. -/
def nodeRef (id : String) : Xml := .text "bpmn:flowNodeRef" [] id

/-- The lanes with the elements in them; the start event is in the lane of its node. -/
def laneSet (layout : Diagram.Layout) (ids : List (String × String)) : Xml :=
  let startLane := (Assoc.get? Diagram.startNode layout.nodes).map (·.lane)
  .block "bpmn:laneSet" [("id", "LaneSet_1")] <| layout.bands.map fun band =>
    let lane := band.lane
    let start := if startLane = some lane.id then [nodeRef startEventId] else []
    .block "bpmn:lane" [("id", lane.id), ("name", lane.name)]
      (start ++ lane.stateIds.map fun id => nodeRef (idOf ids id))

/-! ## Elements -/

/-- The references to the sequence flows that lead to an element. -/
def incoming (flows : List SequenceFlow) (id : String) : List Xml :=
  (flows.filter (·.target == id)).map fun f => .text "bpmn:incoming" [] f.id

/-- The references to the sequence flows that leave an element. -/
def outgoing (flows : List SequenceFlow) (id : String) : List Xml :=
  (flows.filter (·.source == id)).map fun f => .text "bpmn:outgoing" [] f.id

/-- The start event. -/
def startEvent (flows : List SequenceFlow) : Xml :=
  .block "bpmn:startEvent" [("id", startEventId), ("name", "Start")] (outgoing flows startEventId)

/-- The name of the element of a state. -/
def elementName (s : State) : Json :=
  match s.body with
  | .userTask prompt _ _ => prompt
  | .task action => action
  | .choice branches _ =>
    match branches.items with
    | [] => .str ""
    | b :: _ => .str (b.condition.display ++ "?")
  | .send _ _ message => .str ("Send " ++ message.display)
  | .stop reason => if reason.isGiven then reason else .str "End"

/-- The attribute for a name, if it is given. -/
def nameAttribute (name : Json) : Except Misfit (List (String × String)) := do
  if name.isGiven then return [("name", ← name.asText)] else return []

/-- The extension of an element by other elements. -/
def extension (children : List Xml) : Xml := .block "bpmn:extensionElements" [] children

/-- The kind of messages that a channel carries. -/
def channelType (channel : String) : String :=
  match Text.slug channel with
  | "" => "send-message"
  | slug => "send-" ++ slug

/-- The definition of a task for the engine. -/
def taskDefinition (type : String) : Xml := .leaf "zeebe:taskDefinition" [("type", type)]

/-- Who is assigned to a user task. -/
def assignment (assignee : Json) : Except Misfit (List Xml) := do
  if assignee.isGiven then
    let expression := assigneeExpression (← assignee.asSearchable)
    return [.leaf "zeebe:assignmentDefinition" [("assignee", expression)]]
  else return []

/-- The form of a user task. -/
def formDefinition : Option (Except Misfit Form) → Except Misfit (List Xml)
  | none => .ok []
  | some form => do
    let id ← formId (← form)
    return [.leaf "zeebe:formDefinition" [("formKey", "camunda-forms:bpmn:" ++ id)]]

/-- What stands in an element by the kind of its state. -/
def elementBody (s : State) : Except Misfit (List Xml) :=
  match s.body with
  | .send channel recipient message => do
    let type := channelType (← channel.asText)
    return [.text "bpmn:documentation" [] s!"To {recipient.display}: {message.display}",
      extension [taskDefinition type]]
  | .task _ => .ok [extension [taskDefinition s.id.display]]
  | .userTask _ assignee form => do
    match (← assignment assignee) ++ (← formDefinition form) with
    | [] => return []
    | children => return [extension children]
  | _ => .ok []

/-- The sequence flow that an element takes if no other condition holds: the last one, should
    states share an element. -/
def defaultFlow? (flows : List SequenceFlow) (id : String) : Option String :=
  (flows.reverse.find? fun f => f.isDefault && f.source == id).map (·.id)

/-- The element of a state. -/
def element (ids : List (String × String)) (flows : List SequenceFlow) (s : State) :
    Except Misfit Xml := do
  let id := idOf ids s.id
  let tag := tagOf (← labelledKind s)
  let name ← nameAttribute (elementName s)
  let default := match defaultFlow? flows id with
    | some flow => [("default", flow)]
    | none => []
  let body ← elementBody s
  let terminate := if s.isStop then [.leaf "bpmn:terminateEventDefinition" []] else []
  return .block tag ([("id", id)] ++ name ++ default)
    (body ++ incoming flows id ++ outgoing flows id ++ terminate)

/-- The element of a sequence flow. -/
def flowElement (f : SequenceFlow) : Xml :=
  let attributes := [("id", f.id), ("sourceRef", f.source), ("targetRef", f.target)] ++
    if f.name = "" then [] else [("name", f.name)]
  match f.condition with
  | none => .leaf "bpmn:sequenceFlow" attributes
  | some condition =>
    .block "bpmn:sequenceFlow" attributes
      [.text "bpmn:conditionExpression" [("xsi:type", "bpmn:tFormalExpression")] condition]

/-- The process of a flow. -/
def process (g : Graph) (executable : Bool) (processId : String) (layout : Diagram.Layout)
    (ids : List (String × String)) (flows : List SequenceFlow) : Except Misfit Xml := do
  let forms ← formElements g
  let elements ← g.nodes.mapM (element ids flows)
  return .block "bpmn:process"
    [("id", processId), ("name", g.name), ("isExecutable", if executable then "true" else "false")]
    ([forms, laneSet layout ids, startEvent flows] ++ elements ++ flows.map flowElement)

end Swimlane.Bpmn
