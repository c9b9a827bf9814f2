import Swimlane.Failure
import Swimlane.Graph.Basic
import Swimlane.Text.Identifier

/-!
# Flow elements

Every state is an element of the process, with an id made of a mark for its kind and of its own
id.  Two states whose ids fall together cannot be drawn.
-/

namespace Swimlane.Bpmn

/-- The id of the start event. -/
def startEventId : String := "StartEvent_1"

/-- The tag of the elements of a kind. -/
def tagOf : Kind → String
  | .userTask => "bpmn:userTask"
  | .task => "bpmn:serviceTask"
  | .choice => "bpmn:exclusiveGateway"
  | .send => "bpmn:sendTask"
  | .stop => "bpmn:endEvent"

/-- The mark in front of the ids of the elements of a kind. -/
def markOf : Kind → String
  | .userTask => "UT"
  | .task => "ST"
  | .choice => "GW"
  | .send => "SND"
  | .stop => "End"

/-- The kind that a state is labelled with. -/
def labelledKind (s : State) : Except Misfit Kind :=
  match Kind.ofLabel? s.label with
  | some kind => .ok kind
  | none => if s.label.isName then .error (.noMember s.label.display) else .error .notName

/-- The id of the element of a state of the given kind. -/
def elementId (kind : Kind) (stateId : String) : String :=
  markOf kind ++ "_" ++ Text.xmlId stateId

/-- The element ids of states by their own ids, given the element ids in use. -/
def elementIdsFrom (used : List String) : List State → Except Failure (List (String × String))
  | [] => .ok []
  | s :: rest => do
    let kind ← (labelledKind s).mapError .misfit
    let stateId ← (s.id.asSearchable).mapError .misfit
    let id := elementId kind stateId
    if id ∈ used then throw (.layout (.duplicateElement id))
    return (stateId, id) :: (← elementIdsFrom (id :: used) rest)

/-- The element ids of the states of a flow. -/
def elementIds (g : Graph) : Except Failure (List (String × String)) := do
  return Assoc.ofPairs (← elementIdsFrom [startEventId] g.nodes)

/-- The element id of a state. -/
def idOf (ids : List (String × String)) (stateId : Json) : String :=
  (Assoc.get? stateId.display ids).getD ""

end Swimlane.Bpmn
