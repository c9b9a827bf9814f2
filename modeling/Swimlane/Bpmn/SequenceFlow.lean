import Swimlane.Bpmn.Element
import Swimlane.Bpmn.Expression

/-!
# Sequence flows

The edges of a flow as sequence flows between elements, numbered in the order of the states; the
first one leads from the start event to the start state.
-/

namespace Swimlane.Bpmn

/-- A sequence flow between two elements. -/
structure SequenceFlow where
  id : String
  source : String
  target : String
  name : String
  /-- The expression that must hold, if there is one. -/
  condition : Option String
  isDefault : Bool
  deriving DecidableEq, Repr

/-- An edge on its way to become a sequence flow. -/
structure Edge where
  source : String
  target : Json
  condition : Option Json
  isDefault : Bool

/-- The edges of a state. -/
def edgesOf (source : String) (s : State) : List Edge :=
  match s.body with
  | .choice branches otherwise =>
    branches.items.map (fun b => ⟨source, b.next, some b.condition, false⟩) ++
      if otherwise.isGiven then [⟨source, otherwise, none, true⟩] else []
  | .stop _ => []
  | _ => if s.next.isGiven then [⟨source, s.next, none, false⟩] else []

/-- The edges of states. -/
def edgesFrom (ids : List (String × String)) (states : List State) : List Edge :=
  states.flatMap fun s => edgesOf (idOf ids s.id) s

/-- The edges of a flow, the one from the start event first, up to the first state whose edges
    cannot be listed. -/
def edges (g : Graph) (ids : List (String × String)) : List Edge :=
  ⟨startEventId, g.start, none, false⟩ :: edgesFrom ids (g.nodes.takeWhile (·.edgeMisfit?.isNone))

/-- The element that an edge leads to. -/
def targetOf (ids : List (String × String)) (e : Edge) : Except Failure String :=
  if !e.target.isName then .error (.misfit .notName)
  else match e.target.asId?.bind (Assoc.get? · ids) with
    | some id => .ok id
    | none => .error (.layout (.unplacedTarget e.source e.target))

/-- The sequence flow of an edge with the given number. -/
def SequenceFlow.ofEdge (ids : List (String × String)) (number : Nat) (e : Edge) :
    Except Failure SequenceFlow := do
  -- The condition is read before the target is looked up.
  let condition ← (e.condition.mapM Json.asSearchable).mapError .misfit
  let target ← targetOf ids e
  return {
    id := s!"Flow_{number}"
    source := e.source
    target
    name := if e.isDefault then "Otherwise" else condition.getD ""
    condition := condition.map conditionExpression
    isDefault := e.isDefault }

/-- The sequence flows of edges, numbered from the given number on. -/
def flowsFrom (ids : List (String × String)) (number : Nat) :
    List Edge → Except Failure (List SequenceFlow)
  | [] => .ok []
  | e :: rest => do
    let flow ← SequenceFlow.ofEdge ids number e
    return flow :: (← flowsFrom ids (number + 1) rest)

/-- The sequence flows of a flow. -/
def flows (g : Graph) (ids : List (String × String)) : Except Failure (List SequenceFlow) := do
  let flows ← flowsFrom ids 1 (edges g ids)
  match g.edgeMisfit? with
  | some misfit => throw (.misfit misfit)
  | none => return flows

end Swimlane.Bpmn
