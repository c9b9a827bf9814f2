import Swimlane.Graph.Basic
import Swimlane.Graph.Search

/-!
# Reachability

Which states a flow can come to, how far they are from its start, and from which states a stop
can be reached.
-/

namespace Swimlane.Graph

/-- The ids that the edges of the state under a key lead to. -/
def successors (g : Graph) (key : String) : List String :=
  match g.find? key with
  | some s => s.targets.filterMap Json.asId?
  | none => []

/-- The states that can be reached from a state, with their distances. -/
def distances (g : Graph) (origin : String) : List (String × Nat) :=
  if origin ∈ g.keys then
    Search.breadthFirst g.successors (g.keys.erase origin) [(origin, 0)]
  else []

/-- Why the edges of the state under a key cannot be followed, if they cannot: they cannot be
    listed, or one leads to what is no name. -/
def stepMisfit? (g : Graph) (key : String) : Option Misfit := do
  let s ← g.find? key
  s.edgeMisfit? <|> if s.targets.all Json.isName then none else some .notName

/-- The states that can be reached, with their distances, unless the edges of one of them cannot
    be followed. -/
def explore (g : Graph) (origin : Json) : Except Misfit (List (String × Nat)) :=
  if !origin.isName then .error .notName
  else
    let met := match origin.asId? with
      | some key => g.distances key
      | none => []
    match met.findSome? fun (key, _) => g.stepMisfit? key with
    | some misfit => .error misfit
    | none => .ok met

/-- The states that can be reached from a state; if none is given, from the start. -/
def reachable (g : Graph) (origin : Json) : Except Misfit (List String) := do
  return (← g.explore (if origin.isGiven then origin else g.start)).map (·.1)

/-- The states with an edge to the given id. -/
def sources (g : Graph) (id : String) : List State :=
  g.nodes.filter fun s => s.targets.any (·.isText id)

/-- The ids of states, as far as they are texts. -/
def idsOf (states : List State) : List String := states.filterMap (·.id.asId?)

/-- The ids of the stops, each once. -/
def stopIds (g : Graph) : List String := (idsOf (g.nodes.filter (·.isStop))).eraseDups

/-- The ids of the states from which one of the given stops can be reached.  The search goes
    backwards and takes the stops in their order. -/
def stoppingFrom (g : Graph) (stops : List String) : List String :=
  let others := (idsOf g.nodes).eraseDups.filter (· ∉ stops)
  (Search.breadthFirst (fun id => idsOf (g.sources id)) others (stops.map (·, 0))).map (·.1)

end Swimlane.Graph
