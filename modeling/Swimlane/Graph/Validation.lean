import Swimlane.Failure
import Swimlane.Graph.Reach

/-!
# Validation

A graph is valid if its start exists, every state has a known kind, every choice leads
somewhere, every target exists, and a stop can be reached from the start.  States that cannot be
reached, and states without a way to a stop, are warned of.
-/

namespace Swimlane.Graph

/-- The graph with one more state, stored under its id.  The first state with an id that is not
    empty is the start. -/
def add (g : Graph) (s : State) : Except Failure Graph :=
  let key := s.id.display
  if key ∈ g.keys then .error (.graph (.duplicateState key))
  else .ok { g with
    states := g.states ++ [(key, s)]
    start := if g.start.isGiven then g.start else s.id }

/-- Whether a value is the key of a state; lists and objects cannot be asked for. -/
def hasKey (g : Graph) (v : Json) : Except Failure Bool :=
  if !v.isName then .error (.misfit .notName)
  else match v.asId? with
    | some key => .ok (decide (key ∈ g.keys))
    | none => .ok false

/-- The state under a key, which must exist. -/
def get (g : Graph) (key : Json) : Except Failure State :=
  if !key.isName then .error (.misfit .notName)
  else match key.asId?.bind g.find? with
    | some s => .ok s
    | none => .error (.graph (.unknownState key))

/-- Refuses a target that does not exist. -/
def checkTarget (g : Graph) (id target : Json) : Except Failure Unit := do
  if !(← g.hasKey target) then throw (.graph (.missingTarget id target))

/-- Whether a state is a choice that leads nowhere. -/
def isEmptyChoice (s : State) : Bool :=
  match s.body with
  | .choice branches otherwise => branches.isEmpty && !otherwise.isGiven
  | _ => false

/-- Refuses a state with an unknown kind, without branches or with a missing target. -/
def checkState (g : Graph) (s : State) : Except Failure Unit := do
  if (Kind.ofLabel? s.label).isNone then throw (.graph (.unknownKind s.id s.label))
  if isEmptyChoice s then throw (.graph (.emptyChoice s.id))
  match s.edgeMisfit? with
  | some misfit => throw (.misfit misfit)
  | none => s.targets.forM (g.checkTarget s.id)

/-- Whether the id of a state is among the given ones. -/
def isAmong (ids : List String) (s : State) : Bool := ids.any (s.id.isText ·)

/-- The warnings about states, given the ids that can be reached and those that can stop. -/
def warningsOf (g : Graph) (reachable stopping : List String) : List String :=
  (g.nodes.filter (!isAmong reachable ·)).map
    (fun s => s!"State '{s.id.display}' is unreachable from start") ++
  (g.nodes.filter (!isAmong stopping ·)).map
    (fun s => s!"State '{s.id.display}' has no path to a stop state")

/-- A state from which a stop can be reached although no state is stored under its id: it was
    given another one. -/
def strayStopping? (g : Graph) (stopping : List String) : Option State :=
  g.nodes.find? fun s =>
    !isAmong g.keys s && (s.isStop || s.targets.any fun t => stopping.any (t.isText ·))

/-- The warnings about a valid graph.  The stops are given in the order in which the search for
    the states that can stop takes them. -/
def validateFrom (g : Graph) (stops : List String) : Except Failure (List String) := do
  if g.states.isEmpty then throw (.graph (.noStates g.name))
  if !(← g.hasKey g.start) then throw (.graph (.missingStart g.start))
  g.nodes.forM g.checkState
  let reachable ← (g.reachable g.start).mapError .misfit
  if !reachable.any fun key => ((g.find? key).map (·.isStop)).getD false then
    throw (.graph (.noReachableStop g.start))
  if !g.nodes.all (·.id.isName) then throw (.misfit .notName)
  let stopping := g.stoppingFrom stops
  match g.strayStopping? stopping with
  | some s => throw (.misfit (.noMember s.id.display))
  | none => return g.warningsOf reachable stopping

/-- The warnings about a valid graph. -/
def validate (g : Graph) : Except Failure (List String) := g.validateFrom g.stopIds

/-- The graph with its warnings, if it is valid. -/
def validated (g : Graph) : Except Failure Graph := do
  return { g with warnings := ← g.validate }

/-- What becomes of a graph that is validated in place, and what its validation says.  A graph
    that is refused keeps the warnings that it has. -/
def validateInPlace (g : Graph) : Graph × Except Failure (List String) :=
  match g.validated with
  | .ok g' => (g', .ok g'.warnings)
  | .error failure => (g, .error failure)

end Swimlane.Graph
