import Swimlane.Form.Basic

/-!
# State graphs

A flow is a graph of states, each stored under a key in the order of construction.  Edges are
kept as the ids of their targets.  Documents and edits may put any value where a text belongs, so
the texts of a state are JSON values.
-/

namespace Swimlane

/-- The kinds of states. -/
inductive Kind where
  | userTask
  | task
  | choice
  | send
  | stop
  deriving DecidableEq, Repr

namespace Kind

/-- All kinds of states. -/
def all : List Kind := [userTask, task, choice, send, stop]

/-- The label of a kind. -/
def name : Kind → String
  | userTask => "userTask"
  | task => "task"
  | choice => "choice"
  | send => "send"
  | stop => "stop"

/-- The kind with a given label. -/
def ofLabel? (label : Json) : Option Kind := all.find? fun k => label.isText k.name

end Kind

/-- A branch of a choice: the state to go to if a condition holds. -/
structure State.Branch where
  condition : Json
  next : Json

/-- The branches of a choice. -/
inductive State.Branches where
  | list (branches : List State.Branch)
  /-- A value that an edit put in their place. -/
  | foreign (v : Json)

namespace State.Branches

/-- The branches that there are. -/
def items : Branches → List Branch
  | list branches => branches
  | foreign _ => []

/-- Why the branches cannot be listed, if they cannot.  No item of a value is a branch. -/
def misfit? : Branches → Option Misfit
  | list _ => none
  | foreign v =>
    match v.items with
    | .ok [] => none
    | .ok (_ :: _) => some .notObject
    | .error misfit => some misfit

/-- Whether there are no branches. -/
def isEmpty : Branches → Bool
  | list branches => branches.isEmpty
  | foreign v => !v.isGiven

end State.Branches

/-- What a state does. -/
inductive State.Body where
  /-- A person fills in a form.  What an edit puts in the place of a form may be none. -/
  | userTask (prompt assignee : Json) (form : Option (Except Misfit Form))
  /-- The system performs an action. -/
  | task (action : Json)
  /-- The first branch whose condition holds is taken, else the last resort. -/
  | choice (branches : State.Branches) (otherwise : Json)
  /-- A message is sent. -/
  | send (channel recipient message : Json)
  /-- The flow ends. -/
  | stop (reason : Json)

/-- The kind of what a state does. -/
def State.Body.kind : State.Body → Kind
  | userTask .. => .userTask
  | task _ => .task
  | choice .. => .choice
  | send .. => .send
  | stop _ => .stop

/-- A state of a flow. -/
structure State where
  /-- A text unless it was changed. -/
  id : Json
  /-- The label of the state's kind.  It is the one of its body unless it was changed. -/
  label : Json
  body : State.Body
  /-- The state that follows.  Choices and stops have none of their own. -/
  next : Json

namespace State

/-- A state with the label of its kind. -/
def make (id : String) (body : Body) (next : Json) : State :=
  { id := .str id, label := .str body.kind.name, body, next }

/-- The targets of the edges of a state, in order. -/
def targets (s : State) : List Json :=
  match s.body with
  | .choice branches otherwise =>
    branches.items.map (·.next) ++ if otherwise.isGiven then [otherwise] else []
  | .stop _ => []
  | _ => if s.next.isGiven then [s.next] else []

/-- Why the edges of a state cannot be listed, if they cannot. -/
def edgeMisfit? (s : State) : Option Misfit :=
  match s.body with
  | .choice branches _ => branches.misfit?
  | _ => none

/-- Whether the flow ends in a state. -/
def isStop (s : State) : Bool :=
  match s.body with
  | .stop _ => true
  | _ => false

/-- Whether a person acts in a state. -/
def isUserTask (s : State) : Bool :=
  match s.body with
  | .userTask .. => true
  | _ => false

/-- The form of a state. -/
def form? (s : State) : Option (Except Misfit Form) :=
  match s.body with
  | .userTask _ _ form => form
  | _ => none

end State

/-- The id that an edge target is, if it can be one. -/
def Json.asId? : Json → Option String
  | .str s => some s
  | _ => none

/-- A flow as a graph of states. -/
structure Graph where
  name : String
  /-- The key of the first state.  It may be changed to any value. -/
  start : Json
  /-- The states with their keys, in the order of construction. -/
  states : List (String × State)
  /-- What the last successful validation warned of. -/
  warnings : List String

namespace Graph

/-- A flow without states. -/
def empty (name : String) : Graph := ⟨name, .str "", [], []⟩

/-- The keys of the states. -/
def keys (g : Graph) : List String := g.states.map (·.1)

/-- The states in the order of construction. -/
def nodes (g : Graph) : List State := g.states.map (·.2)

/-- The state under a key. -/
def find? (g : Graph) (key : String) : Option State := Assoc.get? key g.states

/-- The states in which a person acts. -/
def userTasks (g : Graph) : List State := g.nodes.filter (·.isUserTask)

/-- The edges of the graph: the id of a state and a target. -/
def edges (g : Graph) : List (Json × Json) :=
  g.nodes.flatMap fun s => s.targets.map (s.id, ·)

/-- Why the edges of the graph cannot be listed, if they cannot. -/
def edgeMisfit? (g : Graph) : Option Misfit := g.nodes.findSome? State.edgeMisfit?

end Graph

end Swimlane
