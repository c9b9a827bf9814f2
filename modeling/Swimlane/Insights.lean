import Swimlane.Failure
import Swimlane.Graph.Basic

/-!
# Insights

What a flow is about: who acts, what the system does, and which variables there are, each with
where it comes from.
-/

namespace Swimlane

/-- A variable of a flow. -/
structure Insights.Variable where
  name : String
  description : Json
  origins : List String

/-- What a flow is about. -/
structure Insights where
  actors : List String
  intents : List String
  vars : List Insights.Variable

namespace Insights

/-- No insights. -/
def empty : Insights := ⟨[], [], []⟩

/-- The variable as a JSON object; an empty description is left out. -/
def Variable.toJson (v : Variable) : Json :=
  .obj (("name", .str v.name) :: ("origins", .arr (v.origins.map .str)) ::
    if v.description.isGiven then [("description", v.description)] else [])

/-- The insights as a JSON object. -/
def toJson (i : Insights) : Json :=
  .obj [("actors", .arr (i.actors.map .str)), ("intents", .arr (i.intents.map .str)),
    ("variables", .arr (i.vars.map Variable.toJson))]

/-! ## From a flow -/

/-- Notes that a variable comes from an origin. -/
def note (origin name : String) : List Variable → List Variable
  | [] => [⟨name, .str "", [origin]⟩]
  | v :: rest =>
    if v.name = name then
      (if origin ∈ v.origins then v else { v with origins := v.origins ++ [origin] }) :: rest
    else v :: note origin name rest

/-- Notes several variables. -/
def noteAll (origin : String) (names : List String) (vs : List Variable) : List Variable :=
  names.foldl (fun vs name => note origin name vs) vs

/-- The variables that a value mentions. -/
def mentioned (v : Json) : Except Misfit (List String) := do
  return Placeholder.names (← v.asSearchable)

/-- Adds what a state is about. -/
def withState (i : Insights) (s : State) : Except Misfit Insights :=
  match s.body with
  | .userTask prompt assignee _ => do
    let actor := Placeholder.unbraced (← assignee.asText)
    let assigned ← mentioned assignee
    -- The person who is asked is no input.
    let names := (← mentioned prompt).filter (!assigned.contains ·)
    return { i with
      actors := if actor = "" || i.actors.contains actor then i.actors else i.actors ++ [actor]
      vars := noteAll "input" names i.vars }
  | .task action => do
    let names ← mentioned action
    return { i with
      intents := i.intents ++ [action.display]
      vars := noteAll "system" names i.vars }
  | .choice branches _ =>
    match branches.misfit? with
    | some misfit => .error misfit
    | none => do
      let names ← branches.items.mapM fun b => mentioned b.condition
      return { i with vars := noteAll "condition" names.flatten i.vars }
  | .send _ recipient message =>
    let names := Placeholder.names (message.display ++ " " ++ recipient.display)
    .ok { i with vars := noteAll "output" names i.vars }
  | .stop _ => .ok i

/-- What a flow is about. -/
def ofGraph (g : Graph) : Except Misfit Insights := g.nodes.foldlM withState empty

end Insights

end Swimlane
