import Swimlane.Form.Inference
import Swimlane.Graph.Basic
import Swimlane.Json.Display
import Swimlane.Json.Printer

/-!
# The forms of a flow

Every state in which a person acts gets the form that its prompt asks for; the variable that
names the person is not asked for.
-/

namespace Swimlane

/-- The state with the form that its prompt asks for. -/
def State.withForm (s : State) : Except Misfit State :=
  match s.body with
  | .userTask prompt assignee _ => do
    let exclude := Placeholder.names (← assignee.asSearchable)
    let form := Form.infer? s.id.display (← prompt.asSearchable) exclude
    return { s with body := .userTask prompt assignee (form.map .ok) }
  | _ => .ok s

namespace Graph

/-- The states with their forms, up to the first one whose prompt cannot be searched. -/
def withForms : List (String × State) → List (String × State) × Option Misfit
  | [] => ([], none)
  | (key, s) :: rest =>
    match s.withForm with
    | .error misfit => ((key, s) :: rest, some misfit)
    | .ok s' =>
      let r := withForms rest
      ((key, s') :: r.1, r.2)

/-- The graph with its forms, and what stopped their inference if something did. -/
def attachForms (g : Graph) : Graph × Option Misfit :=
  let r := withForms g.states
  ({ g with states := r.1 }, r.2)

/-- The form of a state with the id of the state. -/
def formOf? (s : State) : Option (Json × Json) :=
  match s.form? with
  | some (.ok f) => some (s.id, f.toJson)
  | _ => none

/-- The forms of a flow by the ids of their states. -/
def forms (g : Graph) : List (String × Json) :=
  (Assoc.ofPairs (g.nodes.filterMap formOf?)).map fun (id, form) => (id.memberName, form)

/-- Why the forms of a flow cannot be listed, if they cannot. -/
def formsMisfit? (g : Graph) : Option Misfit :=
  g.nodes.findSome? fun s =>
    match s.form? with
    | none => none
    | some (.error misfit) => some misfit
    | some (.ok _) => if s.id.isName then none else some .notName

end Graph

end Swimlane
