import Swimlane.Graph.Basic
import Swimlane.Placeholder
import Swimlane.Text.Fresh
import Swimlane.Text.Identifier
import Swimlane.Text.Keyword

/-!
# Lanes

The states of a flow are grouped by who acts in them.  A state of a person goes to the lane of
that person, an action that starts with the name of an actor to the lane of that actor, and any
other state to the default lane.  Lanes are in the order of their first state.
-/

namespace Swimlane.Diagram

/-- A lane of the diagram. -/
structure Lane where
  id : String
  name : String
  /-- The number of lanes before it. -/
  index : Nat
  stateIds : List Json
  deriving Repr

/-- Actors that are known without being asked anything. -/
def knownActors : List String :=
  ["manager", "employee", "user", "customer", "admin", "supervisor", "owner", "agent", "lead",
    "reviewer", "approver", "applicant", "finance", "hr"]

/-- A text in lower case. -/
def lowered (s : String) : String := String.ofList (Text.lower s.toList)

/-- The actors that the user tasks of a flow name. -/
def askedActors : List State → Except Misfit (List String)
  | [] => .ok []
  | s :: rest =>
    match s.body with
    | .userTask _ assignee _ =>
      if assignee.isGiven then do
        let actor ← assignee.asText
        return lowered (Placeholder.unbraced actor) :: (← askedActors rest)
      else askedActors rest
    | _ => askedActors rest

/-- The text behind a leading article. -/
def dropArticle (cs : List Char) : List Char :=
  (["the", "a", "an"].findSome? fun article =>
    Text.keyword? article.toList cs >>= Text.blanks?).getD cs

/-- The first word of an action, without the article before it and the marks around it. -/
def firstWord (action : String) : String :=
  let word := (dropArticle (Text.trim action.toList)).takeWhile (· != ' ')
  let marks := ['{', '}', ':', ',']
  String.ofList (Text.lower (Text.trimBy marks.contains word))

/-- Who acts in a state. -/
def actorOf (known : List String) (default : Json) (s : State) : Except Misfit String :=
  match s.body with
  | .userTask _ assignee _ => do
    let actor := Placeholder.unbraced (← assignee.asText)
    if actor = "" then default.asText else return actor
  | .task action => do
    let word := firstWord (← action.asText)
    if known.contains word then return word else default.asText
  | _ => default.asText

/-- The name of the lane of an actor. -/
def laneName (default : Json) (actor : String) : String :=
  if default.isText actor then actor else Text.label actor

/-- The id of a new lane with the given name. -/
def laneId (lanes : List Lane) (name : String) : String :=
  let slug := match Text.slug name with
    | "" => "default"
    | slug => slug
  Text.fresh ("Lane_" ++ Text.xmlId slug) (lanes.map (·.id))

/-- Puts a state into the lane of the given name, a new one if there is none.  Letter case does
    not tell lanes apart.  The id of the lane comes with the lanes. -/
def enter (name : String) (stateId : Json) (earlier : List Lane) : List Lane → List Lane × String
  | [] =>
    let id := laneId earlier name
    ([⟨id, name, earlier.length, [stateId]⟩], id)
  | lane :: rest =>
    if lowered lane.name = lowered name then
      ({ lane with stateIds := lane.stateIds ++ [stateId] } :: rest, lane.id)
    else
      let r := enter name stateId (earlier ++ [lane]) rest
      (lane :: r.1, r.2)

/-- The lanes, and for every state id the id of its lane. -/
abbrev Assignment := List Lane × List (Json × String)

/-- Puts states into lanes one after the other. -/
def enterAll (known : List String) (default : Json) (a : Assignment) :
    List State → Except Misfit Assignment
  | [] => .ok a
  | s :: rest => do
    let actor ← actorOf known default s
    let (lanes, id) := enter (laneName default actor) s.id [] a.1
    if !s.id.isName then throw .notName
    enterAll known default (lanes, Assoc.put s.id id a.2) rest

/-- The lanes of a flow.  The name of the default lane must be a text only if a state needs it. -/
def assignLanes (g : Graph) (default : Json) : Except Misfit Assignment := do
  let known := knownActors ++ (← askedActors g.nodes)
  enterAll known default ([], []) g.nodes

end Swimlane.Diagram
