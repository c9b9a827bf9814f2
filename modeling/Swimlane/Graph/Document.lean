import Swimlane.Graph.Validation
import Swimlane.Json.Printer

/-!
# Script documents

The canonical JSON form of a flow: its name, its start and its states in the order of
construction.  Writing gives every state its members in a fixed order; reading takes a document
as it comes, checks what a state must have, and validates the graph.
-/

namespace Swimlane

/-! ## Writing -/

/-- A branch of a choice as a JSON object. -/
def State.Branch.toJson (b : State.Branch) : Json :=
  .obj [("condition", b.condition), ("next", b.next)]

/-- The members that a state has by what it does. -/
def State.Body.members : State.Body → List (String × Json)
  | .userTask prompt assignee form =>
    ("prompt", prompt) :: Json.ifGiven "assignee" assignee ++
      match form with
      | some (.ok f) => [("form", f.toJson)]
      | _ => []
  | .task action => [("action", action)]
  | .choice branches otherwise =>
    ("branches", .arr (branches.items.map State.Branch.toJson)) ::
      Json.ifGiven "otherwise" otherwise
  | .send channel recipient message =>
    [("channel", channel), ("to", recipient), ("message", message)]
  | .stop reason => [("reason", reason)]

/-- A state as a JSON object. -/
def State.toJson (s : State) : Json :=
  .obj ([("id", s.id), ("kind", s.label)] ++ s.body.members ++ Json.ifGiven "next" s.next)

/-- A flow as a script document. -/
def Graph.toJson (g : Graph) : Json :=
  .obj [("flow", .str g.name), ("start", g.start), ("states", .arr (g.nodes.map State.toJson))]

/-- The text of the script document of a flow. -/
def Graph.script (g : Graph) : String := g.toJson.pretty ++ "\n"

/-- Why a state cannot be written, if it cannot. -/
def State.writeMisfit? (s : State) : Option Misfit :=
  match s.form? with
  | some (.error misfit) => some misfit
  | _ => s.edgeMisfit?

/-- Why a flow cannot be written, if it cannot: one of its states cannot. -/
def Graph.writeMisfit? (g : Graph) : Option Misfit := g.nodes.findSome? State.writeMisfit?

/-! ## Reading -/

/-- Whether a value holds a key: an object as the name of a member, a text as a part, a list as
    an item.  Other values cannot be asked. -/
def Json.holds? (key : String) : Json → Option Bool
  | .obj members => some (members.any (·.1 == key))
  | .str s => some (Text.occursIn key.toList s.toList)
  | .arr vs => some (vs.any (·.isText key))
  | _ => none

/-- A member that the state with the given id must have. -/
def State.require (id : String) (v : Json) (key : String) : Except Failure Json :=
  match v.holds? key with
  | none => .error (.misfit (.noItems v.typeName))
  | some false => .error (.graph (.missingMember id key))
  | some true => (v.member key).mapError .misfit

/-- The form of a state, if the document holds one. -/
def State.formOf (id : String) (v : Json) : Except Failure (Option Form) :=
  if v.isNull then .ok none
  else match Form.ofJson v with
    | .ok form => .ok (some form)
    | .error .notObject => .error (.misfit .notObject)
    | .error misfit => .error (.graph (.malformedForm id misfit))

/-- A branch of a choice from its entry in a document. -/
def State.Branch.ofJson (id : String) (v : Json) : Except Failure State.Branch := do
  let condition ← State.require id v "condition"
  let next ← State.require id v "next"
  return { condition, next }

/-- What a state of the given kind does, from its entry in a document. -/
def State.Body.ofJson (id : String) (v : Json) : Kind → Except Failure State.Body
  | .userTask => do
    -- A malformed form is told before a missing prompt.
    let form ← State.formOf id (v.getD "form" .null)
    let prompt ← State.require id v "prompt"
    return .userTask prompt (v.getD "assignee" (.str "")) (form.map .ok)
  | .task => do
    return .task (← State.require id v "action")
  | .choice => do
    let entries ← ((v.getD "branches" (.arr [])).items).mapError .misfit
    return .choice (.list (← entries.mapM (State.Branch.ofJson id))) (v.getD "otherwise" .null)
  | .send => do
    let recipient ← State.require id v "to"
    let message ← State.require id v "message"
    return .send (v.getD "channel" (.str "message")) recipient message
  | .stop =>
    let next := v.getD "next" .null
    if next.isGiven then .error (.graph (.stopWithNext id next))
    else .ok (.stop (v.getD "reason" (.str "")))

/-- Whether a state of the given kind leads to a state of its own choice. -/
def Kind.hasNext : Kind → Bool
  | .choice => false
  | .stop => false
  | _ => true

/-- A state from its entry in a document. -/
def State.ofJson (v : Json) : Except Failure State :=
  match v with
  | .obj _ => do
    let id := (← State.require "" v "id").display
    let label ← State.require id v "kind"
    match Kind.ofLabel? label with
    | none => .error (.graph (.unknownKind (.str id) label))
    | some kind =>
      let body ← State.Body.ofJson id v kind
      return State.make id body (if kind.hasNext then v.getD "next" .null else .null)
  | v => .error (.graph (.notState v.typeName))

namespace Graph

/-- The graph with the states of the entries added one after the other. -/
def addEntries (g : Graph) : List Json → Except Failure Graph
  | [] => .ok g
  | v :: rest => do
    let g ← g.add (← State.ofJson v)
    g.addEntries rest

/-- The validated graph of a script document. -/
def ofJson (v : Json) : Except Failure Graph :=
  match v with
  | .obj _ => do
    -- The list of states is asked for first and the start last: of two faults this one is told.
    match ← State.require "" v "states" with
    | .arr entries => do
      let name := (← State.require "" v "flow").display
      let g ← (empty name).addEntries entries
      let start := (← State.require "" v "start").display
      { g with start := .str start }.validated
    | _ => .error (.graph .statesNotList)
  | _ => .error (.graph .notDocument)

/-- The validated graph of the text of a script document. -/
def ofText (s : String) : Except Failure Graph :=
  match Json.read s with
  | .ok v => ofJson v
  | .error e =>
    if e.fault = .longInteger then .error (.misfit .longInteger)
    else .error (.graph (.unreadable e))

end Graph

end Swimlane
