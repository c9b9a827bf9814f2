import Swimlane.Graph.Validation
import Swimlane.Text.Fresh
import Swimlane.Text.Identifier

/-!
# From statements to states

Every statement becomes one state, in the order of the text.  First the statements are given
ids, then the states are linked: a state leads to the statement behind it, and the last one of a
block to what follows the block.  What falls off the end of the story leads to an end state.
-/

namespace Swimlane.Story

mutual

/-- A statement with the id of its state. -/
inductive Node where
  | action (id : String) (body : State.Body)
  | stop (id reason : String)
  | choice (id : String) (arms : List Arm) (otherwise : List Node)

/-- A branch of a conditional, its statements with their ids. -/
structure Arm where
  condition : String
  nodes : List Node

end

/-- The id of the state of a node. -/
def Node.id : Node → String
  | action id _ => id
  | stop id _ => id
  | choice id _ _ => id

/-! ## Naming -/

/-- The id for a state with the given label, different from the ids in use.  These are in the order
    in which they were given, so that of one label the numbers are met one after the other. -/
def idFor (used : List String) (label : String) : String := Text.fresh (Text.slug label) used

/-- The label that the id of a conditional is made of. -/
def conditionalLabel : List Branch → String
  | [] => "if"
  | b :: _ => "if " ++ b.condition

mutual

/-- The statement with an id that is not in use, and the ids in use then. -/
def nameOne (used : List String) : Statement → Except GraphFault (Node × List String)
  | .ask _ subject prompt =>
    let id := idFor used ("ask " ++ prompt)
    .ok (.action id (.userTask (.str prompt) (.str subject) none), used ++ [id])
  | .perform _ action =>
    let id := idFor used ("do " ++ action)
    .ok (.action id (.task (.str action)), used ++ [id])
  | .send _ message recipient channel =>
    let id := idFor used ("send " ++ message ++ " to " ++ recipient)
    .ok (.action id (.send (.str channel) (.str recipient) (.str message)), used ++ [id])
  | .stop _ reason =>
    let id := idFor used ("stop " ++ reason)
    .ok (.stop id reason, used ++ [id])
  | .conditional _ branches none => do
    let id := idFor used (conditionalLabel branches)
    let (arms, used) ← nameBranches (used ++ [id]) branches
    return (.choice id arms [], used)
  | .conditional _ branches (some body) => do
    let id := idFor used (conditionalLabel branches)
    let (arms, used) ← nameBranches (used ++ [id]) branches
    let (nodes, used) ← nameAll used body
    return (.choice id arms nodes, used)
  | .header source _ => .error (.unexpectedStatement "flowHeader" source.line)
  | .foreign source kind => .error (.unexpectedStatement kind source.line)

/-- The statements of a block with their ids. -/
def nameAll (used : List String) : List Statement → Except GraphFault (List Node × List String)
  | [] => .ok ([], used)
  | s :: rest => do
    let (node, used) ← nameOne used s
    let (nodes, used) ← nameAll used rest
    return (node :: nodes, used)

/-- The branches of a conditional with the ids of their statements. -/
def nameBranches (used : List String) : List Branch → Except GraphFault (List Arm × List String)
  | [] => .ok ([], used)
  | ⟨condition, body, _⟩ :: rest => do
    let (nodes, used) ← nameAll used body
    let (arms, used) ← nameBranches used rest
    return (⟨condition, nodes⟩ :: arms, used)

end

/-! ## Linking -/

/-- Where a block is entered: at its first statement, or at what follows if it is empty. -/
def entry (follow : String) : List Node → String
  | [] => follow
  | n :: _ => n.id

/-- The branches of a choice. -/
def exits (follow : String) (arms : List Arm) : List State.Branch :=
  arms.map fun arm => { condition := .str arm.condition, next := .str (entry follow arm.nodes) }

mutual

/-- The states of a statement that the given state follows. -/
def linkOne (follow : String) : Node → List State
  | .action id body => [State.make id body (.str follow)]
  | .stop id reason => [State.make id (.stop (.str reason)) .null]
  | .choice id arms otherwise =>
    State.make id (.choice (.list (exits follow arms)) (.str (entry follow otherwise))) .null ::
      (linkArms follow arms ++ linkAll follow otherwise)

/-- The states of a block that the given state follows. -/
def linkAll (follow : String) : List Node → List State
  | [] => []
  | n :: rest => linkOne (entry follow rest) n ++ linkAll follow rest

/-- The states of the branches of a conditional that the given state follows. -/
def linkArms (follow : String) : List Arm → List State
  | [] => []
  | ⟨_, nodes⟩ :: rest => linkAll follow nodes ++ linkArms follow rest

end

/-- The label and the reason of the state behind the last statement. -/
def endReason : String := "End"

/-- The states of a story, with an end state if something leads to it or there is none else. -/
def states (body : List Statement) : Except GraphFault (List State) := do
  let (nodes, used) ← nameAll [] body
  let endId := idFor used "end"
  -- The end is named last, so an id that it has to avoid is in use by now.
  let states := linkAll endId nodes
  let needsEnd := states.isEmpty || states.any fun s => s.targets.any (·.isText endId)
  return if needsEnd then states ++ [State.make endId (.stop (.str endReason)) .null] else states

end Swimlane.Story

namespace Swimlane.Graph

/-- The flow with the given states, the first of which is the start. -/
def ofStates (name : String) (states : List State) : Graph :=
  { name
    start := match states with
      | [] => .str ""
      | s :: _ => s.id
    states := states.map fun s => (s.id.display, s)
    warnings := [] }

/-- The validated graph of a story's statements, the header first. -/
def ofStatements : List Story.Statement → Except Failure Graph
  | .header _ name :: body => do
    let states ← (Story.states body).mapError .graph
    (ofStates name states).validated
  | _ => .error (.graph .missingHeader)

end Swimlane.Graph
