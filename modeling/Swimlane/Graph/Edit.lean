import Swimlane.Graph.Validation

/-!
# Edits

Changing single members of a state in place.  Nothing is checked: what does not fit any more is
found by the next validation.
-/

namespace Swimlane

/-- What a state does, with the named member changed.  A member that the state has no use for
    changes nothing. -/
def State.Body.set (member : String) (value : Json) (body : State.Body) : State.Body :=
  match body, member with
  | .userTask _ assignee form, "prompt" => .userTask value assignee form
  | .userTask prompt _ form, "assignee" => .userTask prompt value form
  | .userTask prompt assignee _, "form" =>
    -- A value is no form, whatever it holds.
    .userTask prompt assignee (if value.isNull then none else some (.error .notObject))
  | .task _, "action" => .task value
  | .choice branches _, "otherwise" => .choice branches value
  | .choice _ otherwise, "branches" => .choice (.foreign value) otherwise
  | .send _ recipient message, "channel" => .send value recipient message
  | .send channel _ message, "to" => .send channel value message
  | .send channel recipient _, "message" => .send channel recipient value
  | .stop _, "reason" => .stop value
  | body, _ => body

/-- The state with the named member changed.  A new kind is a new label only: the state goes on
    doing what it did. -/
def State.set (s : State) (member : String) (value : Json) : State :=
  match member with
  | "id" => { s with id := value }
  | "kind" => { s with label := value }
  | "next" => { s with next := value }
  | member => { s with body := s.body.set member value }

/-- The graph with a member of the state under a key changed.  The state keeps its key. -/
def Graph.set (g : Graph) (key : Json) (member : String) (value : Json) : Except Failure Graph := do
  let s ← g.get key
  return { g with states := Assoc.put key.display (s.set member value) g.states }

end Swimlane
