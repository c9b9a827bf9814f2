import Swimlane.Json.Display

/-!
# Reports

What a caller is told when a compilation fails: the kind of the failure, a message, and the
place it concerns.
-/

namespace Swimlane

/-- A failure as it is told to a caller. -/
inductive Report where
  /-- A line of a story that cannot be read. -/
  | story (message : String) (line text : Json)
  /-- A state graph that is not valid. -/
  | graph (message : String) (stateId ref : Json)
  /-- A diagram that cannot be drawn. -/
  | layout (message : String) (element : Json)
  /-- A result bundle that is not valid. -/
  | bundle (message : String)
  /-- Any other failure. -/
  | general (message : String)
  deriving Repr

namespace Report

/-- The name of the kind of failure. -/
def kind : Report → String
  | story .. => "syntax"
  | graph .. => "graph"
  | layout .. => "layout"
  | bundle _ => "bundle"
  | general _ => "error"

/-- The message as a whole.  One about a line names its number and shows the line, if there is
    one. -/
def message : Report → String
  | story m line text =>
    s!"line {line.display}: {m}" ++ (if text.isGiven then ": " ++ text.literal else "")
  | graph m _ _ => m
  | layout m _ => m
  | bundle m => m
  | general m => m

/-- The members that only a kind of failure has. -/
def details : Report → List (String × Json)
  | story _ line text => [("line", line), ("text", text)]
  | graph _ stateId ref => [("state_id", stateId), ("ref", ref)]
  | layout _ element => [("element_id", element)]
  | bundle _ => []
  | general _ => []

/-- The report as a JSON object. -/
def toJson (r : Report) : Json :=
  .obj ([("kind", .str r.kind), ("error", .str r.message)] ++ r.details)

/-- The HTTP status that answers a request which failed so. -/
def status : Report → Nat
  | story .. => 400
  | graph .. => 422
  | layout .. => 500
  | bundle _ => 400
  | general _ => 400

end Report

end Swimlane
