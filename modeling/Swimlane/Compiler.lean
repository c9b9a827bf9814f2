import Swimlane.Bpmn.Document
import Swimlane.Graph.Document
import Swimlane.Graph.Forms
import Swimlane.Graph.OfStory

/-!
# Compilation

From the text of a story to its graph with forms, and from a graph to everything that is made of
it: the script document, the forms, the BPMN document and the warnings.
-/

namespace Swimlane.Graph

/-- The graph of a story, with its forms. -/
def ofStory (story : String) : Except Failure Graph := do
  let statements ← (Story.parse story).mapError .story
  match (← ofStatements statements).attachForms with
  | (g, none) => return g
  | (_, some misfit) => throw (.misfit misfit)

/-- Everything that is made of a flow. -/
def artifacts (g : Graph) (settings : Settings) : Except Failure Json := do
  let bpmn ← Bpmn.document g settings
  return .obj [("name", .str g.name), ("start", g.start), ("script", g.toJson),
    ("forms", .obj g.forms), ("bpmn", .str bpmn), ("warnings", .arr (g.warnings.map .str))]

end Swimlane.Graph
