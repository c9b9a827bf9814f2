import Swimlane.Diagram.Layout

/-!
# Routes

The way of an edge between two nodes: straight down or up within a column, else from the right
side of one node to the left side of the other, with a step halfway if their middles differ.
-/

namespace Swimlane.Diagram

/-- A point of a route. -/
structure Point where
  x : Int
  y : Int
  deriving DecidableEq, Repr

/-- The way between two rectangles in the given columns. -/
def routeBetween (sourceColumn targetColumn : Int) (s t : Bounds) : List Point :=
  if sourceColumn = targetColumn then
    if s.y ≤ t.y then [⟨s.centerX, s.bottom⟩, ⟨t.centerX, t.y⟩]
    else [⟨s.centerX, s.y⟩, ⟨t.centerX, t.bottom⟩]
  else if s.centerY = t.centerY then [⟨s.right, s.centerY⟩, ⟨t.x, t.centerY⟩]
  else
    let middle := Int.fdiv (s.right + t.x) 2
    [⟨s.right, s.centerY⟩, ⟨middle, s.centerY⟩, ⟨middle, t.centerY⟩, ⟨t.x, t.centerY⟩]

/-- The way of an edge between two nodes. -/
def route (source target : Node) : List Point :=
  routeBetween source.column target.column source.bounds target.bounds

/-- The way of an edge of a flow. -/
structure Route where
  source : Json
  target : Json
  points : List Point

/-- The way from one node to another, if both have a place. -/
def Layout.route? (l : Layout) (source target : Json) : Option Route := do
  let s ← Assoc.get? source l.nodes
  let t ← Assoc.get? target l.nodes
  return ⟨source, target, route s t⟩

/-- The ways of the edges of a flow, the one from the start event first. -/
def Layout.routes (l : Layout) (g : Graph) : Except Misfit (List Route) :=
  match g.edgeMisfit? with
  | some misfit => .error misfit
  | none =>
    if g.edges.all (·.2.isName) then
      .ok (((startNode, g.start) :: g.edges).filterMap fun (source, target) => l.route? source target)
    else .error .notName

end Swimlane.Diagram
